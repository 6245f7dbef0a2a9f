import TemplateTags.Text.Basic
/-!
# File paths

A path is a text of names with slashes between them. Empty names and single
points in it name nothing.
-/

namespace TemplateTags.FilePath

/-- The pieces between the slashes. -/
def pieces : Text → List Text
  | [] => [[]]
  | c :: rest =>
    match pieces rest with
    | [] => [[]]
    | piece :: others =>
      if c = '/' then [] :: piece :: others else (c :: piece) :: others

/-- Whether a piece of a path names something. -/
def isName (piece : Text) : Bool := piece ≠ [] && piece ≠ ['.']

/-- Whether a piece goes up to the directory above. -/
def isUp (piece : Text) : Bool := piece = ['.', '.']

/-- The names of a path, in order. -/
def names (path : Text) : List Text := (pieces path).filter isName

def isAbsolute (path : Text) : Bool := path.head? = some '/'

/-- The path of these names. -/
def ofNames (absolute : Bool) (names : List Text) : Text :=
  (if absolute then ['/'] else []) ++ Text.join ['/'] names

/-- The name of the file at the end of a path. -/
def fileName? (path : Text) : Option Text :=
  (names path).getLast?.filter fun name => !isUp name

/-- What stands behind the last point of a file's name, if something stands in
front of that point. -/
def extension? (path : Text) : Option Text := do
  let name ← fileName? path
  let behind := (name.reverse.takeWhile (· ≠ '.')).reverse
  if behind.length + 1 < name.length then some behind else none

/-- The file of a name in the directory that a path's last name is in. -/
def beside (path name : Text) : Text :=
  match names path with
  | [] => name
  | names => ofNames (isAbsolute path) (names.dropLast ++ [name])

/-- The path with an ending at its file's name. -/
def withEnding? (path ending : Text) : Option Text := do
  let name ← fileName? path
  return ofNames (isAbsolute path) ((names path).dropLast ++ [name ++ ending])

end TemplateTags.FilePath
