import TemplateTags.Command.FilePath
/-!
# File trees

A file tree holds directories and the texts of files below a root, and one of
the directories is the working directory. `FileTree.locate?` follows a path
through it as a file system without links does: an absolute path from the root,
any other from the working directory. Every name on the way has to be a
directory, and the last one a file. Two points lead to the directory above,
which at the root is the root itself.
-/

namespace TemplateTags

/-- Directories and files, each as the names that lead to it from the root. -/
structure FileTree where
  /-- the working directory -/
  directory : List Text
  /-- other directories; those that lead to another entry need not be among them -/
  directories : List (List Text)
  /-- the files with their texts -/
  files : List (List Text × Text)
deriving DecidableEq, Repr

namespace FileTree

/-- The tree of a working directory and of files with these paths. A path that is
not absolute is taken from the working directory. -/
def inDirectory (directory : List Text) (files : List (Text × Text)) : FileTree :=
  let place (path : Text) := (if FilePath.isAbsolute path then [] else directory)
    ++ FilePath.names path
  ⟨directory, [], files.map fun file => (place file.1, file.2)⟩

/-- The tree of files with these relative paths, in a working directory below the
root. -/
def ofFiles (files : List (Text × Text)) : FileTree :=
  inDirectory ["work".toList] files

/-- The text of the file that names lead to. -/
def find? (t : FileTree) (names : List Text) : Option Text :=
  (t.files.find? (·.1 == names)).map Prod.snd

/-- Whether names lead to a directory: to the root, to one of the given
directories or to one on the way to an entry. -/
def isDirectory (t : FileTree) (names : List Text) : Bool :=
  names.isEmpty || (t.directory :: t.directories).any names.isPrefixOf
    || t.files.any fun file =>
      names.isPrefixOf file.1 && names.length < file.1.length

/-- Follow the pieces of a path from a directory, given by the names that lead to
it. -/
def follow? (t : FileTree) : List Text → List Text → Option (List Text)
  | _, [] => none
  | directory, [last] =>
    if !FilePath.isName last || FilePath.isUp last then none
    else
      let file := directory ++ [last]
      if (t.find? file).isSome then some file else none
  | directory, piece :: rest =>
    if !FilePath.isName piece then follow? t directory rest
    -- The root has no last name to drop.
    else if FilePath.isUp piece then follow? t directory.dropLast rest
    else if t.isDirectory (directory ++ [piece]) then
      follow? t (directory ++ [piece]) rest
    else none

/-- The names that lead to the file of a path. -/
def locate? (t : FileTree) (path : Text) : Option (List Text) :=
  t.follow? (if FilePath.isAbsolute path then [] else t.directory)
    (FilePath.pieces path)

/-- The text of the file of a path. -/
def read? (t : FileTree) (path : Text) : Option Text := (t.locate? path).bind t.find?

/-- The tree with another text in the file of a path. -/
def write (t : FileTree) (path text : Text) : FileTree :=
  match t.locate? path with
  | none => t
  | some names =>
    { t with
      files := t.files.map fun file =>
        if file.1 = names then (file.1, text) else file }

end FileTree

end TemplateTags
