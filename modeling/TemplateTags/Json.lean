import TemplateTags.Text.Basic
/-!
# JSON output

`Json.render` lays a value out with one item or field per line, each level
two spaces further in.
-/

namespace TemplateTags

/-- A value to write. -/
inductive Json where
  | number (n : Nat)
  | text (text : Text)
  | list (items : List Json)
  | record (fields : List (Text × Json))
deriving Repr

namespace Json

/-- Four hexadecimal digits of a code point. -/
def hex4 (n : Nat) : Text :=
  let digits := Nat.toDigits 16 n
  List.replicate (4 - digits.length) '0' ++ digits

/-- How a character is written in a string. Only quotes, backslashes and control
characters change. -/
def escapeChar (c : Char) : Text :=
  match c with
  | '"' => ['\\', '"']
  | '\\' => ['\\', '\\']
  | '\x08' => ['\\', 'b']
  | '\x0c' => ['\\', 'f']
  | '\n' => ['\\', 'n']
  | '\r' => ['\\', 'r']
  | '\t' => ['\\', 't']
  | c => if c < ' ' then ['\\', 'u'] ++ hex4 c.toNat else [c]

def renderText (text : Text) : Text := ['"'] ++ text.flatMap escapeChar ++ ['"']

/-- The start of a line at a level. -/
def newLine (level : Nat) : Text := '\n' :: List.replicate (2 * level) ' '

mutual
/-- The value, whose inner lines stand one level above `level`. -/
def renderAt (level : Nat) : Json → Text
  | number n => Text.ofNat n
  | text t => renderText t
  | list [] => ['[', ']']
  | list items => ['['] ++ renderItems (level + 1) items ++ newLine level ++ [']']
  | record [] => ['{', '}']
  | record fields =>
    ['{'] ++ renderFields (level + 1) fields ++ newLine level ++ ['}']

def renderItems (level : Nat) : List Json → Text
  | [] => []
  | [item] => newLine level ++ renderAt level item
  | item :: rest =>
    newLine level ++ renderAt level item ++ [','] ++ renderItems level rest

def renderFields (level : Nat) : List (Text × Json) → Text
  | [] => []
  | [(key, value)] =>
    newLine level ++ renderText key ++ [':', ' '] ++ renderAt level value
  | (key, value) :: rest =>
    newLine level ++ renderText key ++ [':', ' '] ++ renderAt level value ++ [',']
      ++ renderFields level rest
end

/-- The value over as many lines as it needs. -/
def render (j : Json) : Text := renderAt 0 j

end Json

end TemplateTags
