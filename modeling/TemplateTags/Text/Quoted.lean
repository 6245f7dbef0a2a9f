import TemplateTags.Text.Basic
import TemplateTags.Text.Hidden
/-!
# Quoted text

`Text.quoted` writes a text between double quotes so that each of its characters
can be seen: quotes and backslashes get a backslash, and characters without a
shape of their own are written by name or code point.
-/

namespace TemplateTags.Text

/-- Digits of a number in lower-case hexadecimal. -/
def hex (n : Nat) : Text := Nat.toDigits 16 n

/-- How a character is written between double quotes. -/
def quotedChar (c : Char) : Text :=
  match c with
  | '"' => ['\\', '"']
  | '\\' => ['\\', '\\']
  | '\n' => ['\\', 'n']
  | '\r' => ['\\', 'r']
  | '\t' => ['\\', 't']
  | '\x00' => ['\\', '0']
  | c => if isHidden c then ['\\', 'u', '\x7b'] ++ hex c.toNat ++ ['\x7d'] else [c]

/-- The text between double quotes. -/
def quoted (text : Text) : Text := ['"'] ++ text.flatMap quotedChar ++ ['"']

end TemplateTags.Text
