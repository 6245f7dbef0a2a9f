import TemplateTags.Text.Basic
/-!
# Numbers in texts
-/

namespace TemplateTags.Text

/-- The greatest offset that can be written. -/
def maxNumber : Nat := Nat.pow 2 64 - 1

/-- The number that decimal digits write. -/
def ofDigits (digits : Text) : Nat :=
  digits.foldl (fun acc c => 10 * acc + (c.toNat - '0'.toNat)) 0

/-- A number in decimal digits, perhaps behind a plus sign, that is not above a
limit. -/
def toNat? (limit : Nat) (text : Text) : Option Nat :=
  let digits := if text.head? = some '+' then text.drop 1 else text
  if digits.isEmpty || !digits.all Char.isDigit || limit < ofDigits digits then none
  else some (ofDigits digits)

end TemplateTags.Text
