import TemplateTags.Text.Basic
import TemplateTags.Text.CaseTable
/-!
# Lower case

`Text.lowerCase` replaces every letter by its lower-case letter. Two letters are
not replaced one by one: a dotted capital I keeps its dot as a mark, and a capital
sigma takes its final form at the end of a word, which is where a letter stands
before it and none after it.
-/

namespace TemplateTags.Text

/-- The lower-case code point that the first matching run gives. -/
def lowerCode : List CaseRun → Nat → Nat
  | [], code => code
  | run :: rest, code =>
    if code < run.first then code
    else if code ≤ run.last then
      if (code - run.first) % run.step = 0 then (code + run.distance).toNat
      else lowerCode rest code
    else lowerCode rest code

/-- The lower-case letter of a character, or the character itself. -/
def lowerChar (c : Char) : Char := Char.ofNat (lowerCode lowerRuns c.toNat)

/-- Whether the next character that counts has case. -/
def meetsCased : Text → Bool
  | [] => false
  | c :: rest =>
    if caseIgnorableRanges.contains c.toNat then meetsCased rest
    else casedRanges.contains c.toNat

/-- The lower-case form of a character that stands between two texts, the one
before it reversed. -/
def lowerIn (before : Text) (c : Char) (behind : Text) : Text :=
  if c = '\u03a3' then
    [if meetsCased before && !meetsCased behind then '\u03c2' else '\u03c3']
  else if c = '\u0130' then ['i', '\u0307']
  else [lowerChar c]

/-- The lower-case form of a text that goes on from another one, given in reverse. -/
def lowerFrom (before : Text) : Text → Text
  | [] => []
  | c :: rest => lowerIn before c rest ++ lowerFrom (c :: before) rest

/-- The text with every letter in lower case. -/
def lowerCase (text : Text) : Text := lowerFrom [] text

end TemplateTags.Text
