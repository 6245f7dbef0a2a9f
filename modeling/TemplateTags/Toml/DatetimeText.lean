import TemplateTags.Text.Number
import TemplateTags.Toml.Datetime
/-!
# Reading datetimes

A datetime stands by itself in a document, where `datetime?` reads it, or it is
the whole of a text, which `Datetime.ofText?` reads. The latter takes more: it
knows the end of a day as an hour of its own, offsets with any two digits for the
minutes, and an offset right behind a date.
-/

namespace TemplateTags.Toml

/-- Which hours and offsets are taken. -/
structure ClockRules where
  maxHour : Nat
  /-- whether so many hours and minutes are an offset -/
  isOffset : Nat → Nat → Bool

/-- The rules in a document. -/
def ClockRules.ofDocument : ClockRules :=
  ⟨23, fun hours minutes => hours ≤ 23 && minutes ≤ 59⟩

/-- The rules in a text of its own. -/
def ClockRules.ofText : ClockRules :=
  ⟨24, fun hours minutes => 60 * hours + minutes ≤ 24 * 60⟩

/-- A number of a fixed count of digits. -/
def fixedDigits? (count : Nat) (text : Text) : Option (Nat × Text) :=
  let digits := text.take count
  if digits.length = count && digits.all Char.isDigit then
    some (Text.ofDigits digits, text.drop count)
  else none

/-- A number of two digits behind a separator. -/
def behind? (separator : Char) : Text → Option (Nat × Text)
  | [] => none
  | c :: rest => if c = separator then fixedDigits? 2 rest else none

def date? (text : Text) : Option (Date × Text) := do
  let year ← fixedDigits? 4 text
  let month ← behind? '-' year.2
  let day ← behind? '-' month.2
  let date : Date := ⟨year.1, month.1, day.1⟩
  if date.isValid then some (date, day.2) else none

/-- A fraction of a second, cut off behind the nanoseconds. -/
def nanosecond? : Text → Option (Nat × Text)
  | '.' :: rest =>
    let digits := rest.takeWhile Char.isDigit
    if digits.isEmpty then none
    else some (Text.ofDigits ((digits ++ List.replicate 9 '0').take 9),
      rest.dropWhile Char.isDigit)
  | text => some (0, text)

def time? (rules : ClockRules) (text : Text) : Option (Time × Text) := do
  let hour ← fixedDigits? 2 text
  let minute ← behind? ':' hour.2
  let second ← behind? ':' minute.2
  let nanosecond ← nanosecond? second.2
  let time : Time := ⟨hour.1, minute.1, second.1, nanosecond.1⟩
  if time.isValid rules.maxHour then some (time, nanosecond.2) else none

/-- An offset from universal time, if there is one. -/
def offset? (rules : ClockRules) (text : Text) : Option (Option Offset × Text) :=
  match text with
  | 'Z' :: rest => some (some .zulu, rest)
  | 'z' :: rest => some (some .zulu, rest)
  | c :: rest =>
    if c = '+' || c = '-' then do
      let hours ← fixedDigits? 2 rest
      let minutes ← behind? ':' hours.2
      let size : Int := 60 * hours.1 + minutes.1
      if rules.isOffset hours.1 minutes.1 then
        some (some (.minutes (if c = '-' then -size else size)), minutes.2)
      else none
    else some (none, text)
  | [] => some (none, [])

/-- Whether a character stands between a date and a time. -/
def isTimeSign (c : Char) : Bool := c = 'T' || c = 't' || c = ' '

/-! ## In a document -/

/-- Whether a date begins here: no number has four digits and a hyphen. -/
def startsDate : Text → Bool
  | a :: b :: c :: d :: '-' :: _ => [a, b, c, d].all Char.isDigit
  | _ => false

/-- Whether a time begins here: no number has two digits and a colon. -/
def startsTime : Text → Bool
  | a :: b :: ':' :: _ => a.isDigit && b.isDigit
  | _ => false

/-- A date, with the time that may follow it. -/
def dateOrBoth? (text : Text) : Option (Datetime × Text) := do
  let date ← date? text
  match date.2 with
  | c :: rest =>
    if isTimeSign c && startsTime rest then
      let time ← time? .ofDocument rest
      let offset ← offset? .ofDocument time.2
      return (.both date.1 time.1 offset.1, offset.2)
    else return (.date date.1 none, date.2)
  | [] => return (.date date.1 none, [])

/-! ## In a text of its own -/

/-- What a datetime has read, if nothing is left. -/
def wholeText? {α : Type} (read : α × Text) : Option α :=
  if read.2.isEmpty then some read.1 else none

/-- A date, with the time and the offset that may follow it, up to the end of the
text. -/
def dateToEnd? (text : Text) : Option Datetime := do
  let date ← date? text
  match date.2 with
  | c :: rest =>
    if isTimeSign c then
      let time ← time? .ofText rest
      let offset ← wholeText? (← offset? .ofText time.2)
      return .both date.1 time.1 offset
    else
      let offset ← wholeText? (← offset? .ofText date.2)
      return .date date.1 offset
  | [] => return .date date.1 none

/-- The datetime that a text writes. A time of day is told by its first colon. -/
def Datetime.ofText? (text : Text) : Option Datetime :=
  if text[2]? = some ':' then do
    let time ← wholeText? (← time? .ofText text)
    return .time time
  else dateToEnd? text

end TemplateTags.Toml
