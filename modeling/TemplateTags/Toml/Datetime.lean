import TemplateTags.Text.Basic
/-!
# Dates and times

A datetime has a date, a time of day or both. With a date it may have an offset
from universal time. `Datetime.render` is its one written form.
-/

namespace TemplateTags.Toml

/-- A day of the calendar. -/
structure Date where
  year : Nat
  month : Nat
  day : Nat
deriving DecidableEq, Repr

/-- A time of day, to the nanosecond. A leap second is the sixtieth. -/
structure Time where
  hour : Nat
  minute : Nat
  second : Nat
  nanosecond : Nat
deriving DecidableEq, Repr

/-- A difference from universal time. -/
inductive Offset where
  /-- universal time itself -/
  | zulu
  | minutes (count : Int)
deriving DecidableEq, Repr

inductive Datetime where
  | date (date : Date) (offset : Option Offset)
  | time (time : Time)
  | both (date : Date) (time : Time) (offset : Option Offset)
deriving DecidableEq, Repr

/-- A number in decimal with zeros in front up to a width. -/
def padded (width n : Nat) : Text :=
  let digits := Text.ofNat n
  List.replicate (width - digits.length) '0' ++ digits

def Date.isLeapYear (year : Nat) : Bool :=
  year % 4 == 0 && (year % 100 != 0 || year % 400 == 0)

/-- Number of days of a month. -/
def Date.daysIn (year month : Nat) : Nat :=
  if month = 2 then if isLeapYear year then 29 else 28
  else if month = 4 || month = 6 || month = 9 || month = 11 then 30
  else 31

/-- Whether the day is in the calendar. -/
def Date.isValid (d : Date) : Bool :=
  1 ≤ d.month && d.month ≤ 12 && 1 ≤ d.day && d.day ≤ daysIn d.year d.month

def Date.render (d : Date) : Text :=
  padded 4 d.year ++ ['-'] ++ padded 2 d.month ++ ['-'] ++ padded 2 d.day

/-- Whether a clock that goes up to an hour can show the time. -/
def Time.isValid (maxHour : Nat) (t : Time) : Bool :=
  t.hour ≤ maxHour && t.minute ≤ 59 && t.second ≤ 60

/-- The fraction of a second without zeros at its end. -/
def Time.renderFraction (nanosecond : Nat) : Text :=
  if nanosecond = 0 then []
  else '.' :: ((padded 9 nanosecond).reverse.dropWhile (· = '0')).reverse

def Time.render (t : Time) : Text :=
  padded 2 t.hour ++ [':'] ++ padded 2 t.minute ++ [':'] ++ padded 2 t.second
    ++ renderFraction t.nanosecond

def Offset.render : Offset → Text
  | zulu => ['Z']
  | minutes count =>
    let size := count.natAbs
    (if count < 0 then ['-'] else ['+']) ++ padded 2 (size / 60) ++
      [':'] ++ padded 2 (size % 60)

/-- An offset, if there is one. -/
def Datetime.renderOffset : Option Offset → Text
  | none => []
  | some offset => offset.render

def Datetime.render : Datetime → Text
  | date d offset => d.render ++ renderOffset offset
  | time t => t.render
  | both d t offset => d.render ++ ['T'] ++ t.render ++ renderOffset offset

end TemplateTags.Toml
