import TemplateTags.Text.Blank
import TemplateTags.Toml.DatetimeText
import TemplateTags.Toml.Value
/-!
# Scalars in a TOML document

Readers for blanks, strings and numbers. A reader takes the text from its place
on and returns what it has read with the text behind it, or `none` if the
document is not valid there.
-/

namespace TemplateTags.Toml

/-! ## Blanks, line ends and comments -/

/-- Whether a character may stand in a comment or a string: no control
character but the tab. -/
def isPlain (c : Char) : Bool := c == '\t' || (' ' ≤ c && c ≠ '\x7f')

def skipBlank (text : Text) : Text := text.dropWhile isLineBlank

/-- The text behind a line feed, which may have a carriage return in front. -/
def newline? : Text → Option Text
  | '\n' :: rest => some rest
  | '\r' :: '\n' :: rest => some rest
  | _ => none

/-- The text behind the end of a line. The document's end ends the last one. -/
def lineEnd? (text : Text) : Option Text :=
  if text.isEmpty then some [] else newline? text

/-- The text behind the end of a line on which only blanks and a
comment may still stand. -/
def restOfLine? (text : Text) : Option Text :=
  match skipBlank text with
  | '#' :: comment => lineEnd? (comment.dropWhile isPlain)
  | text => lineEnd? text

/-- Skip blanks, line ends and comments. A comment that no line end follows
leaves what stops it. -/
def skipLines : Bool → Text → Text
  | _, [] => []
  | _, '\n' :: rest => skipLines false rest
  | _, '\r' :: '\n' :: rest => skipLines false rest
  | inComment, c :: rest =>
    if inComment then if isPlain c then skipLines true rest else c :: rest
    else if isLineBlank c then skipLines false rest
    else if c = '#' then skipLines true rest
    else c :: rest

/-! ## Strings -/

/-- The value of a hexadecimal digit. -/
def hexValue? (c : Char) : Option Nat :=
  if c.isDigit then some (c.toNat - '0'.toNat)
  else if 'a' ≤ c && c ≤ 'f' then some (c.toNat - 'a'.toNat + 10)
  else if 'A' ≤ c && c ≤ 'F' then some (c.toNat - 'A'.toNat + 10)
  else none

/-- The character of a code point in a fixed number of hexadecimal digits. -/
def codePoint? (digits : Nat) (text : Text) : Option (Char × Text) := do
  let values ← (text.take digits).mapM hexValue?
  let code := values.foldl (fun acc v => 16 * acc + v) 0
  if values.length = digits && code.isValidChar then
    some (Char.ofNat code, text.drop digits)
  else none

/-- The character that is written behind a backslash. -/
def escape? : Text → Option (Char × Text)
  | 'b' :: rest => some ('\x08', rest)
  | 't' :: rest => some ('\t', rest)
  | 'n' :: rest => some ('\n', rest)
  | 'f' :: rest => some ('\x0c', rest)
  | 'r' :: rest => some ('\r', rest)
  | '"' :: rest => some ('"', rest)
  | '\\' :: rest => some ('\\', rest)
  | 'u' :: rest => codePoint? 4 rest
  | 'U' :: rest => codePoint? 8 rest
  | _ => none

/-- Put a text in front of what a reader has read. -/
def prepend (text : Text) (read : Option (Text × Text)) : Option (Text × Text) :=
  read.map fun r => (text ++ r.1, r.2)

/-- The rest of a string between double quotes. The fuel bounds its length. -/
def basicBody? : Nat → Text → Option (Text × Text)
  | 0, _ => none
  | _ + 1, [] => none
  | _ + 1, '"' :: rest => some ([], rest)
  | fuel + 1, '\\' :: rest =>
    (escape? rest).bind fun e => prepend [e.1] (basicBody? fuel e.2)
  | fuel + 1, c :: rest =>
    if isPlain c then prepend [c] (basicBody? fuel rest) else none

/-- The rest of a string between single quotes, in which nothing is escaped. -/
def literalBody? : Text → Option (Text × Text)
  | [] => none
  | '\'' :: rest => some ([], rest)
  | c :: rest => if isPlain c then prepend [c] (literalBody? rest) else none

/-- A string ends at three quotes, but up to two more right behind them
still belong to it. -/
def closingQuotes (quote : Char) : Text → Text × Text
  | a :: b :: rest =>
    if a = quote then if b = quote then ([a, b], rest) else ([a], b :: rest)
    else ([], a :: b :: rest)
  | [a] => if a = quote then ([a], []) else ([], [a])
  | [] => ([], [])

/-- The text behind a backslash that ends a line, without the blank lines and
blanks that follow. -/
def foldedLine? (text : Text) : Option Text :=
  (newline? (skipBlank text)).map fun rest =>
    let rec skip : Text → Text
      | [] => []
      | '\r' :: '\n' :: rest => skip rest
      | c :: rest => if c = '\n' || isLineBlank c then skip rest else c :: rest
    skip rest

/-- The rest of a string between three double quotes. A line end in it
is one line feed. -/
def multilineBody? : Nat → Text → Option (Text × Text)
  | 0, _ => none
  | _ + 1, [] => none
  | _ + 1, '"' :: '"' :: '"' :: rest => some (closingQuotes '"' rest)
  | fuel + 1, '\\' :: rest =>
    match foldedLine? rest with
    | some rest => multilineBody? fuel rest
    | none => (escape? rest).bind fun e => prepend [e.1] (multilineBody? fuel e.2)
  | fuel + 1, c :: rest =>
    match newline? (c :: rest) with
    | some rest => prepend ['\n'] (multilineBody? fuel rest)
    | none => if isPlain c then prepend [c] (multilineBody? fuel rest) else none

/-- The rest of a string between three single quotes. -/
def multilineLiteralBody? : Nat → Text → Option (Text × Text)
  | 0, _ => none
  | _ + 1, [] => none
  | _ + 1, '\'' :: '\'' :: '\'' :: rest => some (closingQuotes '\'' rest)
  | fuel + 1, c :: rest =>
    match newline? (c :: rest) with
    | some rest => prepend ['\n'] (multilineLiteralBody? fuel rest)
    | none =>
      if isPlain c then prepend [c] (multilineLiteralBody? fuel rest) else none

/-- A line end right behind the opening quotes is no part of a string. -/
def skipFirstNewline (text : Text) : Text := (newline? text).getD text

/-- A string on one line. -/
def lineString? : Text → Option (Text × Text)
  | '"' :: rest => basicBody? (rest.length + 1) rest
  | '\'' :: rest => literalBody? rest
  | _ => none

/-- A string of any kind. -/
def string? : Text → Option (Text × Text)
  | '"' :: '"' :: '"' :: rest =>
    multilineBody? (rest.length + 1) (skipFirstNewline rest)
  | '\'' :: '\'' :: '\'' :: rest =>
    multilineLiteralBody? (rest.length + 1) (skipFirstNewline rest)
  | text => lineString? text

/-! ## Numbers -/

/-- The digits from a place on; single underscores may stand between two of them. -/
def digitRun? (isDigit : Char → Bool) : Text → Option (Text × Text)
  | [] => none
  | '_' :: _ => none
  | c :: '_' :: rest =>
    if isDigit c then prepend [c] (digitRun? isDigit rest) else none
  | c :: rest =>
    if !isDigit c then none
    else
      match rest with
      | d :: _ =>
        if isDigit d then prepend [c] (digitRun? isDigit rest) else some ([c], rest)
      | [] => some ([c], [])

/-- The number that digits write to a base. -/
def ofDigits (base : Nat) (digits : Text) : Nat :=
  digits.foldl (fun acc c => base * acc + (hexValue? c).getD 0) 0

def minInteger : Int := -Nat.pow 2 63

def maxInteger : Int := Nat.pow 2 63 - 1

/-- An integer in range. -/
def integer? (n : Int) : Option Value :=
  if minInteger ≤ n && n ≤ maxInteger then some (.integer n) else none

/-- An integer to another base, behind its base sign. -/
def radix? (base : Nat) (text : Text) : Option (Value × Text) := do
  let isDigit := fun c => match hexValue? c with
    | some v => decide (v < base)
    | none => false
  let run ← digitRun? isDigit text
  return (← integer? (ofDigits base run.1), run.2)

/-- A sign, if there is one, and whether it is negative. -/
def sign : Text → Bool × Text
  | '+' :: rest => (false, rest)
  | '-' :: rest => (true, rest)
  | text => (false, text)

/-- The whole part of a number: a zero alone or digits that do not begin with one. -/
def wholePart? : Text → Option (Text × Text)
  | '0' :: rest => some (['0'], rest)
  | text => digitRun? Char.isDigit text

/-- A fraction, if there is one. -/
def fraction? : Text → Option (Text × Text)
  | '.' :: rest => digitRun? Char.isDigit rest
  | text => some ([], text)

/-- An exponent, if there is one. -/
def exponent? : Text → Option (Option Int × Text)
  | c :: rest =>
    if c = 'e' || c = 'E' then
      let signed := sign rest
      (digitRun? Char.isDigit signed.2).map fun run =>
        let n : Int := ofDigits 10 run.1
        (some (if signed.1 then -n else n), run.2)
    else some (none, c :: rest)
  | [] => some (none, [])

/-- A decimal number. One with a fraction or an exponent is a floating-point
number, which must not be too large. -/
def decimal? (text : Text) : Option (Value × Text) := do
  let signed := sign text
  let whole ← wholePart? signed.2
  let fraction ← fraction? whole.2
  let exponent ← exponent? fraction.2
  if fraction.1.isEmpty && exponent.1.isNone then
    let n : Int := ofDigits 10 whole.1
    return (← integer? (if signed.1 then -n else n), whole.2)
  else
    let x := Binary64.ofDecimal signed.1 (ofDigits 10 (whole.1 ++ fraction.1))
      (exponent.1.getD 0 - fraction.1.length)
    if x = .infinite false then none else return (.float x, exponent.2)

/-- A number of any kind. -/
def number? (text : Text) : Option (Value × Text) :=
  match text with
  | '0' :: 'x' :: rest => radix? 16 rest
  | '0' :: 'o' :: rest => radix? 8 rest
  | '0' :: 'b' :: rest => radix? 2 rest
  | _ =>
    let signed := sign text
    match signed.2 with
    | 'i' :: 'n' :: 'f' :: rest => some (.float (.infinite signed.1), rest)
    | 'n' :: 'a' :: 'n' :: rest => some (.float .nan, rest)
    | _ => decimal? text

/-- A datetime or a number, as the first characters tell. -/
def numeric? (text : Text) : Option (Value × Text) :=
  if startsDate text then (dateOrBoth? text).map fun d => (.datetime d.1, d.2)
  else if startsTime text then (time? .ofDocument text).map fun t =>
    (.datetime (.time t.1), t.2)
  else number? text

end TemplateTags.Toml
