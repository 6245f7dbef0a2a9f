import TemplateTags.Toml.Scalar
import TemplateTags.Toml.Draft
import TemplateTags.Toml.Reserved
/-!
# Reading TOML documents

`Toml.read?` reads a document into the entries of its root table. Values may be
nested and keys dotted to a fixed depth.
-/

namespace TemplateTags.Toml

/-- How deeply values may be nested, and how many parts a dotted key may have. -/
def maxDepth : Nat := 79

/-! ## Keys -/

def isBareKeyChar (c : Char) : Bool := c.isAlphanum || c == '_' || c == '-'

/-- One part of a dotted key. -/
def keyPart? (text : Text) : Option (Text × Text) :=
  match text with
  | '"' :: _ => lineString? text
  | '\'' :: _ => lineString? text
  | _ =>
    let bare := text.takeWhile isBareKeyChar
    if bare.isEmpty then none else some (bare, text.dropWhile isBareKeyChar)

/-- The parts of a dotted key with the blanks around each. The fuel
bounds their number. -/
def keyParts? : Nat → Text → Option (List Text × Text)
  | 0, _ => none
  | fuel + 1, text => do
    let part ← keyPart? (skipBlank text)
    match skipBlank part.2 with
    | '.' :: rest =>
      let others ← keyParts? fuel rest
      return (part.1 :: others.1, others.2)
    | rest => return ([part.1], rest)

/-- A dotted key: its first part, and the others. -/
def key? (text : Text) : Option ((Text × List Text) × Text) :=
  match keyParts? maxDepth text with
  | some (first :: others, rest) => some ((first, others), rest)
  | _ => none

/-- A dotted key and the sign behind it. -/
def keySign? (text : Text) : Option ((Text × List Text) × Text) :=
  match key? text with
  | some (key, '=' :: rest) => some (key, skipBlank rest)
  | _ => none

/-! ## Values -/

mutual
/-- A value. The fuel bounds the length of the text, the depth what may still be
nested. -/
def value? : Nat → Nat → Text → Option (Value × Text)
  | 0, _, _ => none
  | fuel + 1, depth, text =>
    match text with
    | '"' :: _ => (string? text).map fun s => (.text s.1, s.2)
    | '\'' :: _ => (string? text).map fun s => (.text s.1, s.2)
    | '[' :: rest =>
      if depth = 0 then none else (items? fuel (depth - 1) rest).map fun a =>
        (.array a.1, a.2)
    | '{' :: rest =>
      if depth = 0 then none
      else
        (fields? fuel (depth - 1) true ⟨.header, []⟩ rest).map fun t =>
          (.table (Section.finishAll t.1.entries), t.2)
    | 't' :: 'r' :: 'u' :: 'e' :: rest => some (.boolean true, rest)
    | 'f' :: 'a' :: 'l' :: 's' :: 'e' :: rest => some (.boolean false, rest)
    | _ => numeric? text

/-- The items of an array up to its closing bracket. -/
def items? : Nat → Nat → Text → Option (List Value × Text)
  | 0, _, _ => none
  | fuel + 1, depth, text =>
    match skipLines false text with
    | ']' :: rest => some ([], rest)
    | text => do
      let item ← value? fuel depth text
      match skipLines false item.2 with
      | ',' :: rest =>
        let others ← items? fuel depth rest
        return (item.1 :: others.1, others.2)
      | ']' :: rest => return ([item.1], rest)
      | _ => none

/-- The fields of a table on one line up to its closing brace, added to those
before. A comma has to be followed by another field. -/
def fields? : Nat → Nat → Bool → Section → Text → Option (Section × Text)
  | 0, _, _, _, _ => none
  | fuel + 1, depth, mayClose, table, text =>
    match mayClose, skipBlank text with
    | true, '}' :: rest => some (table, rest)
    | _, text => do
      let key ← keySign? text
      let value ← value? fuel depth key.2
      let table ← table.put? key.1.1 key.1.2 value.1
      match skipBlank value.2 with
      | ',' :: rest => fields? fuel depth false table rest
      | '}' :: rest => return (table, rest)
      | _ => none
end

/-! ## Lines -/

/-- A header of its key. -/
def headerOf (isArray : Bool) (first : Text) (others : List Text) : Header :=
  let key := Section.splitKey first others
  ⟨key.1, key.2, isArray⟩

/-- The header of a section, behind its opening brackets. -/
def header? (isArray : Bool) (text : Text) : Option (Header × Text) := do
  let key ← key? text
  let header := headerOf isArray key.1.1 key.1.2
  match isArray, key.2 with
  | true, ']' :: ']' :: rest => return (header, ← restOfLine? rest)
  | false, ']' :: rest => return (header, ← restOfLine? rest)
  | _, _ => none

/-- A line with a key and its value. -/
def field? (d : Draft) (text : Text) : Option (Draft × Text) := do
  let key ← keySign? text
  let value ← value? (2 * key.2.length + 2) maxDepth key.2
  let rest ← restOfLine? value.2
  let d ← d.put? key.1.1 key.1.2 value.1
  return (d, rest)

/-- One line of the document. -/
def line? (d : Draft) (text : Text) : Option (Draft × Text) :=
  match text with
  | '#' :: _ => (restOfLine? text).map fun rest => (d, rest)
  | '[' :: '[' :: rest => do
    let header ← header? true rest
    return (← d.open? header.1, header.2)
  | '[' :: rest => do
    let header ← header? false rest
    return (← d.open? header.1, header.2)
  | _ =>
    match newline? text with
    | some rest => some (d, rest)
    | none => field? d text

/-- The lines of a document. The fuel bounds their number. -/
def lines? : Nat → Draft → Text → Option Draft
  | 0, _, _ => none
  | fuel + 1, d, text =>
    match skipBlank text with
    | [] => some d
    | text => (line? d text).bind fun next => lines? fuel next.1 next.2

/-- The text without a byte order mark in front. -/
def dropMark : Text → Text
  | '\ufeff' :: rest => rest
  | text => text

/-- The entries of a document's root table. A byte order mark may stand in front
of it. -/
def read? (text : Text) : Option (List (Text × Value)) :=
  let text := dropMark text
  ((lines? (text.length + 1) .empty text).bind Draft.finish?).bind fun fields =>
    (Value.table fields).resolvedFields?

end TemplateTags.Toml
