import TemplateTags.Text.Span
/-!
# Edits

An edit puts a text in the place of a span. `Edit.applyAll` applies several that
stand in the order of the document, the last one first, so that the places of
those still to come stay what they were.
-/

namespace TemplateTags

/-- The delimiter of a tag that an edit writes. -/
inductive Delimiter where
  /-- at or before the start of a selection -/
  | opener
  /-- at or behind the end of a selection -/
  | closer
deriving DecidableEq, Repr

/-- Put `text` in the place of `span`. An empty or reversed span is an
insertion at its start. -/
structure Edit where
  span : Span
  text : Text
  delimiter : Delimiter
deriving DecidableEq, Repr

/-- Why a text cannot be edited or selected in as asked. -/
inductive EditError where
  | outOfBounds (offset size : Nat)
  | insideCharacter (offset : Nat)
  | overlap (first second : Span)
  /-- the start of a span to replace lies behind its end -/
  | reversed (span : Span)
deriving DecidableEq, Repr

namespace EditError

/-- The cause in words. -/
def message : EditError → Text
  | outOfBounds offset size =>
    "offset ".toList ++ Text.ofNat offset
      ++ " is past the end of the buffer (".toList
      ++ Text.ofNat size ++ " bytes)".toList
  | insideCharacter offset =>
    "offset ".toList ++ Text.ofNat offset ++ " is not on a character boundary".toList
  | overlap first second =>
    "edits at ".toList ++ first.render ++ " and ".toList ++ second.render
      ++ " overlap".toList
  | reversed span => "range ".toList ++ span.render ++ " is reversed".toList

end EditError

/-- Cut a text at an offset, or say why that is no place to cut. -/
def Text.cut (text : Text) (offset : Nat) : Except EditError (Text × Text) :=
  match text.splitAt? offset with
  | some cut => .ok cut
  | none =>
    .error (if text.size < offset then .outOfBounds offset text.size else
      .insideCharacter offset)

/-- The text with `inserted` put in at an offset. -/
def Text.insertAt (text : Text) (offset : Nat) (inserted : Text) :
    Except EditError Text :=
  (text.cut offset).map fun cut => cut.1 ++ inserted ++ cut.2

/-- The text with `inserted` in the place of a span. -/
def Text.replaceSpan (text : Text) (span : Span) (inserted : Text) :
    Except EditError Text := do
  let before ← text.cut span.start
  let behind ← text.cut span.stop
  if span.stop < span.start then .error (.reversed span)
  else return before.1 ++ inserted ++ behind.2

namespace Edit

/-- An edit that puts text in at an offset. -/
def insertion (offset : Nat) (text : Text) (delimiter : Delimiter) : Edit :=
  ⟨.point offset, text, delimiter⟩

def isInsertion (e : Edit) : Bool := e.span.isEmpty

/-- Change of the text's length. -/
def delta (e : Edit) : Int := e.text.size - e.span.length

/-- Width of a machine word in values. -/
def wordModulus : Nat := Nat.pow 2 64

/-- `delta` as a signed machine word, which wraps around for spans that no
text in memory has. -/
def wordDelta (e : Edit) : Int := e.delta.bmod wordModulus

/-- Apply one edit. -/
def applyTo (e : Edit) (text : Text) : Except EditError Text :=
  if e.isInsertion then text.insertAt e.span.start e.text
  else text.replaceSpan e.span e.text

/-- The first two neighbours of which the second starts before the first one's
end. -/
def overlap? : List Edit → Option (Span × Span)
  | [] => none
  | [_] => none
  | a :: b :: rest =>
    if b.span.start < a.span.stop then some (a.span, b.span)
    else overlap? (b :: rest)

/-- Apply edits from the last to the first. When one fails, those behind it
have been applied. -/
def applyBackward : List Edit → Text → Text × Option EditError
  | [], text => (text, none)
  | e :: rest, text =>
    match applyBackward rest text with
    | (text, some error) => (text, some error)
    | (text, none) =>
      match e.applyTo text with
      | .ok text => (text, none)
      | .error error => (text, some error)

/-- Apply edits in document order. Nothing is applied if two neighbours overlap. -/
def applyAll (edits : List Edit) (text : Text) : Text × Option EditError :=
  match overlap? edits with
  | some (first, second) => (text, some (.overlap first second))
  | none => applyBackward edits text

end Edit

end TemplateTags
