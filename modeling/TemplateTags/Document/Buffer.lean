import TemplateTags.Document.Edit
/-!
# Buffers

A buffer is a text with selections in it. `Buffer.withSelections` checks them;
edits leave them as they are. `Text.line` is the line around an offset, and
`Text.region` the whole lines that a span touches.
-/

namespace TemplateTags

/-- Whole lines of a text without the last line's end, and where they stand. -/
structure Region where
  span : Span
  text : Text
deriving DecidableEq, Repr

namespace Text

/-- The text behind its last line feed. -/
def lastLine (text : Text) : Text := (text.reverse.takeWhile (· ≠ '\n')).reverse

/-- The text before its first line feed. -/
def firstLine (text : Text) : Text := text.takeWhile (· ≠ '\n')

/-- The text without a carriage return at its end. -/
def dropReturn (text : Text) : Text :=
  if text.getLast? = some '\r' then text.dropLast else text

/-- The line around an offset. An offset inside a character counts as the place
before it, one past the end as the end. The line feed that ends a line belongs to
it but, like a carriage return at the end, is not part of the result. -/
def line (text : Text) (offset : Nat) : Region :=
  let cut := text.splitFloor offset
  let head := lastLine cut.1
  let content := dropReturn (head ++ firstLine cut.2)
  let start := size cut.1 - size head
  ⟨⟨start, start + size content⟩, content⟩

/-- The piece of the text that a span covers; a span with an end that is no
cut covers nothing. -/
def slice (text : Text) (span : Span) : Text := (text.slice? span).getD []

/-- The whole lines that a span touches. -/
def region (text : Text) (span : Span) : Region :=
  let start := (text.line span.start).span.start
  let stop := max (text.line span.stop).span.stop start
  ⟨⟨start, stop⟩, text.slice ⟨start, stop⟩⟩

end Text

/-- A text and the selections in it. -/
structure Buffer where
  text : Text
  selections : List Span
deriving DecidableEq, Repr

namespace Buffer

/-- A text without selections. -/
def ofText (text : Text) : Buffer := ⟨text, []⟩

/-- Put the ends of a selection in order and check that both are cuts of the text. -/
def checkSelection (text : Text) (s : Span) : Except EditError Span := do
  let _ ← text.cut s.ordered.start
  let _ ← text.cut s.ordered.stop
  return s.ordered

/-- The buffer with other selections, each with its ends in order; the first that
is not in the text is the error. -/
def withSelections (b : Buffer) (selections : List Span) : Except EditError Buffer :=
  (selections.mapM (checkSelection b.text)).map fun checked =>
    { b with selections := checked }

/-- Apply edits to the text. -/
def applyEdits (b : Buffer) (edits : List Edit) : Buffer × Option EditError :=
  let applied := Edit.applyAll edits b.text
  ({ b with text := applied.1 }, applied.2)

end Buffer

end TemplateTags
