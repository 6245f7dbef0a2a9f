import TemplateTags.Cycle.TagEdit
/-!
# Plans

A plan is made for all selections of a text at once: the edits of all their tags
in document order, each once, and the selections as they are when the edits have
been applied. The edits are all found in the text as it is; `shiftThrough` follows
an offset through those that come before it.
-/

namespace TemplateTags

/-- The edits for several selections, and where the selections will be. -/
structure Plan where
  edits : List Edit
  selections : List Span
deriving DecidableEq, Repr

namespace Plan

/-- Order of edits: by start, then by end, so that insertions come before a
replacement that starts at the same place. -/
def precedes (a b : Edit) : Bool :=
  a.span.start < b.span.start ||
    (a.span.start == b.span.start && decide (a.span.stop ≤ b.span.stop))

/-- Order of selections: by start. -/
def startsBefore (a b : Span) : Bool := a.start ≤ b.start

/-- The edits for several selections in document order, each once.
Insertions at one place keep the order of their selections, and an opener
stays in front of its closer. -/
def editsFor (d : Dialect) (text : Text) (selections : List Span) : List Edit :=
  let tagEdits := (sortBy startsBefore selections).map (TagEdit.ofSelection d text)
  (sortBy precedes (tagEdits.flatMap fun t => [t.opener, t.closer])).eraseDups

/-- The change of length by those of some edits that end at or before an offset. -/
def deltaBefore (offset : Nat) : List Edit → Int
  | [] => 0
  | e :: rest =>
    (if e.span.stop ≤ offset then e.delta else 0) + deltaBefore offset rest

/-- Move an offset through those of some edits that end at or before it. -/
def shiftThrough (edits : List Edit) (offset : Nat) : Nat :=
  Span.shiftOffset offset (deltaBefore offset edits)

/-- Where a selection is after the edits: its start behind all edits up to its own
opener's, its end behind all edits before its own closer's. -/
def moveSelection (edits : List Edit) (own : TagEdit) : Span :=
  let upToOpener :=
    edits.takeWhile (· ≠ own.opener) ++ (edits.find? (· = own.opener)).toList
  let beforeCloser := edits.takeWhile (· ≠ own.closer)
  let start := shiftThrough upToOpener own.origin.start
  ⟨start, max (shiftThrough beforeCloser own.origin.stop) start⟩

/-- The plan for the selections of a text. -/
def make (d : Dialect) (text : Text) (selections : List Span) : Plan :=
  let edits := editsFor d text selections
  ⟨edits, selections.map fun s => moveSelection edits (TagEdit.ofSelection d text s)⟩

end Plan

end TemplateTags
