import TemplateTags.Cycle.Surroundings
/-!
# Editing the tag of one selection

A selection inside a tag gets the tag's next variant (`TagEdit.cycling`), any
other selection a new tag around it (`TagEdit.inserting`). `Action.choose` tells
which of the two it is.
-/

namespace TemplateTags

/-- What is done for one selection. -/
inductive Action where
  /-- put a tag around the selection -/
  | insert
  /-- replace these delimiters by those of the next variant -/
  | cycle (opener closer : Block)
deriving DecidableEq, Repr

/-- The action for a selection of a text: the delimiters are looked for
in its own lines. -/
def Action.choose (d : Dialect) (text : Text) (selection : Span) : Action :=
  match (Surroundings.find d (text.region selection) selection).pair? with
  | some (opener, closer) => .cycle opener closer
  | none => .insert

/-- The edits of both delimiters of a tag, and the selection that they were made
for. -/
structure TagEdit where
  opener : Edit
  closer : Edit
  origin : Span
deriving DecidableEq, Repr

namespace TagEdit

/-- Put the insert variant around a selection, with a space inside of each
delimiter. -/
def inserting (d : Dialect) (selection : Span) : TagEdit :=
  ⟨.insertion selection.start (d.insertVariant.opener ++ [' ']) .opener,
    .insertion selection.stop (' ' :: d.insertVariant.closer) .closer, selection⟩

/-- Replace two delimiters by those of the variant after them. -/
def cycling (d : Dialect) (opener closer : Block) (selection : Span) : TagEdit :=
  let next := d.next opener.text closer.text
  ⟨⟨opener.span, next.opener, .opener⟩,
    ⟨closer.span, next.closer, .closer⟩, selection⟩

/-- The edits of an action. -/
def ofAction (d : Dialect) (selection : Span) : Action → TagEdit
  | .insert => inserting d selection
  | .cycle opener closer => cycling d opener closer selection

/-- The edits for a selection of a text. -/
def ofSelection (d : Dialect) (text : Text) (selection : Span) : TagEdit :=
  ofAction d selection (Action.choose d text selection)

/-- Both edits, in the order in which they can be applied one by one. -/
def edits (t : TagEdit) : List Edit := [t.closer, t.opener]

/-- The selection after both edits: the opener's change moves it. -/
def selection (t : TagEdit) : Span := t.origin.shift t.opener.delta

/-- The highest offset a machine word holds. -/
def maxOffset : Nat := Edit.wordModulus - 1

/-- `selection` in the arithmetic of machine words: the change wraps around, and
an offset stops at the highest one. -/
def wordSelection (t : TagEdit) : Span :=
  let moved := t.origin.shift t.opener.wordDelta
  ⟨min moved.start maxOffset, min moved.stop maxOffset⟩

end TagEdit

end TemplateTags
