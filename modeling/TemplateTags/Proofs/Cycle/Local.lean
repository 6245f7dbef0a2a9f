import TemplateTags.Proofs.Cycle.Planned
/-!
# Edits depend on the selection's own lines

A block of whole lines is a part of a text in front of which a line has ended and
behind which one ends. Lines, regions and delimiters are looked up in the text as
in the block alone (`Text.line_block`, `Text.region_block`,
`Surroundings.find_moveRight`), so the edits for a selection in the block are
those that it has in the block alone, as far to the right as the block stands
(`TagEdit.ofSelection_block`).
-/

namespace TemplateTags

open Text

/-! ## Things further right -/

/-- The region `offset` bytes further right. -/
def Region.moveRight (r : Region) (offset : Nat) : Region :=
  { r with span := r.span.moveRight offset }

/-- Both delimiters `offset` bytes further right. -/
def Surroundings.moveRight (f : Surroundings) (offset : Nat) : Surroundings :=
  ⟨f.opener.map (·.moveRight offset), f.closer.map (·.moveRight offset)⟩

/-- The edits `offset` bytes further right, for the selection there. -/
def TagEdit.moveRight (t : TagEdit) (offset : Nat) : TagEdit :=
  ⟨t.opener.moveRight offset, t.closer.moveRight offset, t.origin.moveRight offset⟩

theorem Block.moveRight_moveRight (b : Block) (first second : Nat) :
    (b.moveRight first).moveRight second = b.moveRight (first + second) := by
  simp only [Block.moveRight, Span.moveRight, Nat.add_assoc]

/-! ## Lines of a block -/

namespace Text

theorem firstLine_append_right {behind : Text} (h : firstLine behind = [])
    (text : Text) :
    firstLine (text ++ behind) = firstLine text := by
  induction text with
  | nil => exact h
  | cons c text ih =>
    unfold firstLine at ih ⊢
    rw [List.cons_append, List.takeWhile_cons, List.takeWhile_cons, ih]

theorem lastLine_append_left {before : Text} (h : lastLine before = [])
    (text : Text) :
    lastLine (before ++ text) = lastLine text := by
  have hfirst : firstLine before.reverse = [] := List.reverse_eq_nil_iff.1 h
  show (firstLine (before ++ text).reverse).reverse =
      (firstLine text.reverse).reverse
  rw [List.reverse_append, firstLine_append_right hfirst]

theorem firstLine_eq_nil_iff {t : Text} :
    firstLine t = [] ↔ t = [] ∨ t.head? = some '\n' := by
  cases t with
  | nil => simp [firstLine]
  | cons c t => by_cases hc : c = '\n' <;> simp [firstLine, hc]

theorem lastLine_eq_nil_iff {t : Text} :
    lastLine t = [] ↔ t = [] ∨ t.getLast? = some '\n' := by
  show (firstLine t.reverse).reverse = [] ↔ _
  rw [List.reverse_eq_nil_iff, firstLine_eq_nil_iff, List.reverse_eq_nil_iff,
    List.head?_reverse]

variable {before lines behind : Text}

/-- The line around a cut of a block is looked up in the block. -/
theorem line_block (hbefore : lastLine before = [])
    (hbehind : firstLine behind = []) {offset : Nat} (h : lines.IsCut offset) :
    (before ++ lines ++ behind).line (offset + before.size) =
      (lines.line offset).moveRight before.size := by
  obtain ⟨head, foot, rfl, rfl⟩ := h
  have hle := size_lastLine_le head
  have hsplit : before ++ (head ++ foot) ++ behind = (before ++ head)
      ++ (foot ++ behind) := by simp
  rw [hsplit, Nat.add_comm, ← size_append, line_append, line_append,
    lastLine_append_left hbefore, firstLine_append_right hbehind]
  simp only [Region.moveRight, Span.moveRight, size_append, Region.mk.injEq,
    Span.mk.injEq, and_true]
  omega

/-- What a span covers in a block it covers in the text. -/
theorem slice?_block (before behind : Text) {s : Span} {piece : Text}
    (h : lines.slice? s = some piece) :
    (before ++ lines ++ behind).slice? (s.moveRight before.size) = some piece := by
  have hblock :
      lines.slice? (Block.mk s piece).span = some (Block.mk s piece).text := h
  exact Block.slice?_moveRight rfl hblock

theorem hasSpan_block (before behind : Text) {s : Span} (h : lines.HasSpan s) :
    (before ++ lines ++ behind).HasSpan (s.moveRight before.size) := by
  obtain ⟨piece, hpiece⟩ := Option.isSome_iff_exists.1 (hasSpan_iff_isSome.1 h)
  rw [hasSpan_iff_isSome, slice?_block before behind hpiece]
  rfl

/-- The lines that a span of a block touches are lines of the block. -/
theorem region_block (hbefore : lastLine before = [])
    (hbehind : firstLine behind = []) {s : Span} (hs : lines.HasSpan s) :
    (before ++ lines ++ behind).region (s.moveRight before.size) =
      (lines.region s).moveRight before.size := by
  have hstart := line_block hbefore hbehind hs.start
  have hstop := line_block hbefore hbehind hs.stop
  have hslice := slice?_block before behind (slice?_region lines s)
  unfold region at hslice ⊢
  simp only [Span.moveRight, Region.moveRight, hstart, hstop,
    Nat.add_max_add_right] at hslice ⊢
  rw [slice, hslice]
  rfl

end Text

/-! ## Delimiters around a selection in a block -/

namespace Surroundings

theorem cutRegion?_moveRight (region : Region) (start offset : Nat) :
    cutRegion? (region.moveRight offset) (start + offset) =
      cutRegion? region start := by
  unfold cutRegion?
  simp only [Region.moveRight, Span.moveRight, Nat.add_lt_add_iff_right,
    Nat.add_sub_add_right]

theorem find_moveRight (d : Dialect) (region : Region) (s : Span) (offset : Nat) :
    find d (region.moveRight offset) (s.moveRight offset) =
      (find d region s).moveRight offset := by
  have hstart : cutRegion? (region.moveRight offset) (s.moveRight offset).start =
      cutRegion? region s.start :=
    cutRegion?_moveRight region s.start offset
  have hstop : cutRegion? (region.moveRight offset) (s.moveRight offset).stop =
      cutRegion? region s.stop :=
    cutRegion?_moveRight region s.stop offset
  unfold find
  rw [hstart, hstop]
  split
  · simp only [moveRight, Option.map_map, Function.comp_def,
      Block.moveRight_moveRight]
    rfl
  · rfl

theorem pair?_moveRight (f : Surroundings) (offset : Nat) :
    (f.moveRight offset).pair? = f.pair?.map fun p =>
      (p.1.moveRight offset, p.2.moveRight offset) := by
  obtain ⟨opener, closer⟩ := f
  cases opener <;> cases closer <;> rfl

end Surroundings

namespace TagEdit

variable {before lines behind : Text}

/-- The text around a selection decides on its edits through the region alone. -/
theorem ofSelection_of_region (d : Dialect) {text text' : Text} {s : Span}
    {offset : Nat}
    (h : text'.region (s.moveRight offset) = (text.region s).moveRight offset) :
    ofSelection d text' (s.moveRight offset) =
      (ofSelection d text s).moveRight offset := by
  unfold ofSelection Action.choose
  rw [h, Surroundings.find_moveRight, Surroundings.pair?_moveRight]
  cases (Surroundings.find d (text.region s) s).pair? with
  | none => rfl
  | some pair => rfl

/-- The edits for a selection in a block of whole lines are those that it has
in the block alone. -/
theorem ofSelection_block (d : Dialect) (hbefore : lastLine before = [])
    (hbehind : firstLine behind = []) {s : Span} (hs : lines.HasSpan s) :
    ofSelection d (before ++ lines ++ behind) (s.moveRight before.size) =
      (ofSelection d lines s).moveRight before.size :=
  ofSelection_of_region d (region_block hbefore hbehind hs)

/-- A selection that an opener in front of it moves is moved alike further right. -/
theorem selection_moveRight {t : TagEdit}
    (hopener : t.opener.span.stop ≤ t.origin.start)
    (horigin : t.origin.start ≤ t.origin.stop) (offset : Nat) :
    (t.moveRight offset).selection = t.selection.moveRight offset := by
  simp only [selection, moveRight, Edit.delta_moveRight, Span.shift,
    Span.moveRight, Span.shiftOffset, Span.mk.injEq]
  unfold Edit.delta Span.length
  omega

end TagEdit

end TemplateTags
