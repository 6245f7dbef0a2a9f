import TemplateTags.Proofs.Cycle.Following
import TemplateTags.Proofs.Cycle.Local
/-!
# A text in stretches

A text with several selections is laid out in stretches if it is made of blocks of
whole lines, with one selection in each, and of texts between the blocks
(`Stretch.Laid`). The action for a selection changes its own block only
(`Stretch.act`, `Stretch.rewrites_act`). What stands in front of a block decides
how far to the right it stands, and nothing else (`Stretch.ofSelection_placed`);
`Stretch.spread` lists what depends on a stretch and on the place of its block.
-/

namespace TemplateTags

open Text

/-- A block of whole lines with a selection in it, and the text between the block
in front and this one. -/
structure Stretch where
  front : Text
  lines : Text
  /-- the selection in the block -/
  selection : Span
  /-- the place of the selection in the list of selections -/
  index : Nat

namespace Stretch

def text (x : Stretch) : Text := x.front ++ x.lines

/-- The text of stretches one after another. -/
def written (xs : List Stretch) : Text := xs.flatMap text

/-- What depends on a stretch and on the place of its block, for each of several
stretches behind `offset`. -/
def spread {α : Type} (f : Nat → Stretch → α) (offset : Nat) : List Stretch → List α
  | [] => []
  | x :: xs => f (offset + x.front.size) x :: spread f (offset + x.text.size) xs

/-- A selection in the text with its place in the list of selections. -/
def placed (offset : Nat) (x : Stretch) : Span × Nat :=
  (x.selection.moveRight offset, x.index)

/-- A line ends where the text in front of the stretches does. -/
def Breaks (tail : Text) : List Stretch → Prop
  | [] => firstLine tail = []
  | x :: _ => x.front.head? = some '\n'

/-- Each block is made of whole lines of the text that the stretches make with
`tail` behind them, and holds its selection. -/
def Laid (tail : Text) : List Stretch → Prop
  | [] => True
  | x :: xs =>
    lastLine x.front = [] ∧ x.lines.HasSpan x.selection ∧
      Breaks tail xs ∧ Laid tail xs

@[simp] theorem written_nil : written [] = [] := rfl

@[simp] theorem written_cons (x : Stretch) (xs : List Stretch) :
    written (x :: xs) = x.text ++ written xs := rfl

@[simp] theorem written_append (xs ys : List Stretch) :
    written (xs ++ ys) = written xs ++ written ys :=
  List.flatMap_append

/-! ## Lists over stretches -/

section Spread

variable {α β : Type}

theorem spread_append (f : Nat → Stretch → α) (offset : Nat) (xs ys : List Stretch) :
    spread f offset (xs ++ ys) = spread f offset xs
      ++ spread f (offset + (written xs).size) ys := by
  induction xs generalizing offset with
  | nil => rfl
  | cons x xs ih =>
    simp only [List.cons_append, spread, ih, written_cons, size_append,
      Nat.add_assoc]

theorem map_spread (g : α → β) (f : Nat → Stretch → α) (offset : Nat)
    (xs : List Stretch) :
    (spread f offset xs).map g = spread
      (fun place x => g (f place x)) offset xs := by
  induction xs generalizing offset with
  | nil => rfl
  | cons x xs ih => simp only [spread, List.map_cons, ih]

theorem mem_spread_iff {f : Nat → Stretch → α} {offset : Nat} {xs : List Stretch}
    {a : α} :
    a ∈ spread f offset xs ↔
      ∃ front x behind, xs = front ++ x :: behind ∧
        a = f (offset + (written front ++ x.front).size) x := by
  induction xs generalizing offset with
  | nil => simp [spread]
  | cons x xs ih =>
    rw [spread, List.mem_cons, ih]
    constructor
    · intro h
      rcases h with h | ⟨front, y, behind, hxs, h⟩
      · exact ⟨[], x, xs, rfl, h⟩
      · refine ⟨x :: front, y, behind, by rw [hxs]; rfl, ?_⟩
        simpa only [written_cons, size_append, Nat.add_assoc] using h
    · intro ⟨front, y, behind, hxs, h⟩
      cases front with
      | nil =>
        obtain ⟨rfl, rfl⟩ := List.cons.inj hxs
        exact .inl h
      | cons z front =>
        obtain ⟨rfl, rfl⟩ := List.cons.inj hxs
        refine .inr ⟨front, y, behind, rfl, ?_⟩
        simpa only [written_cons, size_append, Nat.add_assoc] using h

theorem spread_const (f : Stretch → α) (offset : Nat) (xs : List Stretch) :
    spread (fun _ => f) offset xs = xs.map f := by
  induction xs generalizing offset with
  | nil => rfl
  | cons x xs ih => rw [spread, ih, List.map_cons]

/-- Two lists over stretches that have been changed agree if they do at each
place. -/
theorem spread_map_congr {f g : Nat → Stretch → α} {change : Stretch → Stretch}
    {offset offset' : Nat} {xs : List Stretch}
    (h : ∀ front x behind, xs = front ++ x :: behind →
      f (offset' + (written (front.map change) ++ (change x).front).size)
        (change x) = g (offset + (written front ++ x.front).size) x) :
    spread f offset' (xs.map change) = spread g offset xs := by
  induction xs generalizing offset offset' with
  | nil => rfl
  | cons x xs ih =>
    rw [List.map_cons, spread, spread]
    congr 1
    · exact h [] x xs rfl
    · apply ih
      intro front y behind hxs
      have := h (x :: front) y behind (by rw [hxs]; rfl)
      simpa only [List.map_cons, written_cons, size_append, Nat.add_assoc] using this

/-- Two lists over stretches agree if they do at each place. -/
theorem spread_congr {f g : Nat → Stretch → α} {offset offset' : Nat}
    {xs : List Stretch}
    (h : ∀ front x behind, xs = front ++ x :: behind →
      f (offset' + (written front ++ x.front).size) x = g
        (offset + (written front ++ x.front).size) x) :
    spread f offset' xs = spread g offset xs := by
  have hmap : spread f offset' (xs.map id) = spread g offset xs := by
    apply spread_map_congr
    intro front x behind hxs
    rw [List.map_id]
    exact h front x behind hxs
  rwa [List.map_id] at hmap

end Spread

/-! ## Whole lines -/

variable {tail : Text} {front behind xs : List Stretch} {x : Stretch}

/-- A line ends in front of each block but the first. -/
theorem Breaks.head?_eq (h : Breaks tail (front ++ x :: behind)) :
    (written front ++ x.front).head? = some '\n' := by
  cases front with
  | nil => exact h
  | cons y front =>
    have hy : y.front.head? = some '\n' := h
    simp [text, hy]

/-- So there is something between two blocks. -/
theorem Breaks.size_pos (h : Breaks tail (front ++ x :: behind)) :
    0 < (written front ++ x.front).size := by
  apply size_pos_iff.2
  intro hnil
  have hhead := h.head?_eq
  rw [hnil] at hhead
  cases hhead

theorem Breaks.firstLine_eq_nil (h : Breaks tail xs) :
    firstLine (written xs ++ tail) = [] := by
  rw [firstLine_eq_nil_iff]
  cases xs with
  | nil => exact firstLine_eq_nil_iff.1 h
  | cons y xs =>
    have hy : y.front.head? = some '\n' := h
    simp [text, hy]

/-- A laid out block is made of whole lines, whatever stands around it. -/
theorem Laid.block (h : Laid tail (front ++ x :: behind)) :
    lastLine (written front ++ x.front) = [] ∧ x.lines.HasSpan x.selection ∧
      firstLine (written behind ++ tail) = [] ∧ Breaks tail behind := by
  induction front with
  | nil =>
    obtain ⟨hfront, hspan, hbreaks, -⟩ := h
    exact ⟨hfront, hspan, hbreaks.firstLine_eq_nil, hbreaks⟩
  | cons y front ih =>
    obtain ⟨-, -, hbreaks, hlaid⟩ := h
    obtain ⟨hfront, hrest⟩ := ih hlaid
    refine ⟨?_, hrest⟩
    -- What stands behind the first stretch is not empty, so it ends
    -- with the end of a line.
    have hhead := hbreaks.head?_eq
    rw [lastLine_eq_nil_iff] at hfront ⊢
    rcases hfront with hnil | hlast
    · rw [hnil] at hhead
      cases hhead
    · right
      rw [written_cons, List.append_assoc, List.getLast?_append, hlast,
        Option.some_or]

/-! ## Actions -/

variable {d : Dialect}

/-- The edits for the selection of a stretch. -/
def own (d : Dialect) (x : Stretch) : TagEdit :=
  TagEdit.ofSelection d x.lines x.selection

/-- The edits of a stretch whose block stands at a place of the text. -/
def edits (d : Dialect) (place : Nat) (x : Stretch) : List Edit :=
  [(x.own d).opener.moveRight place, (x.own d).closer.moveRight place]

/-- The stretch after the action for its selection. -/
def act (d : Dialect) (x : Stretch) : Stretch :=
  { x with
    lines := (Edit.applyAll [(x.own d).opener, (x.own d).closer] x.lines).1
    selection := (x.own d).selection }

theorem placed_own (d : Dialect) (h : x.lines.HasSpan x.selection) :
    (x.own d).Placed x.lines :=
  TagEdit.placed_ofSelection d h

theorem origin_own (d : Dialect) (x : Stretch) : (x.own d).origin = x.selection :=
  TagEdit.origin_ofSelection d x.lines x.selection

theorem own_delimiter_ne (d : Dialect) (x : Stretch) :
    (x.own d).opener.delimiter ≠ (x.own d).closer.delimiter := by
  simp [own]

theorem own_ne (d : Dialect) (x : Stretch) : (x.own d).opener ≠ (x.own d).closer :=
  fun h => own_delimiter_ne d x (congrArg Edit.delimiter h)

/-- The action rewrites the block. -/
theorem rewrites_act (d : Dialect) (h : x.lines.HasSpan x.selection) :
    Edit.Rewrites 0 x.lines [(x.own d).opener, (x.own d).closer]
      (x.act d).lines := by
  have hplaced := placed_own d h
  have hopener := hplaced.opener_le
  have hcloser := hplaced.le_closer
  have hordered := h.ordered
  rw [origin_own] at hopener hcloser
  have hasc : Edit.Ascending 0 [(x.own d).opener, (x.own d).closer] :=
    ⟨Nat.zero_le _, hplaced.opener.ordered, by omega,
      hplaced.closer.ordered, trivial⟩
  have hspans : ∀ e ∈ [(x.own d).opener, (x.own d).closer],
      x.lines.HasSpan e.span := by
    intro e he
    rcases List.mem_cons.1 he with rfl | he
    · exact hplaced.opener
    · obtain rfl := List.mem_singleton.1 he
      exact hplaced.closer
  obtain ⟨result, hresult⟩ := Edit.exists_rewrites [] hasc hspans
  have hlines : (x.act d).lines = result := congrArg Prod.fst hresult.applyAll_eq
  rw [hlines]
  exact hresult

/-- The selection after the action covers what it covered before. -/
theorem slice?_act (d : Dialect) (h : x.lines.HasSpan x.selection) :
    (x.act d).lines.slice? (x.act d).selection = x.lines.slice? x.selection := by
  have hplaced := placed_own d h
  have horigin : x.lines.HasSpan (x.own d).origin := (origin_own d x).symm ▸ h
  have hundisturbed :
      Plan.Undisturbed [(x.own d).opener, (x.own d).closer] (x.own d) :=
    ⟨[], [], [], rfl, by simp⟩
  have huntouched :
      Plan.Untouched [(x.own d).opener, (x.own d).closer] (x.own d).origin := by
    intro e he
    rcases List.mem_cons.1 he with rfl | he
    · exact .inl hplaced.opener_le
    · obtain rfl := List.mem_singleton.1 he
      exact .inr hplaced.le_closer
  have hfollows := hundisturbed.follows (by simp [own_ne]) (rewrites_act d h)
    horigin hplaced huntouched
  have hcontent := hfollows.content
  rw [Plan.moveSelection_pair (own_ne d x) hplaced.opener_le horigin.ordered,
    origin_own] at hcontent
  exact hcontent

theorem hasSpan_act (d : Dialect) (h : x.lines.HasSpan x.selection) :
    (x.act d).lines.HasSpan (x.act d).selection := by
  rw [hasSpan_iff_isSome, slice?_act d h]
  exact hasSpan_iff_isSome.1 h

/-- What leaves the texts between the blocks alone and keeps each selection in its
block keeps the layout. -/
theorem Laid.map {change : Stretch → Stretch} (h : Laid tail xs)
    (hfront : ∀ y, (change y).front = y.front)
    (hspan : ∀ y : Stretch, y.lines.HasSpan y.selection →
      (change y).lines.HasSpan (change y).selection) :
    Laid tail (xs.map change) := by
  induction xs with
  | nil => trivial
  | cons x xs ih =>
    obtain ⟨hline, hx, hbreaks, hlaid⟩ := h
    refine ⟨(hfront x).symm ▸ hline, hspan x hx, ?_, ih hlaid⟩
    cases xs with
    | nil => exact hbreaks
    | cons y xs =>
      show (change y).front.head? = _
      rw [hfront]
      exact hbreaks

theorem Laid.hasSpan (h : Laid tail xs) : ∀ x ∈ xs, x.lines.HasSpan x.selection := by
  induction xs with
  | nil => simp
  | cons x xs ih =>
    obtain ⟨-, hspan, -, hlaid⟩ := h
    exact List.forall_mem_cons.2 ⟨hspan, ih hlaid⟩

/-- The edits for the selections of all stretches rewrite the text,
each its own block. -/
theorem rewrites_written (h : ∀ x ∈ xs, x.lines.HasSpan x.selection) (tail : Text)
    (offset : Nat) :
    Edit.Rewrites offset (written xs ++ tail) (spread (edits d) offset xs).flatten
      (written (xs.map (act d)) ++ tail) := by
  induction xs generalizing offset with
  | nil => exact .done _ _
  | cons x xs ih =>
    obtain ⟨hspan, hspans⟩ := List.forall_mem_cons.1 h
    have hlines := (rewrites_act d hspan).moveRight (offset + x.front.size)
    rw [Nat.zero_add] at hlines
    have hrest := ih hspans (offset + x.text.size)
    have hall := (hlines.prepend x.front).append hrest
    have hact : (x.act d).front = x.front := rfl
    simpa [spread, text, edits, hact] using hall

/-! ## Blocks in the text -/

theorem written_split (tail : Text) (front behind : List Stretch) (x : Stretch) :
    written (front ++ x :: behind) ++ tail =
      written front ++ x.front ++ x.lines ++ (written behind ++ tail) := by
  simp [text]

theorem Laid.hasSpan_placed (h : Laid tail (front ++ x :: behind)) :
    (written (front ++ x :: behind) ++ tail).HasSpan
      (x.selection.moveRight (written front ++ x.front).size) := by
  obtain ⟨-, hspan, -⟩ := h.block
  rw [written_split]
  exact hasSpan_block _ _ hspan

/-- The line around a place in a block is a line of the block. -/
theorem Laid.line_placed (h : Laid tail (front ++ x :: behind)) {offset : Nat}
    (hcut : x.lines.IsCut offset) :
    (written (front ++ x :: behind) ++ tail).line
      (offset + (written front ++ x.front).size) =
      (x.lines.line offset).moveRight (written front ++ x.front).size := by
  obtain ⟨hfront, -, hbehind, -⟩ := h.block
  rw [written_split]
  exact line_block hfront hbehind hcut

/-- The edits for a selection in the text are those in its block, where
the block stands. -/
theorem Laid.ofSelection_placed (h : Laid tail (front ++ x :: behind)) :
    TagEdit.ofSelection d (written (front ++ x :: behind) ++ tail)
        (x.selection.moveRight (written front ++ x.front).size) =
      (x.own d).moveRight (written front ++ x.front).size := by
  obtain ⟨hfront, hspan, hbehind, -⟩ := h.block
  rw [written_split]
  exact TagEdit.ofSelection_block d hfront hbehind hspan

/-- The plan for one selection is made in its block. -/
theorem Laid.plan_placed (h : Laid tail (front ++ x :: behind)) :
    Plan.make d (written (front ++ x :: behind) ++ tail)
        [x.selection.moveRight (written front ++ x.front).size] =
      ⟨x.edits d (written front ++ x.front).size,
        [(x.act d).selection.moveRight (written front ++ x.front).size]⟩ := by
  obtain ⟨-, hspan, -⟩ := h.block
  have hopener := (placed_own d hspan).opener_le
  have horigin : (x.own d).origin.start ≤ (x.own d).origin.stop :=
    (origin_own d x).symm ▸ hspan.ordered
  rw [Plan.make_singleton d h.hasSpan_placed, h.ofSelection_placed,
    TagEdit.selection_moveRight hopener horigin]
  rfl

/-- The edits for one selection change its stretch. -/
theorem Laid.rewrites_placed (h : Laid tail (front ++ x :: behind)) :
    Edit.Rewrites 0 (written (front ++ x :: behind) ++ tail)
      (x.edits d (written front ++ x.front).size)
      (written (front ++ x.act d :: behind) ++ tail) := by
  obtain ⟨-, hspan, -⟩ := h.block
  have hlines := (rewrites_act d hspan).moveRight (written front ++ x.front).size
  have hall := (hlines.append (.done _ (written behind ++ tail))).prepend
    (written front ++ x.front)
  have hact : (x.act d).front = x.front := rfl
  rw [written_split, written_split tail front behind (x.act d), hact]
  simpa [edits] using hall

end Stretch

end TemplateTags
