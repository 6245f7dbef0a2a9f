import Mathlib.Data.List.Pairwise
import TemplateTags.Proofs.Cycle.Stretch
/-!
# A plan for all stretches

The plan for the selections of a text in stretches holds the edits of each
stretch, one stretch after another: the selections begin in different places
(`Stretch.Laid.pairwise_placed`), so they are sorted in one way only, and no edit
of a stretch is one of another stretch (`Stretch.Laid.nodup_edits`), so none is
dropped (`Stretch.Laid.editsFor_eq`). The edits in front of a block move its
selection as far as they move the block (`Stretch.Laid.moveSelection_placed`).
-/

namespace TemplateTags

open Text

/-- Elements of which no two compare as equal are in one ascending order only. -/
theorem sortBy_eq_of_perm {α : Type} {le : α → α → Bool}
    (total : ∀ x y, le x y || le y x) (trans : ∀ x y z, le x y → le y z → le x z)
    {xs ys : List α} (h : xs.Perm ys)
    (hys : ys.Pairwise fun x y => le x y ∧ ¬ le y x) : sortBy le xs = ys := by
  have hperm := (perm_sortBy le xs).trans h
  have hstrict : ys.Pairwise fun x y => ¬ (le x y ∧ le y x) :=
    hys.imp fun h hxy => h.2 hxy.2
  have : Std.Symm fun x y => ¬ (le x y ∧ le y x) := ⟨fun _ _ h hyx => h hyx.symm⟩
  refine hperm.eq_of_pairwise ?_ (pairwise_sortBy total trans xs) (hys.imp And.left)
  intro x y hx hy hxy hyx
  by_cases heq : x = y
  · exact heq
  · exact absurd ⟨hxy, hyx⟩ (hstrict.forall (hperm.mem_iff.1 hx) hy heq)

/-- Edits that rewrite a text stand in the order of a plan. -/
theorem Edit.Ascending.precedes {offset : Nat} {edits : List Edit}
    (h : Edit.Ascending offset edits) :
    edits.Pairwise (Plan.precedes · ·) := by
  refine h.pairwise.imp_of_mem ?_
  intro e f he hf hle
  have hordered := (h.le e he).2
  have hordered' := (h.le f hf).2
  rw [Plan.precedes_iff]
  omega

namespace Stretch

variable {d : Dialect} {tail : Text} {front behind xs : List Stretch} {x : Stretch}

/-- The selections stand in the order of the stretches. -/
theorem Laid.pairwise_placed (h : Laid tail xs) (offset : Nat) :
    (spread placed offset xs).Pairwise fun p q => p.1.start < q.1.start := by
  induction xs generalizing offset with
  | nil => exact .nil
  | cons x xs ih =>
    obtain ⟨-, hspan, hbreaks, hlaid⟩ := h
    refine List.pairwise_cons.2 ⟨?_, ih hlaid _⟩
    intro p hp
    obtain ⟨between, y, last, rfl, rfl⟩ := mem_spread_iff.1 hp
    have hpos := hbreaks.size_pos
    have hordered := hspan.ordered
    have hsize := hspan.stop.le_size
    simp only [placed, Span.moveRight, Stretch.text, size_append] at hpos ⊢
    omega

/-- The edits of a stretch are in its block. -/
theorem le_of_mem_edits (h : x.lines.HasSpan x.selection) {place : Nat} {e : Edit}
    (he : e ∈ x.edits d place) :
    place ≤ e.span.start ∧ e.span.start ≤ e.span.stop ∧
      e.span.stop ≤ place + x.lines.size := by
  have hplaced := placed_own d h
  have hopener := hplaced.opener.ordered
  have hcloser := hplaced.closer.ordered
  have hopenerSize := hplaced.opener.stop.le_size
  have hcloserSize := hplaced.closer.stop.le_size
  rcases List.mem_cons.1 he with rfl | he
  · simp only [Edit.moveRight, Span.moveRight]
    omega
  · obtain rfl := List.mem_singleton.1 he
    simp only [Edit.moveRight, Span.moveRight]
    omega

theorem nodup_edits (d : Dialect) (place : Nat) (x : Stretch) :
    (x.edits d place).Nodup := by
  have hne :
      (x.own d).opener.moveRight place ≠ (x.own d).closer.moveRight place := by
    intro heq
    have hdelimiter := congrArg Edit.delimiter heq
    exact own_delimiter_ne d x hdelimiter
  exact List.nodup_cons.2 ⟨fun h => hne (List.mem_singleton.1 h),
    List.nodup_cons.2 ⟨List.not_mem_nil, .nil⟩⟩

/-- Each edit of the stretches is there once. -/
theorem Laid.nodup_edits (h : Laid tail xs) (offset : Nat) :
    (spread (edits d) offset xs).flatten.Nodup := by
  induction xs generalizing offset with
  | nil => exact .nil
  | cons x xs ih =>
    have hspans := h.hasSpan
    obtain ⟨-, hspan, hbreaks, hlaid⟩ := h
    rw [spread, List.flatten_cons, List.nodup_append]
    refine ⟨Stretch.nodup_edits d _ x, ih hlaid _, ?_⟩
    intro e he f hf heq
    obtain ⟨edits, hedits, hf⟩ := List.mem_flatten.1 hf
    obtain ⟨between, y, last, rfl, rfl⟩ := mem_spread_iff.1 hedits
    have hpos := hbreaks.size_pos
    have hle := le_of_mem_edits hspan he
    have hle' := le_of_mem_edits (hspans y (by simp)) hf
    subst heq
    simp only [Stretch.text, size_append] at hle hle' hpos
    omega

/-- The edits for all selections, one stretch after another. -/
theorem Laid.editsFor_eq (h : Laid tail xs) {selections : List Span}
    (hselections : (spread placed 0 xs).Perm selections.zipIdx) :
    Plan.editsFor d (written xs ++ tail) selections =
      (spread (edits d) 0 xs).flatten := by
  have hsorted :
      sortBy Plan.startsBefore selections = (spread placed 0 xs).map Prod.fst := by
    apply sortBy_eq_of_perm Plan.startsBefore_total Plan.startsBefore_trans
    · have hfst := hselections.symm.map Prod.fst
      rwa [List.zipIdx_map_fst] at hfst
    · refine List.pairwise_map.2 ((h.pairwise_placed 0).imp ?_)
      intro p q hlt
      simp only [Plan.startsBefore, decide_eq_true_eq]
      omega
  have htags : (sortBy Plan.startsBefore selections).map
      (TagEdit.ofSelection d (written xs ++ tail)) =
      spread (fun place x => (x.own d).moveRight place) 0 xs := by
    rw [hsorted, List.map_map, map_spread]
    apply spread_congr
    intro front x behind hxs
    subst hxs
    rw [Nat.zero_add]
    exact h.ofSelection_placed
  have hedits : ((sortBy Plan.startsBefore selections).map
      (TagEdit.ofSelection d (written xs ++ tail))).flatMap
      (fun t => [t.opener, t.closer]) = (spread (edits d) 0 xs).flatten := by
    rw [htags, List.flatMap_def, map_spread]
    rfl
  have hascending := (rewrites_written (d := d) h.hasSpan tail 0).ascending
  show (sortBy Plan.precedes _).eraseDups = _
  rw [hedits, sortBy_eq_self hascending.precedes,
    Plan.eraseDups_eq_self (h.nodup_edits 0)]

/-- A selection is moved as its block is, and in the block as its own opener moves
it. -/
theorem Laid.moveSelection_placed (h : Laid tail (front ++ x :: behind)) :
    Plan.moveSelection (spread (edits d) 0 (front ++ x :: behind)).flatten
        ((x.own d).moveRight (written front ++ x.front).size) =
      (x.act d).selection.moveRight
        (written (front.map (act d)) ++ (x.act d).front).size := by
  obtain ⟨-, hspan, -⟩ := h.block
  have hopener := (placed_own d hspan).opener_le
  have horigin : (x.own d).origin.start ≤ (x.own d).origin.stop :=
    (origin_own d x).symm ▸ hspan.ordered
  have hsize := (rewrites_written (d := d) (fun y hy =>
    h.hasSpan y (List.mem_append_left _ hy)) tail 0).size_eq
  have hnodup := h.nodup_edits (d := d) 0
  have hrewrites := rewrites_written (d := d) h.hasSpan tail 0
  obtain ⟨place, hplace⟩ : ∃ place, place = (written front ++ x.front).size :=
    ⟨_, rfl⟩
  obtain ⟨later, hlater⟩ :
      ∃ later, (spread (edits d) 0 (front ++ x :: behind)).flatten =
      (spread (edits d) 0 front).flatten ++
        ((x.own d).moveRight place).opener ::
          ((x.own d).moveRight place).closer :: later := by
    refine ⟨(spread (edits d) (0 + (written front).size + x.text.size)
      behind).flatten, ?_⟩
    simp [spread_append, spread, edits, TagEdit.moveRight, hplace]
  rw [hlater] at hnodup hrewrites
  have hmoved := Plan.moveSelection_neighbours hnodup hrewrites
    (Nat.add_le_add_right hopener place)
    (Nat.add_le_add_right horigin place)
  rw [hlater, ← hplace, hmoved]
  have hact : (x.act d).front = x.front := rfl
  have hselection : (x.act d).selection = (x.own d).selection := rfl
  rw [hact, hselection]
  simp only [size_append] at hsize hplace ⊢
  simp only [TagEdit.selection, TagEdit.moveRight, Edit.totalDelta_append,
    Edit.totalDelta_cons, Edit.totalDelta_nil, Edit.delta_moveRight, Span.shift,
    Span.moveRight, Span.shiftOffset, Span.mk.injEq]
  unfold Edit.delta Span.length
  omega

end Stretch

end TemplateTags
