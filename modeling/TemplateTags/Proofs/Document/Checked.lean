import TemplateTags.Document.Buffer
import TemplateTags.Proofs.Text.Cut
/-!
# Checked selections

The selections of a buffer are checked if each is a span of its text
(`Buffer.Checked`). These are the buffers that `Buffer.withSelections` makes
(`withSelections_eq_ok_iff`), and it takes the selections of such a buffer back as
they are (`Checked.withSelections`).
-/

namespace TemplateTags.Buffer

open Text

/-- Each selection runs from a cut of the text forward to another one. -/
def Checked (b : Buffer) : Prop := ∀ s ∈ b.selections, b.text.HasSpan s

instance (b : Buffer) : Decidable b.Checked := List.decidableBAll _ _

theorem checkSelection_eq_ok_iff {text : Text} {s t : Span} :
    checkSelection text s = .ok t ↔ t = s.ordered ∧ text.HasSpan s.ordered := by
  unfold checkSelection
  constructor
  · intro h
    cases hstart : text.cut s.ordered.start with
    | error e => simp [hstart, bind, Except.bind] at h
    | ok start =>
      cases hstop : text.cut s.ordered.stop with
      | error e => simp [hstart, hstop, bind, Except.bind] at h
      | ok stop =>
        simp only [hstart, hstop, bind, Except.bind, pure, Except.pure,
          Except.ok.injEq] at h
        exact ⟨h.symm, s.ordered_start_le_stop, ⟨_, _, cut_eq_ok_iff.1 hstart⟩,
          ⟨_, _, cut_eq_ok_iff.1 hstop⟩⟩
  · rintro ⟨rfl, h⟩
    obtain ⟨before, behind, hstart⟩ := h.start
    obtain ⟨front, rest, hstop⟩ := h.stop
    have hcut : text.cut s.ordered.start = .ok (before, behind) :=
      cut_eq_ok_iff.2 hstart
    have hcut' : text.cut s.ordered.stop = .ok (front, rest) := cut_eq_ok_iff.2 hstop
    rw [hcut, hcut']
    rfl

private theorem mapM_checkSelection {text : Text} {given checked : List Span} :
    given.mapM (checkSelection text) = .ok checked ↔
      checked = given.map Span.ordered ∧ ∀ s ∈ given, text.HasSpan s.ordered := by
  induction given generalizing checked with
  | nil => simp [pure, Except.pure, eq_comm]
  | cons s rest ih =>
    rw [List.mapM_cons]
    constructor
    · intro h
      cases hs : checkSelection text s with
      | error e => simp [hs, bind, Except.bind] at h
      | ok t =>
        cases hrest : rest.mapM (checkSelection text) with
        | error e => simp [hs, hrest, bind, Except.bind] at h
        | ok ts =>
          obtain ⟨rfl, hspan⟩ := checkSelection_eq_ok_iff.1 hs
          obtain ⟨rfl, hspans⟩ := ih.1 hrest
          simp only [hs, hrest, bind, Except.bind, pure, Except.pure,
            Except.ok.injEq] at h
          exact ⟨h.symm, List.forall_mem_cons.2 ⟨hspan, hspans⟩⟩
    · rintro ⟨rfl, hspans⟩
      obtain ⟨hspan, hspans⟩ := List.forall_mem_cons.1 hspans
      rw [checkSelection_eq_ok_iff.2 ⟨rfl, hspan⟩, ih.2 ⟨rfl, hspans⟩]
      rfl

/-- Selections are taken if each is a span of the text once its ends are in order. -/
theorem withSelections_eq_ok_iff {b checked : Buffer} {given : List Span} :
    b.withSelections given = .ok checked ↔
      checked = { b with selections := given.map Span.ordered } ∧
        ∀ s ∈ given, b.text.HasSpan s.ordered := by
  unfold withSelections
  cases h : given.mapM (checkSelection b.text) with
  | error e =>
    simp only [Except.map, reduceCtorEq, false_iff, not_and]
    rintro rfl hspans
    rw [mapM_checkSelection.2 ⟨rfl, hspans⟩] at h
    cases h
  | ok ts =>
    obtain ⟨rfl, hspans⟩ := mapM_checkSelection.1 h
    simp only [Except.map, Except.ok.injEq]
    exact ⟨fun heq => ⟨heq.symm, hspans⟩, fun heq => heq.1.symm⟩

theorem checked_of_withSelections {b checked : Buffer} {given : List Span}
    (h : b.withSelections given = .ok checked) : checked.Checked := by
  obtain ⟨rfl, hspans⟩ := withSelections_eq_ok_iff.1 h
  intro s hs
  obtain ⟨t, ht, rfl⟩ := List.mem_map.1 hs
  exact hspans t ht

/-- Checked selections are taken back as they are. -/
theorem Checked.withSelections {b : Buffer} (h : b.Checked) :
    b.withSelections b.selections = .ok b := by
  have hmap : b.selections.map Span.ordered = b.selections := by
    rw [List.map_congr_left (g := id) fun s hs => (h s hs).ordered_eq, List.map_id]
  rw [withSelections_eq_ok_iff, hmap]
  exact ⟨rfl, fun s hs => (h s hs).ordered_eq.symm ▸ h s hs⟩

end TemplateTags.Buffer
