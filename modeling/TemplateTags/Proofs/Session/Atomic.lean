import TemplateTags.Session
import TemplateTags.Proofs.Cycle.Planned
import TemplateTags.Proofs.Document.Checked
/-!
# An action is done as a whole or not at all

Edits are applied one after another, and each of them could fail. On a buffer
whose selections are spans of its text none does: an action either rewrites the
text by all of its edits (`Session.cycle_of_rewrites`), or is refused before the
first one because two edits overlap (`Session.cycle_of_overlap`).
-/

namespace TemplateTags

/-- Edits that overlap are refused. -/
theorem Buffer.applyEdits_of_overlap {b : Buffer} {edits : List Edit}
    {first second : Span} (h : Edit.overlap? edits = some (first, second)) :
    b.applyEdits edits = (b, some (.overlap first second)) := by
  unfold applyEdits Edit.applyAll
  rw [h]

theorem Buffer.applyEdits_of_rewrites {b : Buffer} {edits : List Edit}
    {result : Text} (h : Edit.Rewrites 0 b.text edits result) :
    b.applyEdits edits = ({ b with text := result }, none) := by
  unfold applyEdits
  rw [h.applyAll_eq]

namespace Session

open Text

/-- An action whose edits overlap changes nothing. -/
theorem cycle_of_overlap {s : Session} {b : Buffer} {first second : Span}
    (h : Edit.overlap? (s.plan b.text b.selections).edits = some (first, second)) :
    s.cycle b = (b, some (.overlap first second)) := by
  have hne : b.selections.isEmpty = false := by
    cases hsel : b.selections with
    | nil =>
      rw [hsel] at h
      cases h
    | cons => rfl
  unfold cycle
  rw [hne]
  simp only [Bool.false_eq_true, if_false, Buffer.applyEdits_of_overlap h]

/-- An action whose edits rewrite the text gives the rewritten text and the
plan's selections. -/
theorem cycle_of_rewrites {s : Session} {b : Buffer} {result : Text}
    (h : Edit.Rewrites 0 b.text (s.plan b.text b.selections).edits result) :
    s.cycle b = (⟨result, (s.plan b.text b.selections).selections⟩, none) := by
  unfold cycle
  split
  next hempty =>
    obtain ⟨text, selections⟩ := b
    obtain rfl : selections = [] := by simpa using hempty
    have hresult : result = text := by
      have hnil : (s.plan text []).edits = [] := rfl
      rw [hnil] at h
      cases h
      rfl
    rw [hresult]
    rfl
  next =>
    simp only [Buffer.applyEdits_of_rewrites h]

theorem exists_rewrites_plan {s : Session} {b : Buffer} (hb : b.Checked)
    (h : Edit.overlap? (s.plan b.text b.selections).edits = none) :
    ∃ result, Edit.Rewrites 0 b.text (s.plan b.text b.selections).edits result :=
  Plan.exists_rewrites_editsFor s.active hb h

/-- In the middle of a rewriting, too, no edit fails. -/
theorem applyBackward_suffix {text result : Text} {front rest : List Edit}
    (h : Edit.Rewrites 0 text (front ++ rest) result) :
    (Edit.applyBackward rest text).2 = none := by
  obtain ⟨before, behind, _, _, rfl, _, hsize, _, hbehind⟩ := h.split
  rw [hbehind.applyBackward (show before.size = _ by omega)]

/-- On checked selections an action succeeds, or two of its edits overlap and
the buffer stays as it was. If no two edits overlap, every step of the
application from the last edit to the first succeeds, and the text is
rewritten by all of them. -/
theorem cycle_all_or_nothing (s : Session) (b : Buffer) (hb : b.Checked) :
    ((∃ after, s.cycle b = (after, none)) ∨
        ∃ first second, s.cycle b = (b, some (.overlap first second))) ∧
      (Edit.overlap? (s.plan b.text b.selections).edits = none →
        (∃ result, Edit.Rewrites 0 b.text (s.plan b.text b.selections).edits result ∧
          s.cycle b = (⟨result, (s.plan b.text b.selections).selections⟩, none)) ∧
        ∀ front rest, (s.plan b.text b.selections).edits = front ++ rest →
          (Edit.applyBackward rest b.text).2 = none) := by
  cases hoverlap : Edit.overlap? (s.plan b.text b.selections).edits with
  | some spans => exact ⟨.inr ⟨_, _, cycle_of_overlap hoverlap⟩, fun h => by cases h⟩
  | none =>
    obtain ⟨result, hresult⟩ := exists_rewrites_plan hb hoverlap
    refine ⟨.inl ⟨_, cycle_of_rewrites hresult⟩, fun _ =>
      ⟨⟨result, hresult, cycle_of_rewrites hresult⟩, ?_⟩⟩
    intro front rest hedits
    rw [hedits] at hresult
    exact applyBackward_suffix hresult

/-- Two selections that overlap inside a tag with a wide character, one of them
cutting through the opener. -/
theorem cycle_all_or_nothing_cut_opener :
    (Buffer.mk "<% é %>".toList [⟨1, 3⟩, ⟨2, 5⟩]).Checked ∧
      ((∃ after, (start .builtin).cycle ⟨"<% é %>".toList, [⟨1, 3⟩, ⟨2, 5⟩]⟩ =
        (after, none)) ∨
        ∃ first second, (start .builtin).cycle ⟨"<% é %>".toList, [⟨1, 3⟩, ⟨2, 5⟩]⟩ =
          (⟨"<% é %>".toList, [⟨1, 3⟩, ⟨2, 5⟩]⟩, some (.overlap first second))) := by
  have hchecked : (Buffer.mk "<% é %>".toList [⟨1, 3⟩, ⟨2, 5⟩]).Checked := by decide
  exact ⟨hchecked, (cycle_all_or_nothing (start .builtin) _ hchecked).1⟩

end Session

end TemplateTags
