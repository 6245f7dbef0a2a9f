import TemplateTags.Proofs.Document.Rewriting
/-!
# Line breaks under edits

An edit leaves the line breaks of a text alone if it puts in none and takes out
none (`Edit.KeepsBreaks`). Several such edits leave them alone too, even if one of
them fails and those behind it have been applied already
(`Edit.lineBreaks_applyAll`). That holds for insertions at any offset: where an
insertion stands makes no difference to the line breaks, so only what is replaced
must be a piece of the text, and of the text as it is when it is replaced.
-/

namespace TemplateTags

open Text

/-- The line feeds and carriage returns of a text, in order. -/
def Text.lineBreaks (text : Text) : Text :=
  text.filter fun c => c == '\n' || c == '\r'

@[simp] theorem Text.lineBreaks_append (a b : Text) :
    lineBreaks (a ++ b) = lineBreaks a ++ lineBreaks b :=
  List.filter_append a b

namespace Edit

/-- No line break is put in, and none is in what is replaced. -/
structure KeepsBreaks (text : Text) (e : Edit) : Prop where
  inserted : e.text.lineBreaks = []
  removed : e.span.start = e.span.stop ∨ ∃ piece, text.slice? e.span = some piece ∧
    piece.lineBreaks = []

theorem KeepsBreaks.ordered {text : Text} {e : Edit} (h : e.KeepsBreaks text) :
    e.span.start ≤ e.span.stop := by
  rcases h.removed with hpoint | ⟨piece, hpiece, -⟩
  · exact Nat.le_of_eq hpoint
  · exact (hasSpan_iff_isSome.2 (by rw [hpiece]; rfl)).ordered

/-- An insertion behind a first piece of a text keeps the piece, wherever it is
made and if it can be made at all. -/
theorem applyTo_insertion {e : Edit} (hpoint : e.span.start = e.span.stop)
    (hbreaks : e.text.lineBreaks = []) {front behind result : Text}
    (hfront : front.size ≤ e.span.start)
    (h : e.applyTo (front ++ behind) = .ok result) :
    ∃ behind', result = front ++ behind' ∧ behind'.lineBreaks =
      behind.lineBreaks := by
  have hinsertion : e.isInsertion = true := decide_eq_true (Nat.le_of_eq hpoint.symm)
  unfold applyTo insertAt at h
  rw [if_pos hinsertion] at h
  cases hcut : (front ++ behind).cut e.span.start with
  | error error => simp [hcut, Except.map] at h
  | ok pieces =>
    simp only [hcut, Except.map, Except.ok.injEq] at h
    obtain ⟨happ, hsize⟩ := cut_eq_ok_iff.1 hcut
    obtain ⟨between, hbetween, rfl⟩ := exists_append_of_size_le happ (by omega)
    refine ⟨between ++ e.text ++ pieces.2, ?_, ?_⟩
    · rw [← h, hbetween]
      simp
    · simp [hbreaks]

/-- The first of several edits is applied last, to the text that the others leave,
or it is not applied at all. -/
theorem applyBackward_cons_cases (e : Edit) (rest : List Edit) (text : Text) :
    (applyBackward (e :: rest) text).1 = (applyBackward rest text).1 ∨
      e.applyTo (applyBackward rest text).1 =
        .ok (applyBackward (e :: rest) text).1 := by
  rw [applyBackward]
  obtain ⟨left, error⟩ := applyBackward rest text
  cases error with
  | some error => exact .inl rfl
  | none =>
    simp only
    cases e.applyTo left with
    | error error => exact .inl rfl
    | ok result => exact .inr rfl

/-- Edits in order that begin behind a first piece of a text keep the piece and
all line breaks, whether all of them can be applied or not. -/
theorem lineBreaks_applyBackward (front : Text) {behind : Text}
    {edits : List Edit} (h : Ascending front.size edits)
    (hkeeps : ∀ e ∈ edits, e.KeepsBreaks (front ++ behind)) :
    ∃ behind', (applyBackward edits (front ++ behind)).1 = front ++ behind' ∧
      behind'.lineBreaks = behind.lineBreaks := by
  induction edits generalizing front behind with
  | nil => exact ⟨behind, rfl, rfl⟩
  | cons e rest ih =>
    obtain ⟨hstart, hordered, hrest⟩ := h
    obtain ⟨hkeep, hkeepRest⟩ := List.forall_mem_cons.1 hkeeps
    rcases hkeep.removed with hpoint | ⟨piece, hpiece, hbreaks⟩
    · -- The offset of an insertion need be no cut of the text, so nothing more than
      -- the first piece is known to stay.
      obtain ⟨left, hleft, hsame⟩ :=
        ih front (hrest.mono (Nat.le_trans hstart hordered)) hkeepRest
      rcases applyBackward_cons_cases e rest (front ++ behind) with hresult | hresult
      · exact ⟨left, hresult.trans hleft, hsame⟩
      · rw [hleft] at hresult
        obtain ⟨behind', hbehind, hsame'⟩ :=
          applyTo_insertion hpoint hkeep.inserted hstart hresult
        exact ⟨behind', hbehind, hsame'.trans hsame⟩
    · obtain ⟨before, after, happ, hbefore, hstop⟩ := slice?_eq_some_iff.1 hpiece
      rw [List.append_assoc] at happ
      obtain ⟨kept, rfl, rfl⟩ := exists_append_of_size_le happ (by omega)
      have hsize : (front ++ kept ++ piece).size = e.span.stop := by
        rw [size_append]
        omega
      have htext : front ++ (kept ++ (piece ++ after)) = front ++ kept ++ piece
          ++ after := by simp
      rw [htext] at hkeepRest ⊢
      obtain ⟨left, hleft, hsame⟩ :=
        ih (front ++ kept ++ piece) (hsize ▸ hrest) hkeepRest
      rcases applyBackward_cons_cases e rest
        (front ++ kept ++ piece ++ after) with hresult | hresult
      · rw [hresult, hleft]
        exact ⟨kept ++ piece ++ left, by simp, by simp [hsame]⟩
      · rw [hleft, applyTo_append hbefore (by omega), Except.ok.injEq] at hresult
        rw [← hresult]
        exact ⟨kept ++ e.text ++ left, by simp, by
          simp [hsame, hbreaks, hkeep.inserted]⟩

/-- Edits that keep the line breaks one by one keep them together, even if they
are not all applied. -/
theorem lineBreaks_applyAll {text : Text} {edits : List Edit}
    (hkeeps : ∀ e ∈ edits, e.KeepsBreaks text) :
    (applyAll edits text).1.lineBreaks = text.lineBreaks := by
  unfold applyAll
  split
  next => rfl
  next hoverlap =>
    have hascending : Ascending (size []) edits :=
      ascending_of_overlap?_eq_none hoverlap (fun e he => (hkeeps e he).ordered)
        fun e _ => Nat.zero_le _
    obtain ⟨result, hresult, hsame⟩ := lineBreaks_applyBackward [] hascending hkeeps
    rw [List.nil_append, List.nil_append] at hresult
    rw [hresult, hsame]

end Edit

end TemplateTags
