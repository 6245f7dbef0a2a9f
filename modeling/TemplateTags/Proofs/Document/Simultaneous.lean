import TemplateTags.Document.Buffer
import TemplateTags.Proofs.Document.Rewriting
/-!
# Edits replace their spans at once

`Edit.spliced` writes down what becomes of a text when every span is replaced at
once: the pieces between the spans, and the texts of the edits in the order of the
list. Edits that are applied one by one from the last to the first make just that
text (`Edit.applyAll_eq_spliced`), and they are refused if any two of them
overlap, neighbours or not (`Edit.overlap?_eq_none_iff`). An edit is never out of
bounds once one behind it has been applied, so an error of that kind leaves the
text alone (`Edit.applyBackward_outOfBounds`).
-/

namespace TemplateTags

open Text

namespace Edit

/-- Every edit of the list ends where those behind it begin or before. -/
def InOrder (edits : List Edit) : Prop :=
  edits.Pairwise fun e f => e.span.stop ≤ f.span.start

/-- What the text behind an offset becomes: what lies between the spans is kept,
and each edit's text stands in the place of its span. -/
def spliced (text : Text) : Nat → List Edit → Text
  | offset, [] => text.slice ⟨offset, text.size⟩
  | offset, e :: rest =>
    text.slice ⟨offset, e.span.start⟩ ++ e.text ++ spliced text e.span.stop rest

/-! ## The check of neighbours -/

theorem InOrder.overlap?_eq_none {edits : List Edit} (h : InOrder edits) :
    overlap? edits = none := by
  induction edits with
  | nil => rfl
  | cons e rest ih =>
    obtain ⟨he, hrest⟩ := List.pairwise_cons.1 h
    cases rest with
    | nil => rfl
    | cons f rest =>
      have hle := he f List.mem_cons_self
      rw [overlap?, if_neg (Nat.not_lt_of_le hle)]
      exact ih hrest

/-- No two neighbours overlap if and only if no two edits do. -/
theorem overlap?_eq_none_iff {edits : List Edit}
    (hordered : ∀ e ∈ edits, e.span.start ≤ e.span.stop) :
    overlap? edits = none ↔ InOrder edits := by
  constructor
  · intro h
    have hascending : Ascending 0 edits :=
      ascending_of_overlap?_eq_none h hordered fun _ _ => Nat.zero_le _
    exact hascending.pairwise
  · exact InOrder.overlap?_eq_none

theorem InOrder.ascending {edits : List Edit} (h : InOrder edits)
    (hordered : ∀ e ∈ edits, e.span.start ≤ e.span.stop) : Ascending 0 edits :=
  ascending_of_overlap?_eq_none h.overlap?_eq_none hordered fun _ _ => Nat.zero_le _

/-! ## The spliced text -/

theorem slice_append (before piece behind : Text) :
    (before ++ piece ++ behind).slice ⟨before.size, before.size + piece.size⟩ =
      piece := by
  rw [slice, slice?_append]
  rfl

/-- Nothing lies between two offsets that are the same. -/
theorem slice_point (text : Text) (offset : Nat) :
    text.slice (.point offset) = [] := by
  unfold slice
  cases h : text.slice? (.point offset) with
  | none => rfl
  | some piece =>
    obtain ⟨before, behind, -, hstart, hstop⟩ := slice?_eq_some_iff.1 h
    have hsize : before.size + piece.size = before.size := hstop.trans hstart.symm
    have hzero : piece.size = 0 := by omega
    exact size_eq_zero_iff.1 hzero

/-- An insertion is written in front of the edit behind it, if that begins
at the same place. -/
theorem spliced_insertion (text : Text) (offset : Nat) {e f : Edit}
    (rest : List Edit) (h : e.span = .point f.span.start) :
    spliced text offset (e :: f :: rest) =
      text.slice ⟨offset, f.span.start⟩ ++ (e.text ++ f.text)
        ++ spliced text f.span.stop rest := by
  have hpoint : text.slice ⟨f.span.start, f.span.start⟩ = [] :=
    slice_point text f.span.start
  simp only [spliced, h, Span.point, hpoint, List.nil_append, List.append_assoc]

/-- A rewriting of the text behind an offset gives the spliced text. -/
theorem Rewrites.eq_spliced {offset : Nat} {text result : Text}
    {edits : List Edit} (h : Rewrites offset text edits result) {before : Text}
    (hbefore : before.size = offset) :
    result = spliced (before ++ text) offset edits := by
  induction h generalizing before with
  | done offset text =>
    have hslice := slice_append before text []
    rw [List.append_nil, ← size_append, hbefore] at hslice
    exact hslice.symm
  | @edit offset kept removed rest result e edits hstart hstop _ ih =>
    have hsize : (before ++ kept ++ removed).size = e.span.stop := by
      simp only [size_append]
      omega
    have hslice := slice_append before kept (removed ++ rest)
    have hrest := ih hsize
    rw [hbefore, hstart] at hslice
    simp only [List.append_assoc] at hslice hrest ⊢
    rw [spliced, hslice, ← hrest, List.append_assoc]

/-- Edits in order whose spans are spans of the text are all applied, and make
the spliced text. -/
theorem applyAll_eq_spliced {text : Text} {edits : List Edit} (h : InOrder edits)
    (hspan : ∀ e ∈ edits, text.HasSpan e.span) :
    applyAll edits text = (spliced text 0 edits, none) := by
  have hascending := h.ascending fun e he => (hspan e he).ordered
  obtain ⟨result, hresult⟩ : ∃ result, Rewrites 0 text edits result :=
    exists_rewrites [] hascending hspan
  rw [hresult.applyAll_eq, hresult.eq_spliced size_nil]
  rfl

/-! ## Edits that fail -/

theorem cut_eq_error {text : Text} {place : Nat} {error : EditError}
    (h : text.cut place = .error error) :
    (text.size < place ∧ error = .outOfBounds place text.size) ∨
      (place ≤ text.size ∧ error = .insideCharacter place) := by
  unfold cut at h
  split at h
  next => cases h
  next =>
    cases h
    by_cases hplace : text.size < place
    · exact .inl ⟨hplace, if_pos hplace⟩
    · exact .inr ⟨Nat.le_of_not_lt hplace, if_neg hplace⟩

/-- An edit fails where the text has no cut at an end of its span, or because the
span is reversed. -/
theorem applyTo_eq_error {e : Edit} {text : Text} {error : EditError}
    (h : e.applyTo text = .error error) :
    (∃ place, (place = e.span.start ∨ place = e.span.stop) ∧
      text.cut place = .error error) ∨
      error = .reversed e.span := by
  unfold applyTo insertAt replaceSpan at h
  cases hstart : text.cut e.span.start with
  | error cause =>
    have hcause : cause = error := by
      split at h <;> simpa [hstart, Except.map, bind, Except.bind] using h
    exact .inl ⟨e.span.start, .inl rfl, hcause ▸ hstart⟩
  | ok before =>
    split at h
    · simp [hstart, Except.map] at h
    · cases hstop : text.cut e.span.stop with
      | error cause =>
        have hcause : cause = error := by
          simpa [hstart, hstop, bind, Except.bind] using h
        exact .inl ⟨e.span.stop, .inr rfl, hcause ▸ hstop⟩
      | ok behind =>
        simp only [hstart, hstop, bind, Except.bind, pure, Except.pure] at h
        split at h
        · cases h
          exact .inr rfl
        · cases h

/-- The text up to the start of an edit that was applied is still there. -/
theorem start_le_of_applyTo {e : Edit} {text result : Text}
    (h : e.applyTo text = .ok result) :
    e.span.start ≤ result.size := by
  unfold applyTo insertAt replaceSpan at h
  cases hstart : text.cut e.span.start with
  | error error =>
    split at h <;> simp [hstart, Except.map, bind, Except.bind] at h
  | ok before =>
    have hsize := (cut_eq_ok_iff.1 hstart).2
    split at h
    · simp only [hstart, Except.map, Except.ok.injEq] at h
      subst h
      simp only [size_append]
      omega
    · cases hstop : text.cut e.span.stop with
      | error error => simp [hstart, hstop, bind, Except.bind] at h
      | ok behind =>
        simp only [hstart, hstop, bind, Except.bind, pure, Except.pure] at h
        split at h
        · cases h
        · cases h
          simp only [size_append]
          omega

/-- Where edits fail, one of them does on the text that those behind it have made. -/
theorem applyBackward_eq_error {edits : List Edit} {text result : Text}
    {error : EditError} (h : applyBackward edits text = (result, some error)) :
    ∃ front e rest, edits = front ++ e :: rest ∧ applyBackward rest text =
      (result, none) ∧
      e.applyTo result = .error error := by
  induction edits with
  | nil => cases h
  | cons e rest ih =>
    unfold applyBackward at h
    split at h
    next edited cause hrest =>
      cases h
      obtain ⟨front, f, behind, happ, hbehind, hfail⟩ := ih hrest
      exact ⟨e :: front, f, behind, congrArg (e :: ·) happ, hbehind, hfail⟩
    next edited hrest =>
      split at h
      next => cases h
      next cause hfail =>
        cases h
        exact ⟨[], e, rest, rfl, hrest, hfail⟩

/-- The text up to the start of the first of several edits that were
applied is still there. -/
theorem start_le_of_applyBackward {e : Edit} {rest : List Edit}
    {text result : Text} (h : applyBackward (e :: rest) text = (result, none)) :
    e.span.start ≤ result.size := by
  unfold applyBackward at h
  split at h
  next => cases h
  next =>
    split at h
    next happly =>
      cases h
      exact start_le_of_applyTo happly
    next => cases h

/-- Overlapping edits are found before any is applied. -/
theorem applyBackward_ne_overlap {edits : List Edit} {text : Text}
    {first second : Span} :
    (applyBackward edits text).2 ≠ some (.overlap first second) := by
  intro h
  obtain ⟨front, e, rest, -, -, hfail⟩ := applyBackward_eq_error (Prod.ext rfl h)
  rcases applyTo_eq_error hfail with ⟨place, -, hcut⟩ | hreversed
  · rcases cut_eq_error hcut with ⟨-, herror⟩ | ⟨-, herror⟩ <;> cases herror
  · cases hreversed

/-- An edit that is out of bounds is the first one that is tried, and nothing has
been applied before it. -/
theorem applyBackward_outOfBounds {edits : List Edit} {text : Text}
    {offset size : Nat} (horder : InOrder edits)
    (hordered : ∀ e ∈ edits, e.span.start ≤ e.span.stop)
    (h : (applyBackward edits text).2 = some (.outOfBounds offset size)) :
    (applyBackward edits text).1 = text := by
  obtain ⟨front, e, rest, rfl, happlied, hfail⟩ :=
    applyBackward_eq_error (Prod.ext rfl h)
  cases rest with
  | nil => exact (congrArg Prod.fst happlied).symm
  | cons f rest =>
    -- The edit behind this one was applied, so the text goes at least up to its
    -- start.
    have hbetween : e.span.stop ≤ f.span.start :=
      (List.pairwise_cons.1 (List.pairwise_append.1 horder).2.1).1 f
        List.mem_cons_self
    have hbounds := start_le_of_applyBackward happlied
    have hspan := hordered e (by simp)
    rcases applyTo_eq_error hfail with ⟨place, hplace, hcut⟩ | hreversed
    · rcases cut_eq_error hcut with ⟨hlt, -⟩ | ⟨-, herror⟩
      · omega
      · cases herror
    · cases hreversed

end Edit

namespace Buffer

/-- Edits are refused before anything is done if and only if some edit of the
list ends behind the start of one that stands after it. If all are in order and
their ends are cuts of the text, every span is replaced at once, and what is put
in at one place stands in the order of the list. An edit out of bounds leaves the
buffer as it was. -/
theorem applyEdits_at_once (b : Buffer) (edits : List Edit)
    (hordered : ∀ e ∈ edits, e.span.start ≤ e.span.stop) :
    ((∃ first second, (b.applyEdits edits).2 = some (.overlap first second)) ↔
      ¬ Edit.InOrder edits) ∧
      (∀ first second, (b.applyEdits edits).2 = some (.overlap first second) →
        (b.applyEdits edits).1 = b) ∧
      (Edit.InOrder edits → (∀ e ∈ edits, b.text.IsCut e.span.start ∧
        b.text.IsCut e.span.stop) →
        b.applyEdits edits = ({ b with text := Edit.spliced b.text 0 edits },
          none)) ∧
      (∀ offset e f rest, e.span = .point f.span.start →
        Edit.spliced b.text offset (e :: f :: rest) =
        b.text.slice ⟨offset, f.span.start⟩ ++ (e.text ++ f.text)
          ++ Edit.spliced b.text f.span.stop rest) ∧
      ∀ offset size, (b.applyEdits edits).2 = some (.outOfBounds offset size) →
        (b.applyEdits edits).1 = b := by
  have herror : ∀ error, (b.applyEdits edits).2 = some error ↔
      (Edit.applyAll edits b.text).2 = some error :=
    fun _ => Iff.rfl
  cases hoverlap : Edit.overlap? edits with
  | some spans =>
    have hrefused : b.applyEdits edits = (b, some (.overlap spans.1 spans.2)) := by
      unfold applyEdits Edit.applyAll
      rw [hoverlap]
    have horder : ¬ Edit.InOrder edits := by
      intro horder
      rw [horder.overlap?_eq_none] at hoverlap
      cases hoverlap
    rw [hrefused]
    refine ⟨⟨fun _ => horder, fun _ => ⟨_, _, rfl⟩⟩, fun _ _ _ => rfl, fun h =>
      absurd h horder, ?_, fun _ _ _ => rfl⟩
    exact fun offset e f rest => Edit.spliced_insertion b.text offset rest
  | none =>
    have horder := (Edit.overlap?_eq_none_iff hordered).1 hoverlap
    have happly : Edit.applyAll edits b.text = Edit.applyBackward edits b.text := by
      unfold Edit.applyAll
      rw [hoverlap]
    have hnone :
        ∀ first second, (b.applyEdits edits).2 ≠ some (.overlap first second) := by
      intro first second
      rw [Ne, herror, happly]
      exact Edit.applyBackward_ne_overlap
    refine ⟨⟨?_, fun h => absurd horder h⟩, fun first second h =>
      absurd h (hnone first second), ?_, ?_, ?_⟩
    · intro h
      obtain ⟨first, second, h⟩ := h
      exact absurd h (hnone first second)
    · intro _ hcuts
      have hspan : ∀ e ∈ edits, b.text.HasSpan e.span := fun e he =>
        ⟨hordered e he, (hcuts e he).1, (hcuts e he).2⟩
      unfold applyEdits
      rw [Edit.applyAll_eq_spliced horder hspan]
    · exact fun offset e f rest => Edit.spliced_insertion b.text offset rest
    · intro offset size h
      rw [herror, happly] at h
      have htext := Edit.applyBackward_outOfBounds horder hordered h
      show ({ b with text := (Edit.applyAll edits b.text).1 } : Buffer) = b
      rw [happly, htext]

/-- Two insertions at one place stand in front of what replaces the
wide character there. -/
theorem applyEdits_at_once_wide :
    let edits : List Edit := [⟨.point 1, ['x'], .opener⟩, ⟨.point 1, ['y'], .closer⟩,
      ⟨⟨1, 3⟩, ['z'], .opener⟩,
      ⟨.point 3, ['w'], .closer⟩]
    (∀ e ∈ edits, e.span.start ≤ e.span.stop) ∧ Edit.InOrder edits ∧
      (Buffer.ofText "aéb".toList).applyEdits edits =
        (Buffer.ofText "axyzwb".toList, none) := by
  intro edits
  have hordered : ∀ e ∈ edits, e.span.start ≤ e.span.stop := by decide
  have horder : Edit.InOrder edits := by
    unfold Edit.InOrder
    decide
  have hcuts : ∀ e ∈ edits, Text.IsCut "aéb".toList e.span.start ∧
      Text.IsCut "aéb".toList e.span.stop := by decide
  exact ⟨hordered, horder,
    (applyEdits_at_once (.ofText "aéb".toList) edits hordered).2.2.1 horder hcuts⟩

end Buffer

end TemplateTags
