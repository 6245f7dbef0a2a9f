import TemplateTags.Dialect.Family
import TemplateTags.Proofs.Cycle.Cuts
/-!
# Exact shifts

An offset that edits shift stops at the start of the text (`Span.shiftOffset`),
and in machine words also at the highest word (`Shift.wordPlace`). A plan never
comes to either end. The edits that are counted at an offset take away a piece of
the text that ends there or before, and what they write is a piece of the new text
(`Edit.Rewrites.isCounted`). So the shifts that a plan and its tags make
(`Plan.shifts`) are sums of integers (`Plan.shifts_exact`).
-/

namespace TemplateTags

open Text

/-- An offset and the change of length that is added to it. -/
structure Shift where
  offset : Nat
  delta : Int

namespace Shift

/-- Where the offset comes to stand. -/
def place (c : Shift) : Nat := Span.shiftOffset c.offset c.delta

/-- `place` in the arithmetic of machine words: the change wraps around, and the
offset stops at the highest one. -/
def wordPlace (c : Shift) : Nat :=
  min (Span.shiftOffset c.offset (c.delta.bmod Edit.wordModulus)) TagEdit.maxOffset

/-- What is removed in a text of `size` bytes stands in front of the offset, and
what is written in its place is at most `written` bytes long. -/
structure IsCounted (c : Shift) (size written : Nat) : Prop where
  offset_le : c.offset ≤ size
  exists_delta : ∃ removed added : Nat, c.delta = added - removed ∧
    removed ≤ c.offset ∧ added ≤ written

namespace IsCounted

variable {c : Shift} {size written : Nat} (h : c.IsCounted size written)

include h

theorem mono {more : Nat} (hle : written ≤ more) : c.IsCounted size more := by
  obtain ⟨removed, added, hdelta, hremoved, hadded⟩ := h.exists_delta
  exact ⟨h.offset_le, removed, added, hdelta, hremoved, Nat.le_trans hadded hle⟩

theorem neg_offset_le : -(c.offset : Int) ≤ c.delta := by
  obtain ⟨removed, added, hdelta, hremoved, -⟩ := h.exists_delta
  omega

theorem coe_place : (c.place : Int) = c.offset + c.delta := by
  have hle := h.neg_offset_le
  show ((c.offset + c.delta).toNat : Int) = _
  omega

/-- Nothing wraps around or is cut off if the sizes are signed words. -/
theorem wordPlace_eq (hsize : 2 * size < Edit.wordModulus)
    (hwritten : 2 * written < Edit.wordModulus) :
    c.wordPlace = c.place := by
  have hoffset := h.offset_le
  obtain ⟨removed, added, hdelta, hremoved, hadded⟩ := h.exists_delta
  have hword : c.delta.bmod Edit.wordModulus = c.delta :=
    Int.bmod_eq_of_le (by omega) (by omega)
  have hplace := h.coe_place
  have hlt : c.place < Edit.wordModulus := by omega
  unfold wordPlace
  rw [hword]
  show min c.place TagEdit.maxOffset = c.place
  exact Nat.min_eq_left (Nat.le_sub_one_of_lt hlt)

end IsCounted

end Shift

/-! ## The shifts of a tag -/

namespace TagEdit

/-- The shift of the selection's start by the change of its own opener. -/
def startShift (t : TagEdit) : Shift := ⟨t.origin.start, t.opener.delta⟩

/-- The shift of the selection's end by the change of its own opener. -/
def stopShift (t : TagEdit) : Shift := ⟨t.origin.stop, t.opener.delta⟩

theorem selection_eq_place (t : TagEdit) :
    t.selection = ⟨t.startShift.place, t.stopShift.place⟩ := rfl

theorem wordSelection_eq_wordPlace (t : TagEdit) :
    t.wordSelection = ⟨t.startShift.wordPlace, t.stopShift.wordPlace⟩ := rfl

variable {t : TagEdit} {text : Text}

/-- The opener that is replaced ends at the selection or before. -/
theorem Placed.isCounted (h : t.Placed text) (horigin : text.HasSpan t.origin) :
    t.startShift.IsCounted text.size t.opener.text.size ∧
      t.stopShift.IsCounted text.size t.opener.text.size := by
  have hopener := h.opener_le
  have hordered := horigin.ordered
  have hremoved : t.opener.span.length ≤ t.origin.start :=
    Nat.le_trans (Nat.sub_le _ _) hopener
  exact ⟨⟨horigin.start.le_size, _, _, rfl, hremoved, Nat.le_refl _⟩,
    ⟨horigin.stop.le_size, _, _, rfl, Nat.le_trans hremoved hordered, Nat.le_refl _⟩⟩

theorem Placed.wordSelection_eq (h : t.Placed text)
    (horigin : text.HasSpan t.origin) (htext : 2 * text.size < Edit.wordModulus)
    (hopener : 2 * t.opener.text.size < Edit.wordModulus) :
    t.wordSelection = t.selection := by
  obtain ⟨hstart, hstop⟩ := h.isCounted horigin
  rw [selection_eq_place, wordSelection_eq_wordPlace,
    hstart.wordPlace_eq htext hopener, hstop.wordPlace_eq htext hopener]

end TagEdit

/-! ## The shifts of a plan -/

/-- The edits of a first part that are counted at an offset take a piece of
the text away that ends there or before, and what stands in its place is a
piece of the new text. -/
theorem Edit.Rewrites.isCounted {text result : Text} {first second : List Edit}
    (h : Rewrites 0 text (first ++ second) result) {offset : Nat}
    (hoffset : offset ≤ text.size) :
    Shift.IsCounted ⟨offset, Plan.deltaBefore offset first⟩ text.size
      result.size := by
  obtain ⟨_, _, _, _, _, _, _, hfirst, _⟩ := h.split
  -- The counted edits are a first part themselves, since the edits stand in order.
  have hcounted := Plan.filter_append_filter hfirst.ascending offset
  rw [hcounted, List.append_assoc] at h
  obtain ⟨front, rest, frontResult, restResult, rfl, rfl, hsize, hfront, -⟩ :=
    h.split
  have hend : endOf 0 (first.filter (·.span.stop ≤ offset)) ≤ offset := by
    apply Plan.endOf_le (Nat.zero_le _)
    intro e he
    simpa using (List.mem_filter.1 he).2
  have hchange := hfront.size_eq
  refine ⟨hoffset, front.size, frontResult.size, ?_, ?_, ?_⟩
  · show Plan.deltaBefore offset first = _
    rw [Plan.deltaBefore_eq_filter]
    omega
  · show front.size ≤ offset
    omega
  · rw [size_append]
    omega

namespace Plan

/-- The shift of a selection's start by the edits up to its own opener's. -/
def startShift (edits : List Edit) (own : TagEdit) : Shift :=
  ⟨own.origin.start, deltaBefore own.origin.start (followedByStart edits own)⟩

/-- The shift of a selection's end by the edits before its own closer's. -/
def stopShift (edits : List Edit) (own : TagEdit) : Shift :=
  ⟨own.origin.stop, deltaBefore own.origin.stop (edits.takeWhile (· ≠ own.closer))⟩

theorem moveSelection_eq_place (edits : List Edit) (own : TagEdit) :
    moveSelection edits own =
      ⟨(startShift edits own).place,
        max (stopShift edits own).place (startShift edits own).place⟩ := rfl

/-- All shifts for a selection: of both its ends by the edits of a plan, and of
both in the edit of its own tag. -/
def shifts (edits : List Edit) (own : TagEdit) : List Shift :=
  [startShift edits own, stopShift edits own, own.startShift, own.stopShift]

variable {text result : Text} {edits : List Edit} {own : TagEdit}

theorem isCounted_startShift (hnodup : edits.Nodup)
    (h : Edit.Rewrites 0 text edits result) (hopener : own.opener ∈ edits)
    (horigin : text.HasSpan own.origin) :
    (startShift edits own).IsCounted text.size result.size := by
  obtain ⟨front, behind, rfl⟩ := List.append_of_mem hopener
  unfold startShift
  rw [followedByStart_append hnodup]
  rw [List.append_cons] at h
  exact h.isCounted horigin.start.le_size

theorem isCounted_stopShift (h : Edit.Rewrites 0 text edits result)
    (horigin : text.HasSpan own.origin) :
    (stopShift edits own).IsCounted text.size result.size := by
  rw [← List.takeWhile_append_dropWhile (p := (· ≠ own.closer)) (l := edits)] at h
  exact h.isCounted horigin.stop.le_size

/-- The text that a selection's own opener is replaced by is a piece of the new
text. -/
theorem size_opener_le (hnodup : edits.Nodup)
    (h : Edit.Rewrites 0 text edits result) (hopener : own.opener ∈ edits) :
    own.opener.text.size ≤ result.size := by
  obtain ⟨front, behind, rfl⟩ := List.append_of_mem hopener
  obtain ⟨before, after, happ, -, -⟩ :=
    slice?_eq_some_iff.1 (slice?_landing hnodup h)
  rw [happ]
  simp only [size_append]
  omega

/-- The shifts that a plan makes for its selections, and those that the edits of
their tags make, never take more away than stands in front of the offset, so
they add up as integers: no place is the start of the text because the sum fell
below it. Between texts whose sizes are signed machine words they do not leave
the words either. -/
theorem shifts_exact (d : Dialect) {text : Text} {selections : List Span}
    (hspan : ∀ s ∈ selections, text.HasSpan s)
    (hoverlap : Edit.overlap? (make d text selections).edits = none) :
    let plan := make d text selections
    let own := TagEdit.ofSelection d text
    plan.selections = selections.map (fun s =>
        ⟨(startShift plan.edits (own s)).place,
          max (stopShift plan.edits (own s)).place
            (startShift plan.edits (own s)).place⟩) ∧
      (∀ s ∈ selections, (own s).selection =
        ⟨(own s).startShift.place, (own s).stopShift.place⟩ ∧
        ∀ c ∈ shifts plan.edits (own s), -(c.offset : Int) ≤ c.delta ∧
          (c.place : Int) = c.offset + c.delta) ∧
      ∃ result, Edit.applyAll plan.edits text = (result, none) ∧
        (2 * text.size < Edit.wordModulus → 2 * result.size < Edit.wordModulus →
          ∀ s ∈ selections, ∀ c ∈ shifts plan.edits (own s),
            c.wordPlace = c.place) := by
  intro plan own
  have hnodup : plan.edits.Nodup := nodup_editsFor d text selections
  obtain ⟨result, hrewrites⟩ : ∃ result, Edit.Rewrites 0 text plan.edits result :=
    exists_rewrites_editsFor d hspan hoverlap
  have hcounted : ∀ s ∈ selections, ∀ c ∈ shifts plan.edits (own s),
      c.IsCounted text.size result.size := by
    intro s hs c hc
    have hopener : (own s).opener ∈ plan.edits := opener_mem_editsFor d text hs
    have horigin : text.HasSpan (own s).origin := by
      rw [TagEdit.origin_ofSelection]
      exact hspan s hs
    obtain ⟨hstart, hstop⟩ :=
      (TagEdit.placed_ofSelection d (hspan s hs)).isCounted horigin
    have hwritten := size_opener_le hnodup hrewrites hopener
    simp only [shifts, List.mem_cons, List.not_mem_nil, or_false] at hc
    rcases hc with rfl | rfl | rfl | rfl
    · exact isCounted_startShift hnodup hrewrites hopener horigin
    · exact isCounted_stopShift hrewrites horigin
    · exact hstart.mono hwritten
    · exact hstop.mono hwritten
  refine ⟨?_, ?_, result, hrewrites.applyAll_eq, ?_⟩
  · exact List.map_congr_left fun s _ => moveSelection_eq_place plan.edits (own s)
  · intro s hs
    refine ⟨(own s).selection_eq_place, ?_⟩
    intro c hc
    exact ⟨(hcounted s hs c hc).neg_offset_le, (hcounted s hs c hc).coe_place⟩
  · intro htext hresult s hs c hc
    exact (hcounted s hs c hc).wordPlace_eq htext hresult

/-- Two tags that both become shorter, given in reverse. The second cursor is
shifted by the sum of both changes. -/
theorem shifts_exact_shorter :
    let text : Text := "<%=-%><%=-%>".toList
    let plan := make Family.erb.dialect text [⟨9, 9⟩, ⟨3, 3⟩]
    let own := TagEdit.ofSelection Family.erb.dialect text ⟨9, 9⟩
    Edit.overlap? plan.edits = none ∧ plan.selections = [⟨7, 7⟩, ⟨2, 2⟩] ∧
      (startShift plan.edits own).delta = -2 ∧
        (startShift plan.edits own).place = 7 := by
  intro text plan own
  have hspan : ∀ s ∈ [Span.mk 9 9, Span.mk 3 3], text.HasSpan s := by decide
  have hoverlap : Edit.overlap? plan.edits = none := by decide
  obtain ⟨-, hshifts, -⟩ := shifts_exact Family.erb.dialect hspan hoverlap
  obtain ⟨-, hplace⟩ := (hshifts ⟨9, 9⟩ List.mem_cons_self).2
    (startShift plan.edits own) List.mem_cons_self
  have hselections : plan.selections = [⟨7, 7⟩, ⟨2, 2⟩] := by decide
  have hoffset : (startShift plan.edits own).offset = 9 := by decide
  have hdelta : (startShift plan.edits own).delta = -2 := by decide
  exact ⟨hoverlap, hselections, hdelta, by omega⟩

end Plan

end TemplateTags
