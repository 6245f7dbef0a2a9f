import TemplateTags.Cycle.Plan
import TemplateTags.Proofs.Document.Rewriting
/-!
# Following an offset through edits

What `Plan.shiftThrough` adds to an offset is the change of length by those edits
that end at or before it (`Plan.deltaBefore_eq_totalDelta`). Through a first part
of the edits that all end at or before an offset it leads to the place with the
same text behind it, up to the rest of the edits
(`Edit.Rewrites.isCut_shift_iff`). `Plan.landing` is where the text of an edit
comes to stand (`Plan.slice?_landing`), and `Plan.moveSelection_start` and
`Plan.moveSelection_stop` say which edits move a selection.
-/

namespace TemplateTags

open Text

/-! ## Edits before a place in the list -/

theorem takeWhile_ne_append {α : Type} [DecidableEq α] {front behind : List α}
    {a : α} (h : (front ++ a :: behind).Nodup) :
    (front ++ a :: behind).takeWhile (· ≠ a) = front := by
  induction front with
  | nil => simp
  | cons b front ih =>
    obtain ⟨hb, hrest⟩ := List.nodup_cons.1 h
    have hne : b ≠ a := fun heq => hb (by simp [heq])
    rw [List.cons_append, List.takeWhile_cons_of_pos (by simpa using hne), ih hrest]

theorem find?_append_cons {α : Type} [DecidableEq α] {front behind : List α}
    {a : α} :
    (front ++ a :: behind).find? (· = a) = some a := by
  induction front with
  | nil => simp
  | cons b front ih =>
    by_cases hb : b = a
    · simp [hb]
    · simpa [hb] using ih

/-- Two members of a list stand in one order or the other. -/
theorem exists_append_of_mem_of_mem {α : Type} {a b : α} {xs : List α}
    (ha : a ∈ xs) (hb : b ∈ xs) (hne : a ≠ b) :
    (∃ front between behind, xs = front ++ a :: between ++ b :: behind) ∨
      ∃ front between behind, xs = front ++ b :: between ++ a :: behind := by
  obtain ⟨front, behind, rfl⟩ := List.append_of_mem ha
  rcases List.mem_append.1 hb with hb | hb
  · obtain ⟨first, between, rfl⟩ := List.append_of_mem hb
    exact .inr ⟨first, between, behind, by simp⟩
  · rcases List.mem_cons.1 hb with rfl | hb
    · exact absurd rfl hne
    · obtain ⟨between, last, rfl⟩ := List.append_of_mem hb
      exact .inl ⟨front, between, last, by simp⟩

namespace Plan

theorem deltaBefore_append (offset : Nat) (a b : List Edit) :
    deltaBefore offset (a ++ b) = deltaBefore offset a + deltaBefore offset b := by
  induction a with
  | nil => simp [deltaBefore]
  | cons e rest ih =>
    simp only [List.cons_append, deltaBefore, ih]
    omega

theorem deltaBefore_eq_totalDelta {offset : Nat} {edits : List Edit}
    (h : ∀ e ∈ edits, e.span.stop ≤ offset) :
    deltaBefore offset edits = Edit.totalDelta edits := by
  induction edits with
  | nil => rfl
  | cons e rest ih =>
    obtain ⟨he, hrest⟩ := List.forall_mem_cons.1 h
    rw [deltaBefore, if_pos he, ih hrest, Edit.totalDelta_cons]

theorem deltaBefore_eq_zero {offset : Nat} {edits : List Edit}
    (h : ∀ e ∈ edits, offset < e.span.stop) : deltaBefore offset edits = 0 := by
  induction edits with
  | nil => rfl
  | cons e rest ih =>
    obtain ⟨he, hrest⟩ := List.forall_mem_cons.1 h
    rw [deltaBefore, if_neg (by omega), ih hrest]
    rfl

/-- Edits that all make the text longer move an offset as soon as one
of them is counted. -/
theorem deltaBefore_pos {offset : Nat} {edits : List Edit}
    (h : ∀ e ∈ edits, e.span.stop ≤ offset → 0 < e.delta) :
    0 ≤ deltaBefore offset edits ∧
      ((∃ e ∈ edits, e.span.stop ≤ offset) → 0 < deltaBefore offset edits) := by
  induction edits with
  | nil => simp [deltaBefore]
  | cons e rest ih =>
    obtain ⟨he, hrest⟩ := List.forall_mem_cons.1 h
    obtain ⟨hnonneg, hpos⟩ := ih hrest
    rw [deltaBefore]
    by_cases hle : e.span.stop ≤ offset
    · have := he hle
      rw [if_pos hle]
      exact ⟨by omega, fun _ => by omega⟩
    · rw [if_neg hle]
      refine ⟨by omega, ?_⟩
      rintro ⟨f, hf, hfle⟩
      rcases List.mem_cons.1 hf with rfl | hf
      · exact absurd hfle hle
      · have := hpos ⟨f, hf, hfle⟩
        omega

/-- Where the text of an edit stands when all edits have been applied. -/
def landing (edits : List Edit) (e : Edit) : Span :=
  let start :=
    Span.shiftOffset e.span.start (Edit.totalDelta (edits.takeWhile (· ≠ e)))
  ⟨start, start + e.text.size⟩

end Plan

namespace Edit

/-! ## Places in rewritten text -/

theorem Rewrites.endOf_le {offset : Nat} {text result : Text}
    {first second : List Edit} {e : Edit}
    (h : Rewrites offset text (first ++ e :: second) result) :
    endOf offset first ≤ e.span.start := by
  obtain ⟨_, _, _, _, _, _, _, _, hbehind⟩ := h.split
  exact hbehind.ascending.1

/-- The text of an edit does not come to stand before the offset where the
rewriting begins. -/
theorem Rewrites.le_start {offset : Nat} {text result : Text}
    {first second : List Edit} {e : Edit}
    (h : Rewrites offset text (first ++ e :: second) result) :
    (offset : Int) ≤ e.span.start + totalDelta first := by
  have hle := h.endOf_le
  obtain ⟨front, _, _, _, _, _, hsize, hfront, _⟩ := h.split
  have := hfront.size_eq
  omega

/-- An offset behind some edits is moved to where the same distance lies
behind their results. -/
theorem Rewrites.shiftOffset_eq {front result : Text} {edits : List Edit}
    (h : Rewrites 0 front edits result) (behind : Nat) :
    Span.shiftOffset (front.size + behind) (totalDelta edits) =
      result.size + behind := by
  have := h.size_eq
  unfold Span.shiftOffset
  omega

theorem Rewrites.coe_shiftOffset {text result : Text} {first second : List Edit}
    {offset : Nat} (h : Rewrites 0 text (first ++ second) result)
    (hoffset : endOf 0 first ≤ offset) :
    (Span.shiftOffset offset (totalDelta first) : Int) =
      offset + totalDelta first := by
  obtain ⟨front, _, _, _, _, _, hsize, hfront, _⟩ := h.split
  have := hfront.size_eq
  unfold Span.shiftOffset
  omega

/-- An offset behind a first part of the edits is followed to a cut if it is one
with the other edits alone. -/
theorem Rewrites.isCut_shift_iff {text result : Text} {first second : List Edit}
    {offset : Nat} (h : Rewrites 0 text (first ++ second) result)
    (hoffset : endOf 0 first ≤ offset) :
    result.IsCut (Span.shiftOffset offset (totalDelta first)) ↔
      (applyAll second text).1.IsCut offset := by
  obtain ⟨front, rest, frontResult, restResult, rfl, rfl, hsize, hfront, hrest⟩ :=
    h.split
  obtain ⟨behind, rfl⟩ := Nat.exists_eq_add_of_le hoffset
  have happly : applyAll second (front ++ rest) = (front ++ restResult, none) :=
    hrest.applyAll_append (by omega)
  rw [happly, ← hsize, Nat.zero_add, hfront.shiftOffset_eq, isCut_append_iff,
    isCut_append_iff]

end Edit

namespace Plan

/-- An edit's text stands where it landed. -/
theorem slice?_landing {text result : Text} {front behind : List Edit} {e : Edit}
    (hnodup : (front ++ e :: behind).Nodup)
    (h : Edit.Rewrites 0 text (front ++ e :: behind) result) :
    result.slice? (landing (front ++ e :: behind) e) = some e.text := by
  have hle := h.endOf_le
  obtain ⟨first, rest, firstResult, restResult, rfl, rfl, hsize, hfirst, hrest⟩ :=
    h.split
  obtain ⟨distance, hdistance⟩ := Nat.exists_eq_add_of_le hle
  unfold landing
  simp only [takeWhile_ne_append hnodup, hdistance, ← hsize, Nat.zero_add,
    hfirst.shiftOffset_eq]
  cases hrest with
  | @edit _ kept removed tail tailResult _ _ hstart _ _ =>
    have hkept : kept.size = distance := by omega
    rw [← hkept, ← size_append]
    have := slice?_append (firstResult ++ kept) e.text tailResult
    simpa using this

/-! ## Where a selection is moved -/

variable {text result : Text} {own : TagEdit} {front behind : List Edit}

theorem coe_landing_start {e : Edit} (hnodup : (front ++ e :: behind).Nodup)
    (h : Edit.Rewrites 0 text (front ++ e :: behind) result) :
    ((landing (front ++ e :: behind) e).start : Int) =
      e.span.start + Edit.totalDelta front := by
  unfold landing
  simp only [takeWhile_ne_append hnodup]
  exact h.coe_shiftOffset h.endOf_le

theorem coe_landing_stop {e : Edit} (hnodup : (front ++ e :: behind).Nodup)
    (h : Edit.Rewrites 0 text (front ++ e :: behind) result) :
    ((landing (front ++ e :: behind) e).stop : Int) = e.span.stop + Edit.totalDelta
      (front ++ [e]) := by
  have hstart := coe_landing_start hnodup h
  have hle := (h.ascending.le e (by simp)).2
  have hstop : (landing (front ++ e :: behind) e).stop =
      (landing (front ++ e :: behind) e).start + e.text.size := rfl
  simp only [Edit.totalDelta_append, Edit.totalDelta_cons, Edit.totalDelta_nil,
    Edit.delta, Span.length]
  omega

/-- Edits in front of another one end before it does. -/
theorem stop_le_of_mem_front {e : Edit}
    (h : Edit.Rewrites 0 text (front ++ e :: behind) result) :
    ∀ f ∈ front ++ [e], f.span.stop ≤ e.span.stop := by
  intro f hf
  have hasc := h.ascending
  rcases List.mem_append.1 hf with hf | hf
  · have hle := hasc.right f hf e List.mem_cons_self
    have := (hasc.le e (by simp)).2
    omega
  · obtain rfl := List.mem_singleton.1 hf
    exact Nat.le_refl _

theorem moveSelection_ordered (edits : List Edit) (own : TagEdit) :
    (moveSelection edits own).start ≤ (moveSelection edits own).stop :=
  Nat.le_max_right _ _

/-- The start is moved by the edits up to the selection's own opener. -/
theorem moveSelection_start (hnodup : (front ++ own.opener :: behind).Nodup)
    (h : Edit.Rewrites 0 text (front ++ own.opener :: behind) result)
    (hopener : own.opener.span.stop ≤ own.origin.start) :
    (moveSelection (front ++ own.opener :: behind) own).start =
      Span.shiftOffset own.origin.start
        (Edit.totalDelta (front ++ [own.opener])) := by
  have hcount : deltaBefore own.origin.start (front ++ [own.opener]) =
      Edit.totalDelta (front ++ [own.opener]) :=
    deltaBefore_eq_totalDelta fun e he =>
      Nat.le_trans (stop_le_of_mem_front h e he) hopener
  unfold moveSelection shiftThrough
  simp only [takeWhile_ne_append hnodup, find?_append_cons, Option.toList_some,
    hcount]

/-- The end is moved by those edits before the selection's own closer that
end at or before it. -/
theorem moveSelection_stop (hnodup : (front ++ own.closer :: behind).Nodup) :
    (moveSelection (front ++ own.closer :: behind) own).stop =
      max (Span.shiftOffset own.origin.stop (deltaBefore own.origin.stop front))
        (moveSelection (front ++ own.closer :: behind) own).start := by
  unfold moveSelection shiftThrough
  simp only [takeWhile_ne_append hnodup]

/-- Behind its own opener the end is moved by more than the start only through the
edits between opener and closer. -/
theorem moveSelection_stop_between {between : List Edit}
    (hnodup : (front ++ own.opener :: between ++ own.closer :: behind).Nodup)
    (h : Edit.Rewrites 0 text
      (front ++ own.opener :: between ++ own.closer :: behind) result)
    (hopener : own.opener.span.stop ≤ own.origin.stop) :
    (moveSelection (front ++ own.opener :: between ++ own.closer :: behind)
      own).stop =
      max (Span.shiftOffset own.origin.stop
          (Edit.totalDelta (front ++ [own.opener])
            + deltaBefore own.origin.stop between))
        (moveSelection (front ++ own.opener :: between ++ own.closer :: behind)
          own).start := by
  have hform : front ++ own.opener :: between ++ own.closer :: behind =
      front ++ own.opener :: (between ++ own.closer :: behind) := by simp
  have hfront : ∀ e ∈ front ++ [own.opener],
      e.span.stop ≤ own.origin.stop := fun e he =>
    Nat.le_trans (stop_le_of_mem_front (hform ▸ h) e he) hopener
  rw [moveSelection_stop hnodup, List.append_cons front, deltaBefore_append,
    deltaBefore_eq_totalDelta hfront]

/-- With no edits between its own two, a selection is moved by those up to its
opener. -/
theorem moveSelection_neighbours
    (hnodup : (front ++ own.opener :: own.closer :: behind).Nodup)
    (h : Edit.Rewrites 0 text (front ++ own.opener :: own.closer :: behind) result)
    (hopener : own.opener.span.stop ≤ own.origin.start)
    (horigin : own.origin.start ≤ own.origin.stop) :
    moveSelection (front ++ own.opener :: own.closer :: behind) own =
      own.origin.shift (Edit.totalDelta (front ++ [own.opener])) := by
  have hform : front ++ own.opener :: own.closer :: behind =
      front ++ own.opener :: [] ++ own.closer :: behind := by simp
  have hstart := moveSelection_start hnodup h hopener
  have hstop := moveSelection_stop_between (hform ▸ hnodup) (hform ▸ h)
    (Nat.le_trans hopener horigin)
  rw [← hform, hstart, deltaBefore, Int.add_zero] at hstop
  have hle :
      Span.shiftOffset own.origin.start (Edit.totalDelta (front ++ [own.opener])) ≤
      Span.shiftOffset own.origin.stop
        (Edit.totalDelta (front ++ [own.opener])) := by
    unfold Span.shiftOffset
    omega
  rw [Nat.max_eq_left hle] at hstop
  rw [Span.shift, ← hstart, ← hstop]

/-- With no edits but its own, a selection is moved by the change of its opener. -/
theorem moveSelection_pair (hne : own.opener ≠ own.closer)
    (hopener : own.opener.span.stop ≤ own.origin.start)
    (horigin : own.origin.start ≤ own.origin.stop) :
    moveSelection [own.opener, own.closer] own = own.selection := by
  have hbefore : [own.opener, own.closer].takeWhile (· ≠ own.closer) =
      [own.opener] := by
    rw [List.takeWhile_cons_of_pos (by simpa using hne)]
    simp
  have hstop : own.opener.span.stop ≤ own.origin.stop := Nat.le_trans hopener horigin
  unfold moveSelection shiftThrough
  simp only [hbefore, deltaBefore, List.takeWhile_cons, List.find?_cons, ne_eq,
    not_true, decide_false, decide_true, Bool.false_eq_true, if_false,
    Option.toList_some, List.nil_append, hopener, hstop, if_true, Int.add_zero]
  rw [Nat.max_eq_left (by unfold Span.shiftOffset; omega)]
  rfl

end Plan

end TemplateTags
