import TemplateTags.Proofs.Cycle.Planned
import TemplateTags.Proofs.Cycle.Shifting
/-!
# Selections that end at cuts

The edits of a plan that a selection's start is moved by are a first part of the
plan (`Plan.followedByStart`), and so are those that its end is moved by
(`Plan.followedByStop`). A moved selection is a span of the new text if and only
if, with only the other edits applied, the ends of the selection are still cuts of
the text (`Plan.hasSpan_moveSelection_iff`).
-/

namespace TemplateTags

open Text

namespace Plan

/-- The edits that the start of a selection is moved by. -/
def followedByStart (edits : List Edit) (own : TagEdit) : List Edit :=
  edits.takeWhile (· ≠ own.opener) ++ (edits.find? (· = own.opener)).toList

/-- The edits that the end of a selection is moved by. -/
def followedByStop (edits : List Edit) (own : TagEdit) : List Edit :=
  (edits.takeWhile (· ≠ own.closer)).filter (·.span.stop ≤ own.origin.stop)

/-- The text with all but some of the edits applied. -/
def without (text : Text) (edits followed : List Edit) : Text :=
  (Edit.applyAll (edits.filter (· ∉ followed)) text).1

/-- The edits that an end of a selection is not moved by do not take away
the cut that it stands at. An end that would come to stand before the
start is the start. -/
structure KeepsCuts (text : Text) (edits : List Edit) (own : TagEdit) : Prop where
  start : (without text edits (followedByStart edits own)).IsCut own.origin.start
  stop : (moveSelection edits own).start < (moveSelection edits own).stop →
    (without text edits (followedByStop edits own)).IsCut own.origin.stop

instance (text : Text) (edits : List Edit) (own : TagEdit) :
    Decidable (KeepsCuts text edits own) :=
  decidable_of_iff
    ((without text edits (followedByStart edits own)).IsCut own.origin.start ∧
      ((moveSelection edits own).start < (moveSelection edits own).stop →
        (without text edits (followedByStop edits own)).IsCut own.origin.stop))
    ⟨fun h => ⟨h.1, h.2⟩, fun h => ⟨h.1, h.2⟩⟩

/-- The start follows the edits up to its own opener's. -/
theorem followedByStart_append {front behind : List Edit} {own : TagEdit}
    (hnodup : (front ++ own.opener :: behind).Nodup) :
    followedByStart (front ++ own.opener :: behind) own = front ++ [own.opener] := by
  rw [followedByStart, takeWhile_ne_append hnodup, find?_append_cons]
  rfl

theorem filter_notMem_append {first second : List Edit}
    (h : (first ++ second).Nodup) :
    (first ++ second).filter (· ∉ first) = second := by
  obtain ⟨-, -, hdisjoint⟩ := List.nodup_append.1 h
  have hfirst : first.filter (fun e => decide (e ∉ first)) = [] :=
    List.filter_eq_nil_iff.2 fun e he => by simp [he]
  have hsecond : second.filter (fun e => decide (e ∉ first)) = second :=
    List.filter_eq_self.2 fun e he => by
      have : e ∉ first := fun hmem => hdisjoint e hmem e he rfl
      simpa using this
  rw [List.filter_append, hfirst, hsecond, List.nil_append]

/-- Of edits in order, those that end at or before an offset stand in
front of the others. -/
theorem filter_append_filter {offset : Nat} {edits : List Edit}
    (h : Edit.Ascending offset edits) (x : Nat) :
    edits = edits.filter (·.span.stop ≤ x) ++ edits.filter (x < ·.span.stop) := by
  induction edits generalizing offset with
  | nil => rfl
  | cons e rest ih =>
    obtain ⟨-, -, hrest⟩ := h
    by_cases hle : e.span.stop ≤ x
    · have hnot : ¬ x < e.span.stop := by omega
      simp only [List.filter_cons, decide_eq_true_eq, hle, hnot, if_true,
        if_false, List.cons_append]
      rw [← ih hrest]
    · have hlater : ∀ f ∈ rest, ¬ f.span.stop ≤ x ∧ x < f.span.stop := fun f hf => by
        have := hrest.le f hf
        omega
      have hnone : rest.filter (fun f => decide (f.span.stop ≤ x)) = [] :=
        List.filter_eq_nil_iff.2 fun f hf => by simpa using (hlater f hf).2
      have hall : rest.filter (fun f => decide (x < f.span.stop)) = rest :=
        List.filter_eq_self.2 fun f hf => by simpa using (hlater f hf).2
      have hlt : x < e.span.stop := by omega
      simp only [List.filter_cons, decide_eq_true_eq, hle, hlt, if_true, if_false,
        hnone, hall, List.nil_append]

theorem deltaBefore_eq_filter (offset : Nat) (edits : List Edit) :
    deltaBefore offset edits =
      Edit.totalDelta (edits.filter (·.span.stop ≤ offset)) := by
  induction edits with
  | nil => rfl
  | cons e rest ih =>
    by_cases hle : e.span.stop ≤ offset <;> simp [deltaBefore, hle, ih]

theorem endOf_le {offset x : Nat} {edits : List Edit} (hoffset : offset ≤ x)
    (h : ∀ e ∈ edits, e.span.stop ≤ x) : Edit.endOf offset edits ≤ x := by
  induction edits generalizing offset with
  | nil => exact hoffset
  | cons e rest ih =>
    obtain ⟨he, hrest⟩ := List.forall_mem_cons.1 h
    exact ih he hrest

section Moving

variable {text result : Text} {edits : List Edit} {own : TagEdit}
  (hnodup : edits.Nodup)
  (hrewrites : Edit.Rewrites 0 text edits result)

include hnodup hrewrites

theorem isCut_start_iff (hplaced : own.Placed text) (hopener : own.opener ∈ edits) :
    result.IsCut (moveSelection edits own).start ↔
      (without text edits (followedByStart edits own)).IsCut own.origin.start := by
  obtain ⟨front, behind, rfl⟩ := List.append_of_mem hopener
  rw [moveSelection_start hnodup hrewrites hplaced.opener_le, without,
    followedByStart_append hnodup]
  rw [List.append_cons front] at hnodup hrewrites
  rw [List.append_cons front own.opener behind, filter_notMem_append hnodup]
  exact hrewrites.isCut_shift_iff (by
    rw [Edit.endOf_append_singleton]; exact hplaced.opener_le)

theorem isCut_stop_iff (hcloser : own.closer ∈ edits)
    (hlt : (moveSelection edits own).start < (moveSelection edits own).stop) :
    result.IsCut (moveSelection edits own).stop ↔
      (without text edits (followedByStop edits own)).IsCut own.origin.stop := by
  obtain ⟨front, behind, rfl⟩ := List.append_of_mem hcloser
  have hstop := moveSelection_stop hnodup
  rw [Nat.max_def] at hstop
  split at hstop
  next hle => omega
  next =>
    have hfollowed : followedByStop (front ++ own.closer :: behind) own =
        front.filter (·.span.stop ≤ own.origin.stop) := by
      rw [followedByStop, takeWhile_ne_append hnodup]
    obtain ⟨_, _, _, _, _, _, _, hfront, _⟩ := hrewrites.split
    -- The edits that the end follows are a first part of the plan, though they
    -- are picked by where they end.
    have hsplit := filter_append_filter hfront.ascending own.origin.stop
    have hedits : front ++ own.closer :: behind =
        front.filter (·.span.stop ≤ own.origin.stop) ++
        (front.filter (own.origin.stop < ·.span.stop) ++ own.closer :: behind) := by
      rw [← List.append_assoc, ← hsplit]
    rw [hstop, deltaBefore_eq_filter, without, hfollowed]
    rw [hedits] at hnodup hrewrites ⊢
    rw [filter_notMem_append hnodup]
    refine hrewrites.isCut_shift_iff (endOf_le (Nat.zero_le _) fun e he => ?_)
    simpa using (List.mem_filter.1 he).2

/-- A moved selection is a span of the new text if the edits it does not follow
keep the cuts it stands at. -/
theorem hasSpan_moveSelection_iff (hplaced : own.Placed text)
    (hopener : own.opener ∈ edits) (hcloser : own.closer ∈ edits) :
    result.HasSpan (moveSelection edits own) ↔ KeepsCuts text edits own := by
  have hordered := moveSelection_ordered edits own
  have hstart := isCut_start_iff hnodup hrewrites hplaced hopener
  constructor
  · intro h
    exact ⟨hstart.1 h.start, fun hlt =>
      (isCut_stop_iff hnodup hrewrites hcloser hlt).1 h.stop⟩
  · intro h
    refine ⟨hordered, hstart.2 h.start, ?_⟩
    rcases Nat.eq_or_lt_of_le hordered with heq | hlt
    · rw [← heq]
      exact hstart.2 h.start
    · exact (isCut_stop_iff hnodup hrewrites hcloser hlt).2 (h.stop hlt)

end Moving

end Plan

end TemplateTags
