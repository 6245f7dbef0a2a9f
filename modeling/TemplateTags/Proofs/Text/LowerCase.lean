import TemplateTags.Text.LowerCase
/-!
# Lower case once and for all

No letter that a text in lower case is written with has a lower-case letter of its
own. For the letters of the table that is checked for each run against all others
(`Text.lowerRuns_avoid`); neither of the two letters that are not replaced one by
one, the dotted capital I and the capital sigma, is what another one becomes, and
what they become stays (`Text.lowered_of_mem_lowerIn`). So a text in lower case
stays as it is (`Text.lowerCase_lowerCase`).
-/

namespace TemplateTags

namespace CaseRun

/-- The lower-case letter that a run gives a letter. -/
def image (run : CaseRun) (code : Nat) : Nat := (code + run.distance).toNat

/-- The letters of a run. -/
def Has (run : CaseRun) (code : Nat) : Prop :=
  run.first ≤ code ∧ code ≤ run.last ∧ (code - run.first) % run.step = 0

/-- No letter of a run becomes a letter of another run: it is compared one by one
only where the runs overlap. -/
def avoids (run other : CaseRun) : Bool :=
  Nat.blt (run.image run.last) other.first ||
    Nat.blt other.last (run.image run.first) ||
    (List.range' run.first (run.last + 1 - run.first)).all fun code =>
      (code - run.first) % run.step != 0 ||
        (run.image code - other.first) % other.step != 0

theorem not_has_image {run other : CaseRun} {code : Nat} (h : run.avoids other)
    (hcode : run.Has code) :
    ¬ other.Has (run.image code) := by
  intro hother
  obtain ⟨hfirst, hlast, hstep⟩ := hcode
  obtain ⟨hfirst', hlast', hstep'⟩ := hother
  have hbelow : run.image run.first ≤ run.image code := by
    unfold image
    omega
  have habove : run.image code ≤ run.image run.last := by
    unfold image
    omega
  unfold avoids at h
  rw [Bool.or_eq_true, Bool.or_eq_true, Nat.blt_eq, Nat.blt_eq,
    List.all_eq_true] at h
  rcases h with (h | h) | h
  · omega
  · omega
  · have hone := h code (List.mem_range'_1.2 ⟨hfirst, by omega⟩)
    simp [hstep, hstep'] at hone

end CaseRun

namespace Text

/-- The dotted capital I alone. -/
def dottedRun : CaseRun := ⟨0x130, 0x130, 1, 0⟩

theorem lowerRuns_avoid : lowerRuns.all fun run =>
    (dottedRun :: lowerRuns).all run.avoids := by decide +kernel

/-- A code point becomes what a run gives it, or it stays. -/
theorem lowerCode_cases (runs : List CaseRun) (code : Nat) :
    lowerCode runs code = code ∨ ∃ run ∈ runs, run.Has code ∧
      lowerCode runs code = run.image code := by
  induction runs with
  | nil => exact .inl rfl
  | cons run rest ih =>
    have hbehind (heq : lowerCode (run :: rest) code = lowerCode rest code) :
        lowerCode (run :: rest) code = code ∨
          ∃ run' ∈ run :: rest, run'.Has code ∧ lowerCode (run :: rest) code =
            run'.image code := by
      rw [heq]
      rcases ih with hsame | ⟨run', hmem, hrun⟩
      · exact .inl hsame
      · exact .inr ⟨run', List.mem_cons_of_mem run hmem, hrun⟩
    by_cases hfirst : code < run.first
    · left
      rw [lowerCode, if_pos hfirst]
    · by_cases hlast : code ≤ run.last
      · by_cases hstep : (code - run.first) % run.step = 0
        · right
          refine ⟨run, List.mem_cons_self,
            ⟨Nat.le_of_not_lt hfirst, hlast, hstep⟩, ?_⟩
          rw [lowerCode, if_neg hfirst, if_pos hlast, if_pos hstep]
          rfl
        · apply hbehind
          rw [lowerCode, if_neg hfirst, if_pos hlast, if_neg hstep]
      · apply hbehind
        rw [lowerCode, if_neg hfirst, if_neg hlast]

/-- A character that stays as it is in lower case, whatever stands around it. -/
structure Lowered (c : Char) : Prop where
  lowerChar_eq : lowerChar c = c
  ne_sigma : c ≠ '\u03a3'
  ne_dotted : c ≠ '\u0130'

instance (c : Char) : Decidable (Lowered c) :=
  decidable_of_iff (lowerChar c = c ∧ c ≠ '\u03a3' ∧ c ≠ '\u0130')
    ⟨fun h => ⟨h.1, h.2.1, h.2.2⟩, fun h => ⟨h.1, h.2, h.3⟩⟩

/-- A letter that a run gives stays as it is. -/
theorem lowered_image {run : CaseRun} (hrun : run ∈ lowerRuns) {code : Nat}
    (hcode : run.Has code) :
    Lowered (Char.ofNat (run.image code)) := by
  have havoids := List.all_eq_true.1 (List.all_eq_true.1 lowerRuns_avoid run hrun)
  have hnone : ∀ other ∈ dottedRun :: lowerRuns, ¬ other.Has (run.image code) :=
    fun other hother => CaseRun.not_has_image (havoids other hother) hcode
  by_cases hvalid : (run.image code).isValidChar
  · have htoNat : (Char.ofNat (run.image code)).toNat = run.image code := by
      rw [Char.ofNat, dif_pos hvalid]
      rfl
    refine ⟨?_, ?_, ?_⟩
    · rcases lowerCode_cases lowerRuns
        (run.image code) with hsame | ⟨other, hother, hhas, -⟩
      · rw [lowerChar, htoNat, hsame]
      · exact absurd hhas (hnone other (List.mem_cons_of_mem _ hother))
    · intro heq
      rw [heq] at htoNat
      -- The capital sigma has a letter of the table, so it is in one of the runs.
      rcases lowerCode_cases lowerRuns 0x3a3 with hsame | ⟨other, hother, hhas, -⟩
      · exact absurd hsame (by decide +kernel)
      · exact hnone other (List.mem_cons_of_mem _ hother) (htoNat ▸ hhas)
    · intro heq
      rw [heq] at htoNat
      refine hnone dottedRun List.mem_cons_self ?_
      rw [← htoNat]
      exact ⟨by decide, by decide, by decide⟩
  · rw [Char.ofNat, dif_neg hvalid]
    decide

/-- Whatever a character becomes stays as it is. -/
theorem lowered_of_mem_lowerIn {before behind : Text} {c lower : Char}
    (h : lower ∈ lowerIn before c behind) :
    Lowered lower := by
  unfold lowerIn at h
  split at h
  next =>
    rw [List.mem_singleton] at h
    rw [h]
    split <;> decide
  next hsigma =>
    split at h
    next =>
      rcases List.mem_cons.1 h with rfl | h
      · decide
      · rw [List.mem_singleton.1 h]
        decide
    next hdotted =>
      rw [List.mem_singleton.1 h]
      rcases lowerCode_cases lowerRuns
        c.toNat with hsame | ⟨run, hrun, hcode, himage⟩
      · have hself : lowerChar c = c := by rw [lowerChar, hsame, Char.ofNat_toNat]
        rw [hself]
        exact ⟨hself, hsigma, hdotted⟩
      · rw [lowerChar, himage]
        exact lowered_image hrun hcode

theorem lowered_of_mem_lowerFrom {before text : Text} {lower : Char}
    (h : lower ∈ lowerFrom before text) :
    Lowered lower := by
  induction text generalizing before with
  | nil => cases h
  | cons c rest ih =>
    rcases List.mem_append.1 h with h | h
    · exact lowered_of_mem_lowerIn h
    · exact ih h

/-- A text of characters that stay as they are stays as it is. -/
theorem lowerFrom_eq_self {text : Text} (h : ∀ c ∈ text, Lowered c)
    (before : Text) : lowerFrom before text = text := by
  induction text generalizing before with
  | nil => rfl
  | cons c rest ih =>
    obtain ⟨hc, hrest⟩ := List.forall_mem_cons.1 h
    rw [lowerFrom, ih hrest, lowerIn, if_neg hc.ne_sigma, if_neg hc.ne_dotted,
      hc.lowerChar_eq]
    rfl

/-- A text in lower case stays as it is. -/
@[simp] theorem lowerCase_lowerCase (text : Text) :
    text.lowerCase.lowerCase = text.lowerCase :=
  lowerFrom_eq_self (fun _ h => lowered_of_mem_lowerFrom h) []

end Text

end TemplateTags
