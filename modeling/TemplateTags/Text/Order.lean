import TemplateTags.Text.Basic
/-!
# Order of texts

Texts are in code point order: the first character in which two texts differ
decides, and a text comes before those that go on from it (`Text.isBefore`). Of
two different texts one is before the other (`isBefore_of_ne`).
-/

namespace TemplateTags.Text

/-- Whether a text comes before another one. -/
def isBefore : Text → Text → Bool
  | _, [] => false
  | [], _ :: _ => true
  | a :: s, b :: t => a.toNat < b.toNat || (a == b && isBefore s t)

/-- Whether a text is another one or comes before it. -/
def isAtMost (a b : Text) : Bool := !isBefore b a

theorem isBefore_self (a : Text) : isBefore a a = false := by
  induction a with
  | nil => rfl
  | cons c rest ih => simp [isBefore, ih]

theorem isBefore_trans {a b c : Text} (hab : isBefore a b) (hbc : isBefore b c) :
    isBefore a c := by
  induction a generalizing b c with
  | nil =>
    cases b with
    | nil => simp [isBefore] at hab
    | cons y t => cases c <;> simp_all [isBefore]
  | cons x s ih =>
    cases b with
    | nil => simp [isBefore] at hab
    | cons y t =>
      cases c with
      | nil => simp [isBefore] at hbc
      | cons z u =>
        simp only [isBefore, Bool.or_eq_true, decide_eq_true_eq, Bool.and_eq_true,
          beq_iff_eq] at *
        rcases hab with hxy | ⟨rfl, hst⟩
        · rcases hbc with hyz | ⟨rfl, -⟩
          · exact .inl (by omega)
          · exact .inl hxy
        · rcases hbc with hyz | ⟨rfl, htu⟩
          · exact .inl hyz
          · exact .inr ⟨rfl, ih hst htu⟩

theorem isBefore_of_ne {a b : Text} (hne : a ≠ b) (h : isBefore a b = false) :
    isBefore b a := by
  induction a generalizing b with
  | nil => cases b <;> simp_all [isBefore]
  | cons x s ih =>
    cases b with
    | nil => rfl
    | cons y t =>
      simp only [isBefore, Bool.or_eq_false_iff, decide_eq_false_iff_not] at h
      simp only [isBefore, Bool.or_eq_true, decide_eq_true_eq, Bool.and_eq_true,
        beq_iff_eq]
      by_cases hxy : x = y
      · subst hxy
        exact .inr ⟨rfl, ih (by simpa using hne) (by simpa using h.2)⟩
      · have : x.toNat ≠ y.toNat := fun heq => hxy (Char.toNat_inj.1 heq)
        exact .inl (by omega)

theorem isAtMost_total (a b : Text) : isAtMost a b || isAtMost b a := by
  unfold isAtMost
  by_cases hne : a = b
  · subst hne
    simp [isBefore_self]
  · cases h : isBefore b a with
    | false => simp
    | true =>
      cases h' : isBefore a b with
      | false => simp
      | true =>
        have := isBefore_trans h h'
        rw [isBefore_self] at this
        cases this

theorem isAtMost_trans {a b c : Text} (hab : isAtMost a b) (hbc : isAtMost b c) :
    isAtMost a c := by
  unfold isAtMost at hab hbc ⊢
  rw [Bool.not_eq_true'] at hab hbc ⊢
  cases hca : isBefore c a with
  | false => rfl
  | true =>
    by_cases hne : a = b
    · subst hne
      rw [hca] at hbc
      cases hbc
    · -- The text in the middle is behind the first one, and so behind the last one.
      have := isBefore_trans hca (isBefore_of_ne (Ne.symm hne) hab)
      rw [hbc] at this
      cases this

end TemplateTags.Text
