/-!
# Sorting

`sortBy` sorts by insertion. Elements that compare as equal keep their order.
-/

namespace TemplateTags

variable {α : Type}

/-- Put an element in front of the first one that it may precede. -/
def insertBy (le : α → α → Bool) (x : α) : List α → List α
  | [] => [x]
  | y :: rest => if le x y then x :: y :: rest else y :: insertBy le x rest

/-- The elements in ascending order. -/
def sortBy (le : α → α → Bool) : List α → List α
  | [] => []
  | x :: rest => insertBy le x (sortBy le rest)

theorem perm_insertBy (le : α → α → Bool) (x : α) (xs : List α) :
    (insertBy le x xs).Perm (x :: xs) := by
  induction xs with
  | nil => exact .refl _
  | cons y rest ih =>
    unfold insertBy
    split
    · exact .refl _
    · exact (ih.cons y).trans (.swap x y rest)

theorem perm_sortBy (le : α → α → Bool) (xs : List α) : (sortBy le xs).Perm xs := by
  induction xs with
  | nil => exact .refl _
  | cons x rest ih => exact (perm_insertBy le x _).trans (ih.cons x)

theorem pairwise_insertBy {le : α → α → Bool} (total : ∀ x y, le x y || le y x)
    (trans : ∀ x y z, le x y → le y z → le x z) (x : α) {xs : List α}
    (h : xs.Pairwise (le · ·)) : (insertBy le x xs).Pairwise (le · ·) := by
  induction xs with
  | nil => simp [insertBy]
  | cons y rest ih =>
    obtain ⟨hy, hrest⟩ := List.pairwise_cons.1 h
    unfold insertBy
    split
    next hxy =>
      refine List.pairwise_cons.2 ⟨fun z hz => ?_, h⟩
      rcases List.mem_cons.1 hz with rfl | hz
      · exact hxy
      · exact trans _ _ _ hxy (hy z hz)
    next hxy =>
      refine List.pairwise_cons.2 ⟨fun z hz => ?_, ih hrest⟩
      rcases List.mem_cons.1 ((perm_insertBy le x rest).mem_iff.1 hz) with rfl | hz
      · simpa [hxy] using total z y
      · exact hy z hz

/-- The result is in ascending order. -/
theorem pairwise_sortBy {le : α → α → Bool} (total : ∀ x y, le x y || le y x)
    (trans : ∀ x y z, le x y → le y z → le x z) (xs : List α) :
    (sortBy le xs).Pairwise (le · ·) := by
  induction xs with
  | nil => exact .nil
  | cons x rest ih => exact pairwise_insertBy total trans x ih

/-- What is in ascending order is left as it is. -/
theorem sortBy_eq_self {le : α → α → Bool} {xs : List α}
    (h : xs.Pairwise (le · ·)) : sortBy le xs = xs := by
  induction xs with
  | nil => rfl
  | cons x xs ih =>
    obtain ⟨hx, hxs⟩ := List.pairwise_cons.1 h
    rw [sortBy, ih hxs]
    cases xs with
    | nil => rfl
    | cons y xs => rw [insertBy, if_pos (hx y List.mem_cons_self)]

theorem filter_insertBy {le : α → α → Bool} {tied : α → Bool}
    (h : ∀ x y, tied x → tied y → le x y) (x : α) (xs : List α) :
    (insertBy le x xs).filter tied = (x :: xs).filter tied := by
  induction xs with
  | nil => rfl
  | cons y rest ih =>
    unfold insertBy
    split
    next => rfl
    next hxy =>
      rw [List.filter_cons, ih]
      by_cases hx : tied x
      · have hy : ¬ tied y := fun hy => hxy (h x y hx hy)
        simp only [List.filter_cons, hx, hy, if_true, Bool.false_eq_true, if_false]
      · simp only [List.filter_cons, hx, Bool.false_eq_true, if_false]

/-- Elements that compare as equal keep their order. -/
theorem filter_sortBy {le : α → α → Bool} {tied : α → Bool}
    (h : ∀ x y, tied x → tied y → le x y) (xs : List α) :
    (sortBy le xs).filter tied = xs.filter tied := by
  induction xs with
  | nil => rfl
  | cons x rest ih =>
    rw [sortBy, filter_insertBy h, List.filter_cons, ih, ← List.filter_cons]

end TemplateTags
