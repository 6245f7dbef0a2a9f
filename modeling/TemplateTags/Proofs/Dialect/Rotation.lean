import Mathlib.Dynamics.PeriodicPts.Defs
import TemplateTags.Proofs.Dialect.Found
/-!
# Going through the variants

A tag does not carry its place in the cycle. `Dialect.next` looks it up by how it
is written and takes the first variant with these delimiters, so from a place with
the delimiters of an earlier one it goes on behind the earlier one
(`Dialect.following_variantAt`). The cycle goes around where the first places hold
every variant once and the first variant stands again behind them
(`Dialect.Rotates`), as in a table without two equal addons, and nowhere else
(`Dialect.goesAround_iff`).
-/

namespace TemplateTags.Dialect

open Function (minimalPeriod IsPeriodicPt)

variable {d : Dialect}

/-! ## Places of variants -/

theorem variantAt_congr {i j : Nat}
    (h : i % d.variants.length = j % d.variants.length) :
    d.variantAt i = d.variantAt j := by
  unfold variantAt
  simp only [h]

theorem variantAt_eq_getElem {i : Nat} (hi : i < d.variants.length) :
    d.variantAt i = d.variants[i] := by
  simp only [variantAt, List.get_eq_getElem, Nat.mod_eq_of_lt hi]

/-- A known variant is the one at its index. -/
theorem of_variantIndex? (d : Dialect) {opener closer : Text} {i : Nat}
    (h : d.variantIndex? opener closer = some i) :
    i < d.variants.length ∧ d.variantAt i = ⟨opener, closer⟩ := by
  obtain ⟨hi, hfound, -⟩ := List.findIdx?_eq_some_iff_getElem.1 h
  simp only [Bool.and_eq_true, beq_iff_eq] at hfound
  refine ⟨hi, ?_⟩
  rw [variantAt_eq_getElem hi, ← hfound.1, ← hfound.2]

theorem next_eq_variantAt (d : Dialect) (opener closer : Text) :
    ∃ index, d.next opener closer = d.variantAt index := by
  unfold next
  split
  next index _ => exact ⟨index + 1, rfl⟩
  next => exact ⟨0, rfl⟩

theorem mem_take_variants_iff {k : Nat} (hk : k ≤ d.variants.length) {v : Variant} :
    v ∈ d.variants.take k ↔ ∃ i < k, d.variantAt i = v := by
  rw [List.mem_take_iff_getElem]
  constructor
  · rintro ⟨i, hi, rfl⟩
    exact ⟨i, by omega, variantAt_eq_getElem (by omega)⟩
  · rintro ⟨i, hi, rfl⟩
    exact ⟨i, by omega, (variantAt_eq_getElem (by omega)).symm⟩

theorem nodup_take_variants_iff {k : Nat} (hk : k ≤ d.variants.length) :
    (d.variants.take k).Nodup ↔ ∀ i < k, ∀ j < k,
      d.variantAt i = d.variantAt j → i = j := by
  rw [List.nodup_iff_injective_get]
  have hlength : (d.variants.take k).length = k := List.length_take_of_le hk
  have hget : ∀ i (hi : i < (d.variants.take k).length),
      (d.variants.take k).get ⟨i, hi⟩ = d.variantAt i := by
    intro i hi
    rw [variantAt_eq_getElem (by omega), List.get_eq_getElem, List.getElem_take]
  constructor
  · intro hinjective i hi j hj heq
    rw [← hlength] at hi hj
    rw [← hget i hi, ← hget j hj] at heq
    exact congrArg Fin.val (hinjective heq)
  · intro hdiffer i j heq
    rw [hget, hget] at heq
    exact Fin.ext (hdiffer i (by omega) j (by omega) heq)

/-! ## Variant after variant -/

/-- The variant after another one. -/
def following (d : Dialect) (v : Variant) : Variant := d.next v.opener v.closer

theorem following_mem_variants (d : Dialect) (v : Variant) :
    d.following v ∈ d.variants := by
  obtain ⟨index, hindex⟩ := d.next_eq_variantAt v.opener v.closer
  rw [following, hindex]
  exact d.variantAt_mem index

theorem iterate_following_mem_variants {v : Variant} (hv : v ∈ d.variants)
    (k : Nat) :
    d.following^[k] v ∈ d.variants := by
  cases k with
  | zero => exact hv
  | succ k =>
    rw [Function.iterate_succ_apply']
    exact d.following_mem_variants _

/-- After the variant at a place comes the one behind the first place that
is written like it. -/
theorem following_variantAt (d : Dialect) (i : Nat) :
    ∃ j ≤ i, d.variantAt j = d.variantAt i ∧ d.following (d.variantAt i) =
      d.variantAt (j + 1) := by
  unfold following next
  cases hfound : d.variantIndex? (d.variantAt i).opener (d.variantAt i).closer with
  | none =>
    have hnone := List.findIdx?_eq_none_iff.1 hfound _ (d.variantAt_mem i)
    simp at hnone
  | some j =>
    obtain ⟨hj, -, hfirst⟩ := List.findIdx?_eq_some_iff_getElem.1 hfound
    refine ⟨j, Nat.le_of_not_lt fun hlt => ?_, (d.of_variantIndex? hfound).2, rfl⟩
    have hdiffer := hfirst i hlt
    rw [← variantAt_eq_getElem (Nat.lt_trans hlt hj)] at hdiffer
    simp at hdiffer

/-! ## Cycles that go around -/

/-- As many steps as the cycle has places lead from every variant through all of
them and back to it. -/
def GoesAround (d : Dialect) : Prop :=
  ∀ v ∈ d.variants, d.following^[d.variants.length] v = v ∧
    ∀ w ∈ d.variants, ∃ k, 0 < k ∧ k ≤ d.variants.length ∧ d.following^[k] v = w

/-- The first `k` places hold every variant once, the first variant stands again
behind them, and `k` divides the number of places. -/
structure Rotates (d : Dialect) (k : Nat) : Prop where
  dvd : k ∣ d.variants.length
  nodup : (d.variants.take k).Nodup
  complete : ∀ v ∈ d.variants, v ∈ d.variants.take k
  returns : d.variantAt k = d.variantAt 0

namespace Rotates

variable {k : Nat}

theorem le (h : d.Rotates k) : k ≤ d.variants.length :=
  Nat.le_of_dvd d.length_variants_pos h.dvd

theorem pos (h : d.Rotates k) : 0 < k := by
  obtain ⟨i, hi, -⟩ :=
    (mem_take_variants_iff h.le).1 (h.complete _ (d.variantAt_mem 0))
  omega

/-- Among the first `k` places no variant has been written before, so the
next place is taken. -/
theorem following_variantAt_mod (h : d.Rotates k) (i : Nat) :
    d.following (d.variantAt (i % k)) = d.variantAt ((i + 1) % k) := by
  have hi : i % k < k := Nat.mod_lt i h.pos
  obtain ⟨j, hj, heq, hnext⟩ := d.following_variantAt (i % k)
  obtain rfl : j = i % k :=
    (nodup_take_variants_iff h.le).1 h.nodup j (by omega) _ hi heq
  rw [hnext, ← Nat.mod_add_mod]
  rcases Nat.lt_or_ge (i % k + 1) k with hlt | hge
  · rw [Nat.mod_eq_of_lt hlt]
  · have hlast : i % k + 1 = k := by omega
    rw [hlast, Nat.mod_self, h.returns]

theorem iterate_following (h : d.Rotates k) (i j : Nat) :
    d.following^[j] (d.variantAt (i % k)) = d.variantAt ((i + j) % k) := by
  induction j with
  | zero => rfl
  | succ j ih =>
    rw [Function.iterate_succ_apply', ih, h.following_variantAt_mod, Nat.add_assoc]

theorem goesAround (h : d.Rotates k) : d.GoesAround := by
  intro v hv
  obtain ⟨i, hi, rfl⟩ := (mem_take_variants_iff h.le).1 (h.complete v hv)
  have hiterate := h.iterate_following i
  rw [Nat.mod_eq_of_lt hi] at hiterate
  constructor
  · obtain ⟨rounds, hrounds⟩ := h.dvd
    rw [hiterate, hrounds, Nat.add_mul_mod_self_left, Nat.mod_eq_of_lt hi]
  · intro w hw
    obtain ⟨m, hm, rfl⟩ := (mem_take_variants_iff h.le).1 (h.complete w hw)
    -- A variant in front of the first one is passed in the next round.
    rcases Nat.lt_or_ge i m with hlt | hge
    · refine ⟨m - i, by omega, by have := h.le; omega, ?_⟩
      rw [hiterate, Nat.add_sub_cancel' (Nat.le_of_lt hlt), Nat.mod_eq_of_lt hm]
    · refine ⟨k + m - i, by omega, by have := h.le; omega, ?_⟩
      rw [hiterate, Nat.add_sub_cancel' (by omega), Nat.add_mod_left,
        Nat.mod_eq_of_lt hm]

end Rotates

/-- Until the first variant comes back, the steps from it pass place after place. -/
theorem iterate_following_variantAt_zero (d : Dialect) {i : Nat}
    (hi : i ≤ minimalPeriod d.following (d.variantAt 0)) :
    d.following^[i] (d.variantAt 0) = d.variantAt i := by
  induction i using Nat.strongRecOn with
  | ind i ih =>
    cases i with
    | zero => rfl
    | succ i =>
      obtain ⟨j, hj, heq, hnext⟩ := d.following_variantAt i
      -- What stands at an earlier place as well would have come back too soon.
      have hsame :
          d.following^[j] (d.variantAt 0) = d.following^[i] (d.variantAt 0) := by
        rw [ih j (by omega) (by omega), ih i (by omega) (by omega), heq]
      obtain rfl : j = i :=
        (Function.iterate_eq_iterate_iff_of_lt_minimalPeriod (by omega)
          (by omega)).1 hsame
      rw [Function.iterate_succ_apply', ih j (by omega) (by omega), hnext]

/-- In a cycle that goes around, the places up to the one where the first variant
comes back hold all variants. -/
theorem GoesAround.rotates (h : d.GoesAround) :
    d.Rotates (minimalPeriod d.following (d.variantAt 0)) := by
  obtain ⟨hreturn, hpass⟩ := h _ (d.variantAt_mem 0)
  have hperiodic : IsPeriodicPt d.following d.variants.length (d.variantAt 0) :=
    hreturn
  have hdvd := hperiodic.minimalPeriod_dvd
  have hpos := hperiodic.minimalPeriod_pos d.length_variants_pos
  have hle := Nat.le_of_dvd d.length_variants_pos hdvd
  refine ⟨hdvd, (nodup_take_variants_iff hle).2 fun i hi j hj heq => ?_,
    fun w hw => ?_, ?_⟩
  · rw [← d.iterate_following_variantAt_zero (Nat.le_of_lt hi),
      ← d.iterate_following_variantAt_zero (Nat.le_of_lt hj)] at heq
    exact (Function.iterate_eq_iterate_iff_of_lt_minimalPeriod hi hj).1 heq
  · obtain ⟨k, -, -, hk⟩ := hpass w hw
    have hmod := Nat.mod_lt k hpos
    rw [← Function.iterate_mod_minimalPeriod_eq,
      d.iterate_following_variantAt_zero (Nat.le_of_lt hmod)] at hk
    exact (mem_take_variants_iff hle).2 ⟨_, hmod, hk⟩
  · rw [← d.iterate_following_variantAt_zero (Nat.le_refl _),
      Function.iterate_minimalPeriod]

theorem variantOf_injective (opener closer : Text) :
    Function.Injective (variantOf opener closer) := by
  rintro ⟨left, right⟩ ⟨left', right'⟩ heq
  simp only [variantOf, Variant.mk.injEq, List.append_cancel_left_eq,
    List.append_cancel_right_eq] at heq
  rw [heq.1, heq.2]

/-- Different addons make different variants. -/
theorem rotates_of_nodup (h : d.addons.Nodup) : d.Rotates d.variants.length := by
  have hnodup : d.variants.Nodup := by
    unfold variants
    split
    · exact List.nodup_singleton _
    · exact h.map (variantOf_injective _ _)
  refine ⟨Nat.dvd_refl _, ?_, ?_, variantAt_congr (by simp)⟩
  · rwa [List.take_length]
  · intro v hv
    rwa [List.take_length]

/-- The cycle goes around if and only if some of its first places rotate: they
hold each variant once, and no place behind them is reached. Without two equal
addons all places do. -/
theorem goesAround_iff (d : Dialect) :
    (d.GoesAround ↔ ∃ k, d.Rotates k) ∧ (d.addons.Nodup → d.GoesAround) :=
  ⟨⟨fun h => ⟨_, h.rotates⟩, fun ⟨_, h⟩ => h.goesAround⟩, fun h =>
    (rotates_of_nodup h).goesAround⟩

/-- A table that gives its two addons again in the same order has a cycle that
goes around in two rounds. -/
theorem goesAround_two_rounds : ∃ made,
    compile ['<', '%'] ['%', '>'] [⟨[], []⟩, ⟨['é'], ['-']⟩, ⟨[], []⟩,
      ⟨['é'], ['-']⟩] = .ok made ∧
      ¬ made.addons.Nodup ∧ made.GoesAround := by
  obtain ⟨made, hmade, hdup, hround⟩ : ∃ made,
      compile ['<', '%'] ['%', '>'] [⟨[], []⟩, ⟨['é'], ['-']⟩, ⟨[], []⟩,
        ⟨['é'], ['-']⟩] = .ok made ∧
        ¬ made.addons.Nodup ∧ made.Rotates 2 :=
    ⟨_, rfl, by decide, ⟨by decide, by decide, by decide, by decide⟩⟩
  exact ⟨made, hmade, hdup, (goesAround_iff made).1.2 ⟨2, hround⟩⟩

/-- A table that gives each of two addons twice in a row has a cycle that
does not go around: each variant is followed by itself, so the other one
is never reached. -/
theorem not_goesAround_doubled_addons : ∃ made,
    compile ['<', '%'] ['%', '>'] [⟨[], []⟩, ⟨[], []⟩, ⟨['='], []⟩,
      ⟨['='], []⟩] = .ok made ∧
      made.variants.length = 4 ∧ (∀ v ∈ made.variants, made.following v = v) ∧
        ¬ made.GoesAround := by
  obtain ⟨made, hmade, hlength, hfixed, hbare, hequals⟩ : ∃ made,
      compile ['<', '%'] ['%', '>'] [⟨[], []⟩, ⟨[], []⟩, ⟨['='], []⟩,
        ⟨['='], []⟩] = .ok made ∧
        made.variants.length = 4 ∧ (∀ v ∈ made.variants, made.following v = v) ∧
        ⟨['<', '%'], ['%', '>']⟩ ∈ made.variants ∧ ⟨['<', '%', '='], ['%', '>']⟩ ∈
          made.variants :=
    ⟨_, rfl, by decide, by decide, by decide, by decide⟩
  refine ⟨made, hmade, hlength, hfixed, fun haround => ?_⟩
  obtain ⟨k, -, -, hk⟩ := (haround _ hbare).2 _ hequals
  rw [Function.iterate_fixed (hfixed _ hbare)] at hk
  exact absurd hk (by decide)

end TemplateTags.Dialect
