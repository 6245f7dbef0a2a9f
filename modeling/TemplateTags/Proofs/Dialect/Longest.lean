import TemplateTags.Proofs.Dialect.Found
/-!
# The longest symbol that fits

Several symbols of a side can fit at one place of a text, each of them beginning
the next longer one. The symbols are tried in an order in which longer ones come
first (`Addon.pairwise_ranked`), so a delimiter is matched with the longest symbol
that fits (`Compiled.openerEnd_eq_some_iff`, `Compiled.closerEnd_eq_some_iff`).
-/

namespace TemplateTags

open Text

namespace Text

/-- Of two beginnings of a text the one with fewer characters takes fewer bytes. -/
theorem size_le_of_prefix {s t text : Text} (hs : s <+: text) (ht : t <+: text)
    (h : t.length ≤ s.length ∨ t.size ≤ s.size) : t.size ≤ s.size := by
  rcases h with hlength | hsize
  · obtain ⟨rest, rfl⟩ := List.prefix_of_prefix_length_le ht hs hlength
    simp
  · exact hsize

end Text

namespace Addon

theorem precedes_total (a b : Text) : precedes a b || precedes b a := by
  have htotal := isAtMost_total a b
  simp only [precedes, Bool.or_eq_true, Bool.and_eq_true, decide_eq_true_eq,
    beq_iff_eq] at htotal ⊢
  by_cases heq : a.size = b.size
  · rcases htotal with h | h
    · exact .inl (.inr ⟨heq, h⟩)
    · exact .inr (.inr ⟨heq.symm, h⟩)
  · omega

theorem precedes_trans (a b c : Text) (hab : precedes a b) (hbc : precedes b c) :
    precedes a c := by
  simp only [precedes, Bool.or_eq_true, Bool.and_eq_true, decide_eq_true_eq,
    beq_iff_eq] at hab hbc ⊢
  rcases hab with hab | ⟨hab, hat⟩
  · left
    omega
  · rcases hbc with hbc | ⟨hbc, hbt⟩
    · left
      omega
    · exact .inr ⟨hab.trans hbc, isAtMost_trans hat hbt⟩

/-- Symbols that are tried later have no more bytes or no more characters. -/
theorem pairwise_ranked (side : Side) (addons : List Addon) :
    (ranked side addons).Pairwise fun s t =>
      t.length ≤ s.length ∨ t.size ≤ s.size := by
  have hlong : (long side addons).Pairwise fun s t =>
      t.length ≤ s.length ∨ t.size ≤ s.size := by
    refine (pairwise_sortBy precedes_total precedes_trans _).imp ?_
    intro s t h
    simp only [precedes, Bool.or_eq_true, Bool.and_eq_true, decide_eq_true_eq,
      beq_iff_eq] at h
    omega
  have hsingle : ∀ s ∈ single side addons, s.length = 1 :=
    fun s hs => (mem_single_iff.1 hs).2
  unfold ranked
  rw [List.pairwise_append, List.pairwise_append]
  refine ⟨⟨hlong, ?_, ?_⟩, ?_, ?_⟩
  · refine List.Pairwise.imp_of_mem
      ?_ (List.pairwise_of_forall (R := fun _ _ => True) fun _ _ => trivial)
    intro s t hs ht _
    exact .inl (Nat.le_of_eq ((hsingle t ht).trans (hsingle s hs).symm))
  · intro s hs t ht
    have := (mem_long_iff.1 hs).2
    exact .inl (by rw [hsingle t ht]; omega)
  · split <;> simp
  · intro s _ t ht
    split at ht
    · rw [List.mem_singleton.1 ht]
      exact .inl (Nat.zero_le _)
    · cases ht

end Addon

/-- The first text in a list of which each fits is the longest one that fits,
where longer ones come first. -/
theorem findSome?_skip?_eq_some_iff {symbols : List Text} {c e : Cursor}
    {f : Text → Text}
    (hsymbols : symbols.Pairwise fun s t => t.length ≤ s.length ∨ t.size ≤ s.size)
    (hf : ∀ s t, f s <+: c.rest → f t <+: c.rest → ∃ text, s <+: text ∧ t <+: text) :
    symbols.findSome? (fun s => c.skip? (f s)) = some e ↔
      ∃ s ∈ symbols, (c.rest = f s ++ e.rest ∧ e.offset = c.offset + (f s).size) ∧
        ∀ t ∈ symbols, f t <+: c.rest → t.size ≤ s.size := by
  have hfound : ∀ e', symbols.findSome? (fun s => c.skip? (f s)) = some e' →
      ∃ s ∈ symbols, (c.rest = f s ++ e'.rest ∧ e'.offset = c.offset + (f s).size) ∧
        ∀ t ∈ symbols, f t <+: c.rest → t.size ≤ s.size := by
    intro e' h
    obtain ⟨before, s, after, rfl, hskip, hbefore⟩ := List.findSome?_eq_some_iff.1 h
    obtain ⟨hrest, hoffset⟩ := Cursor.skip?_eq_some_iff.1 hskip
    refine ⟨s, by simp, ⟨hrest, hoffset⟩, ?_⟩
    intro t ht hfit
    obtain ⟨later, hlater⟩ := hfit
    have htskip : c.skip? (f t) = some ⟨c.offset + (f t).size, later⟩ :=
      Cursor.skip?_eq_some_iff.2 ⟨hlater.symm, rfl⟩
    rcases List.mem_append.1 ht with hmem | hmem
    · rw [hbefore t hmem] at htskip
      cases htskip
    · rcases List.mem_cons.1 hmem with rfl | hmem
      · exact Nat.le_refl _
      · obtain ⟨-, hpair, -⟩ := List.pairwise_append.1 hsymbols
        obtain ⟨text, hs, ht⟩ := hf s t ⟨e'.rest, hrest.symm⟩ ⟨later, hlater⟩
        exact size_le_of_prefix hs ht ((List.pairwise_cons.1 hpair).1 t hmem)
  refine ⟨hfound e, ?_⟩
  rintro ⟨s, hs, ⟨hrest, hoffset⟩, hlongest⟩
  have hfit : f s <+: c.rest := ⟨e.rest, hrest.symm⟩
  have hskip : c.skip? (f s) = some e := Cursor.skip?_eq_some_iff.2 ⟨hrest, hoffset⟩
  obtain ⟨e', he'⟩ : ∃ e', symbols.findSome? (fun s => c.skip? (f s)) = some e' := by
    rw [← Option.isSome_iff_exists, List.findSome?_isSome_iff]
    exact ⟨s, hs, by rw [hskip]; rfl⟩
  -- What is found is as long as the longest, so it is the longest.
  obtain ⟨s', hs', ⟨hrest', hoffset'⟩, hlongest'⟩ := hfound e' he'
  have hfit' : f s' <+: c.rest := ⟨e'.rest, hrest'.symm⟩
  have hsize : s.size = s'.size :=
    Nat.le_antisymm (hlongest' s hs hfit) (hlongest s' hs' hfit')
  obtain ⟨text, ⟨x, hx⟩, y, hy⟩ := hf s s' hfit hfit'
  obtain ⟨rfl, -⟩ := append_inj_of_size (hx.trans hy.symm) hsize
  have hskip' : c.skip? (f s) = some e' :=
    Cursor.skip?_eq_some_iff.2 ⟨hrest', hoffset'⟩
  rw [he', ← hskip', hskip]

namespace Dialect

/-- The symbols of a side. Without addons only the empty text is one. -/
def IsSymbol (d : Dialect) (side : Side) (s : Text) : Prop :=
  s ∈ d.addons.map (Addon.symbol · side) ∨ d.addons = [] ∧ s = []

variable {d : Dialect}

theorem isSymbol_iff {side : Side} {s : Text} :
    d.IsSymbol side s ↔ s ∈ Addon.ranked side d.addons :=
  Addon.mem_ranked_iff.symm

/-- An opener is matched where it stands, with the longest left symbol that fits. -/
theorem Compiled.openerEnd_eq_some_iff (hd : d.Compiled) {c e : Cursor} :
    d.openerMatcher.pattern.firstEnd? c = some e ↔
      ∃ s, d.IsSymbol .left s ∧ (c.rest = d.opener ++ s ++ e.rest ∧
          e.offset = c.offset + (d.opener ++ s).size) ∧
        ∀ t, d.IsSymbol .left t → t <+: s ++ e.rest → t.size ≤ s.size := by
  simp only [isSymbol_iff]
  rw [hd.openerEnd, findSome?_skip?_eq_some_iff (Addon.pairwise_ranked _ _)]
  · constructor
    · rintro ⟨s, hs, ⟨hrest, hoffset⟩, hlongest⟩
      refine ⟨s, hs, ⟨hrest, hoffset⟩, ?_⟩
      intro t ht hfit
      refine hlongest t ht ?_
      rw [hrest, List.append_assoc, List.prefix_append_right_inj]
      exact hfit
    · rintro ⟨s, hs, ⟨hrest, hoffset⟩, hlongest⟩
      refine ⟨s, hs, ⟨hrest, hoffset⟩, ?_⟩
      intro t ht hfit
      rw [hrest, List.append_assoc, List.prefix_append_right_inj] at hfit
      exact hlongest t ht hfit
  · rintro s t ⟨x, hx⟩ ⟨y, hy⟩
    have happ : s ++ x = t ++ y := by
      rw [List.append_assoc] at hx hy
      exact List.append_cancel_left (hx.trans hy.symm)
    exact ⟨s ++ x, ⟨x, rfl⟩, y, happ.symm⟩

/-- A closer is matched where it stands behind a right symbol, with the
longest one that fits. -/
theorem Compiled.closerEnd_eq_some_iff (hd : d.Compiled) {c e : Cursor} :
    d.closerMatcher.pattern.firstEnd? c = some e ↔
      ∃ s, d.IsSymbol .right s ∧ (c.rest = s ++ d.closer ++ e.rest ∧
          e.offset = c.offset + (s ++ d.closer).size) ∧
        ∀ t, d.IsSymbol .right t → t ++ d.closer <+: s ++ d.closer ++ e.rest →
          t.size ≤ s.size := by
  simp only [isSymbol_iff]
  rw [hd.closerEnd, findSome?_skip?_eq_some_iff (Addon.pairwise_ranked _ _)]
  · constructor
    · rintro ⟨s, hs, ⟨hrest, hoffset⟩, hlongest⟩
      exact ⟨s, hs, ⟨hrest, hoffset⟩, fun t ht hfit => hlongest t ht (hrest ▸ hfit)⟩
    · rintro ⟨s, hs, ⟨hrest, hoffset⟩, hlongest⟩
      exact ⟨s, hs, ⟨hrest, hoffset⟩, fun t ht hfit => hlongest t ht (hrest ▸ hfit)⟩
  · rintro s t ⟨x, hx⟩ ⟨y, hy⟩
    exact ⟨c.rest, ⟨d.closer ++ x, by rw [← hx, List.append_assoc]⟩,
      d.closer ++ y, by
      rw [← hy, List.append_assoc]⟩

end Dialect

end TemplateTags
