import TemplateTags.Proofs.Dialect.Families
/-!
# Openers behind braces

An opener that is written behind a text is found there, unless a match that begins
in the text goes on in the opener. Only openers that begin with a brace can be met
like this, by a brace in front of them. A scan takes the braces of a run two at a
time (`Braced.resumeAfter_replicate`), so it comes to what follows an even number
of them (`Braced.reached`), while the last of an odd number is taken together with
the brace that follows. Then an opener of two braces is found, whatever was
written (`Family.findLast?_opener`).
-/

namespace TemplateTags

open Text

/-- How many braces a text ends with. -/
def Text.trailingBraces (text : Text) : Nat :=
  (text.reverse.takeWhile (· = '{')).length

theorem Text.exists_append_braces (text : Text) :
    ∃ front, text = front ++ List.replicate text.trailingBraces '{' ∧
      front.getLast? ≠ some '{' := by
  refine ⟨(text.reverse.dropWhile (· = '{')).reverse, ?_, ?_⟩
  · have hrun : text.reverse.takeWhile (· = '{') =
        List.replicate text.trailingBraces '{' := by
      rw [List.eq_replicate_iff]
      refine ⟨rfl, fun c hc => ?_⟩
      simpa using List.all_eq_true.1 List.all_takeWhile _ hc
    rw [← List.reverse_replicate, ← hrun, ← List.reverse_append,
      List.takeWhile_append_dropWhile, List.reverse_reverse]
  · intro h
    rw [List.getLast?_reverse] at h
    have hstop := List.head?_dropWhile_not (fun c => decide (c = '{')) text.reverse
    simp [h] at hstop

theorem Text.trailingBraces_concat (text : Text) :
    (text ++ ['{']).trailingBraces = text.trailingBraces + 1 := by
  simp [trailingBraces]

namespace Dialect

/-- Each opener is a brace and one more character, and two braces are one. -/
structure Braced (d : Dialect) : Prop where
  opener : ∀ s ∈ Addon.ranked .left d.addons, ∃ c, d.opener ++ s = ['{', c]
  double : ∀ (offset : Nat) (rest : Text),
    d.openerMatcher.pattern.firstEnd? ⟨offset, '{' :: '{' :: rest⟩ =
      some ⟨offset + 2, rest⟩
  closer : d.closer.head? ≠ some '{'

variable {d : Dialect}

/-- Matches that begin in a text without a brace at its end do not go past it. -/
theorem Braced.resumeAfter_le (h : d.Braced) (hd : d.Compiled) {front : Text}
    (hfront : front.getLast? ≠ some '{') (rest : Text) :
    d.openerMatcher.resumeAfter 0
      (d.openerMatcher.pattern.occurrencesIn 0 front rest) ≤ front.size := by
  apply Matcher.resumeAfter_le (Nat.zero_le _)
  intro p hp
  obtain ⟨place, hplace, hp⟩ := List.mem_filterMap.1 hp
  obtain ⟨stop, hstop, rfl⟩ := Option.map_eq_some_iff.1 hp
  obtain ⟨before, later, rfl, hne, rfl⟩ := Cursor.mem_allIn_iff.1 hplace
  obtain ⟨s, hs, happ, hoffset⟩ := hd.openerEnd_some hstop
  obtain ⟨c, hc⟩ := h.opener s hs
  simp only [hc] at happ hoffset ⊢
  match later, hne with
  | [x], _ =>
    obtain ⟨rfl, -⟩ := List.cons.inj happ
    simp at hfront
  | x :: y :: later, _ =>
    obtain ⟨hx, happ⟩ := List.cons.inj happ
    obtain ⟨hy, -⟩ := List.cons.inj happ
    simp only [hoffset, hx, hy, size_append, size_cons, size_nil]
    omega

/-- A closer does not begin in a run of braces. -/
theorem Braced.contains_replicate (h : d.Braced) (hd : d.Compiled) {rest : Text}
    (n : Nat) (hrest : contains d.closer rest = false) :
    contains d.closer (List.replicate n '{' ++ rest) = false := by
  induction n with
  | zero => exact hrest
  | succ n ih =>
    rw [List.replicate_succ, List.cons_append, contains, ih, Bool.or_false]
    obtain ⟨c, tail, hcloser⟩ := List.exists_cons_of_ne_nil hd.closer_ne_nil
    have hne := h.closer
    rw [hcloser, List.head?_cons, Ne, Option.some.injEq] at hne
    rw [hcloser, List.isPrefixOf_cons_cons, beq_false_of_ne hne, Bool.false_and]

/-- A scan takes the braces of a run two at a time. -/
theorem Braced.resumeAfter_replicate (h : d.Braced) (hd : d.Compiled)
    {rest : Text} (hrest : contains d.closer rest = false) (k : Nat)
    {offset resume : Nat} (hresume : resume ≤ offset) :
    d.openerMatcher.resumeAfter resume
      (d.openerMatcher.pattern.occurrencesIn offset (List.replicate (2 * k) '{')
        rest) ≤ offset + 2 * k := by
  induction k generalizing offset resume with
  | zero => exact hresume
  | succ k ih =>
    have hcounts :
        d.openerMatcher.rejects (List.replicate (2 * k) '{' ++ rest) = false := by
      rw [hd.rejects_opener]
      exact h.contains_replicate hd (2 * k) hrest
    have hnext := ih (Nat.le_refl (offset + 2))
    have hsize : Char.utf8Size '{' = 1 := rfl
    have hrun : List.replicate (2 * (k + 1)) '{' =
        '{' :: '{' :: List.replicate (2 * k) '{' := rfl
    have htake : ¬ (decide (offset < resume) ||
        d.openerMatcher.rejects (List.replicate (2 * k) '{' ++ rest)) = true := by
      rw [hcounts, Bool.or_false, decide_eq_true_eq]
      omega
    rw [hrun, Pattern.occurrencesIn]
    simp only [Cursor.allIn, List.filterMap_cons, List.cons_append, hsize,
      h.double, Option.map_some, Matcher.resumeAfter, if_neg htake]
    -- The second brace was taken with the first one, so no match that
    -- begins there counts.
    cases d.openerMatcher.pattern.firstEnd?
        ⟨offset + 1, '{' :: (List.replicate (2 * k) '{' ++ rest)⟩ with
    | none =>
      simp only [Option.map_none]
      exact Nat.le_trans hnext (by omega)
    | some e =>
      have hskip : (decide (offset + 1 < offset + 2) ||
          d.openerMatcher.rejects e.rest) = true := by simp
      simp only [Option.map_some, Matcher.resumeAfter, if_pos hskip]
      exact Nat.le_trans hnext (by omega)

/-- A scan comes to the end of a text that ends with an even number of braces. -/
theorem Braced.reached (h : d.Braced) (hd : d.Compiled) {front rest : Text}
    (hfront : front.trailingBraces % 2 = 0)
    (hrest : contains d.closer rest = false) :
    d.openerMatcher.resumeAfter 0
      (d.openerMatcher.pattern.occurrencesIn 0 front rest) ≤ front.size := by
  obtain ⟨before, happ, hbefore⟩ := exists_append_braces front
  obtain ⟨k, hk⟩ : ∃ k, front.trailingBraces = 2 * k :=
    ⟨front.trailingBraces / 2, by omega⟩
  have hsize : ∀ n, size (List.replicate n '{') = n := by
    intro n
    induction n with
    | zero => rfl
    | succ n ih =>
      rw [List.replicate_succ, size_cons, ih]
      exact Nat.add_comm 1 n
  rw [hk] at happ
  have hle := h.resumeAfter_le hd hbefore (List.replicate (2 * k) '{' ++ rest)
  have hrun := h.resumeAfter_replicate hd hrest k hle
  rw [happ, Pattern.occurrencesIn_append, Matcher.resumeAfter_append, size_append,
    hsize, Nat.zero_add]
  exact hrun

/-- An opener behind an even number of braces is found. -/
theorem Braced.findLast?_eq (h : d.Braced) (hd : d.Compiled)
    {front opener gap : Text} (hfront : front.trailingBraces % 2 = 0)
    (hends : d.openerMatcher.pattern.firstEnd? ⟨front.size, opener ++ gap⟩ =
      some ⟨front.size + opener.size, gap⟩)
    (hclosed : contains d.closer (opener ++ gap) = false)
    (hlast : ∀ s ∈ Addon.ranked .left d.addons,
      contains (d.opener ++ s) gap = false) :
    d.openerMatcher.findLast? (front ++ opener ++ gap) =
      some ⟨⟨front.size, front.size + opener.size⟩, opener⟩ := by
  refine hd.findLast?_eq_some_iff.2 ⟨hends, h.reached hd hfront hclosed, ?_, ?_⟩
  · cases hcontains : contains d.closer gap with
    | false => rfl
    | true =>
      have := contains_append_left opener hcontains
      rw [hclosed] at this
      cases this
  · intro before behind s hs hgap
    have := hlast s hs
    rw [contains_iff.2 ⟨before, behind, hgap⟩] at this
    cases this

/-- With a space behind it, an opener of a brace and one more character is found
where it is written, or else an opener of two braces is found that the brace in
front of it begins. -/
theorem Braced.findLast?_space (h : d.Braced) (hd : d.Compiled) {c : Char}
    (front : Text)
    (hends : ∀ offset, d.openerMatcher.pattern.firstEnd? ⟨offset, ['{', c, ' ']⟩ =
      some ⟨offset + size ['{', c], [' ']⟩)
    (hclosed : contains d.closer ['{', '{', c, ' '] = false)
    (hlast : ∀ s ∈ Addon.ranked .left d.addons,
      contains (d.opener ++ s) [c, ' '] = false) :
    ∃ o, d.openerMatcher.findLast? (front ++ ['{', c] ++ [' ']) = some o ∧
      o.text = if front.trailingBraces % 2 = 0 then ['{', c] else ['{', '{'] := by
  by_cases heven : front.trailingBraces % 2 = 0
  · have hread : d.openerMatcher.pattern.firstEnd? ⟨front.size, ['{', c] ++ [' ']⟩ =
        some ⟨front.size + size ['{', c], [' ']⟩ := hends front.size
    rw [if_pos heven]
    refine ⟨_, h.findLast?_eq hd heven hread ?_ ?_, rfl⟩
    · cases hcontains : contains d.closer (['{', c] ++ [' ']) with
      | false => rfl
      | true =>
        have := contains_append_left ['{'] hcontains
        simp only [List.cons_append, List.nil_append] at this
        rw [hclosed] at this
        cases this
    · intro s hs
      cases hcontains : contains (d.opener ++ s) [' '] with
      | false => rfl
      | true =>
        have := contains_append_left [c] hcontains
        rw [List.cons_append, List.nil_append, hlast s hs] at this
        cases this
  · -- The last brace in front is taken together with the one that is written.
    obtain ⟨before, happ, -⟩ := exists_append_braces front
    obtain ⟨n, hn⟩ : ∃ n, front.trailingBraces = n + 1 :=
      ⟨front.trailingBraces - 1, by omega⟩
    rw [hn, List.replicate_succ', ← List.append_assoc] at happ
    have hbraces := trailingBraces_concat (before ++ List.replicate n '{')
    rw [← happ] at hbraces
    have hodd : (before ++ List.replicate n '{').trailingBraces % 2 = 0 := by omega
    have hdouble : d.openerMatcher.pattern.firstEnd?
        ⟨(before ++ List.replicate n '{').size, ['{', '{'] ++ [c, ' ']⟩ =
          some ⟨(before ++ List.replicate n '{').size + size ['{', '{'], [c, ' ']⟩ :=
            h.double _ _
    have hfound := h.findLast?_eq hd hodd hdouble hclosed hlast
    rw [if_neg heven, happ]
    exact ⟨_, by simpa using hfound, rfl⟩

/-- An opener that begins with a character of its own is found where it is written
with a space behind it. -/
theorem Compiled.findLast?_space (hd : d.Compiled) {c : Char} {tail s : Text}
    (front : Text) (hopener : d.opener = c :: tail)
    (hc : ∀ s ∈ Addon.ranked .left d.addons, c ∉ tail ++ s)
    (hends : d.openerMatcher.pattern.firstEnd? ⟨front.size, d.opener ++ s ++ [' ']⟩ =
      some ⟨front.size + (d.opener ++ s).size, [' ']⟩)
    (hclosed : contains d.closer [' '] = false)
    (hlast : ∀ t ∈ Addon.ranked .left d.addons,
      contains (d.opener ++ t) [' '] = false) :
    d.openerMatcher.findLast? (front ++ (d.opener ++ s) ++ [' ']) =
      some ⟨⟨front.size, front.size + (d.opener ++ s).size⟩, d.opener ++ s⟩ := by
  refine hd.findLast?_eq_some_iff.2 ⟨hends, ?_, hclosed, ?_⟩
  · have hreached := hd.reached_of_head front (tail ++ s ++ [' ']) (c := c) ?_
    · rw [hopener]
      exact hreached
    · rw [hopener]
      exact hc
  · intro before behind t ht hgap
    have := hlast t ht
    rw [contains_iff.2 ⟨before, behind, hgap⟩] at this
    cases this

/-- In front of a space each opener is read with its whole symbol. -/
theorem Compiled.openerEnd_space (hd : d.Compiled)
    (hapart : (Addon.ranked .left d.addons).Pairwise fun t s => ¬ t <+: s ++ [' '])
    {s : Text} (hs : s ∈ Addon.ranked .left d.addons) (offset : Nat) :
    d.openerMatcher.pattern.firstEnd? ⟨offset, d.opener ++ s ++ [' ']⟩ =
      some ⟨offset + (d.opener ++ s).size, [' ']⟩ := by
  obtain ⟨before, after, hranked⟩ := List.append_of_mem hs
  rw [hranked] at hapart
  obtain ⟨-, -, hbefore⟩ := List.pairwise_append.1 hapart
  exact hd.openerEnd_eq offset hranked fun t ht => hbefore t ht s List.mem_cons_self

end Dialect

namespace Family

theorem braced_mustache : mustache.dialect.Braced := by
  have hranked :
      Addon.ranked .left mustache.dialect.addons = [] ++ [] :: [] := by decide
  refine ⟨?_, ?_, by decide⟩
  · rw [hranked]
    intro s hs
    obtain rfl := List.mem_singleton.1 hs
    exact ⟨'{', rfl⟩
  · intro offset rest
    exact (compiled mustache).openerEnd_eq offset hranked (by simp)

theorem braced_bracePercent : bracePercent.dialect.Braced := by
  have hranked : Addon.ranked .left bracePercent.dialect.addons =
      [['%']] ++ ['{'] :: [] := by decide
  refine ⟨?_, ?_, by decide⟩
  · rw [hranked]
    intro s hs
    rcases List.mem_cons.1 hs with rfl | hs
    · exact ⟨'%', rfl⟩
    · obtain rfl := List.mem_singleton.1 hs
      exact ⟨'{', rfl⟩
  · intro offset rest
    exact (compiled bracePercent).openerEnd_eq offset hranked (by simp)

/-- The openers of ERB and PHP are found behind any text. -/
theorem findLast?_bare {f : Family} (hf : f = erb ∨ f = php) {s : Text}
    (hs : s ∈ Addon.ranked .left f.dialect.addons) (front : Text) :
    f.dialect.openerMatcher.findLast? (front ++ (f.dialect.opener ++ s) ++ [' ']) =
      some ⟨⟨front.size, front.size + (f.dialect.opener ++ s).size⟩,
        f.dialect.opener ++ s⟩ := by
  rcases hf with rfl | rfl
  · have hends := (compiled erb).openerEnd_space (by decide) hs front.size
    exact (compiled erb).findLast?_space front rfl (by decide) hends
      (by decide) (by decide)
  · have hends := (compiled php).openerEnd_space (by decide) hs front.size
    exact (compiled php).findLast?_space front rfl (by decide) hends
      (by decide) (by decide)

theorem findLast?_mustache (front : Text) :
    ∃ o, mustache.dialect.openerMatcher.findLast? (front ++ ['{', '{'] ++ [' ']) =
      some o ∧
      o.text = ['{', '{'] := by
  have hd := compiled mustache
  obtain ⟨o, ho, htext⟩ := braced_mustache.findLast?_space hd front
    (fun offset => braced_mustache.double offset [' ']) (by decide) (by decide)
  rw [ite_self] at htext
  exact ⟨o, ho, htext⟩

theorem findLast?_bracePercent {c : Char} (hc : c ∈ ['%', '{']) (front : Text) :
    ∃ o, bracePercent.dialect.openerMatcher.findLast?
      (front ++ ['{', c] ++ [' ']) = some o ∧
      o.text = if front.trailingBraces % 2 = 0 then ['{', c] else ['{', '{'] := by
  have hd := compiled bracePercent
  have hranked : [c] ∈ Addon.ranked .left bracePercent.dialect.addons := by
    have : Addon.ranked .left bracePercent.dialect.addons =
        ['%', '{'].map ([·]) := by decide
    rw [this]
    exact List.mem_map_of_mem hc
  have hends := hd.openerEnd_space (by decide) hranked
  have hsign : c = '%' ∨ c = '{' := by simpa using hc
  have hclosed :
      contains bracePercent.dialect.closer ['{', '{', c, ' '] = false := by
    rcases hsign with rfl | rfl <;> decide
  have hlast : ∀ s ∈ Addon.ranked .left bracePercent.dialect.addons,
      contains (bracePercent.dialect.opener ++ s) [c, ' '] = false := by
    rcases hsign with rfl | rfl <;> decide
  exact braced_bracePercent.findLast?_space hd front hends hclosed hlast

/-- An opener with a space behind it is found as it is written, unless a brace in
front of it begins an opener of two braces. -/
theorem findLast?_opener (f : Family) {v : Variant} (hv : v ∈ f.dialect.variants)
    (front : Text) :
    ∃ o, f.dialect.openerMatcher.findLast? (front ++ v.opener ++ [' ']) = some o ∧
      (o.text = v.opener ↔ ¬ (v.opener = ['{', '%'] ∧
        front.trailingBraces % 2 = 1)) := by
  obtain ⟨s, hs, hopener⟩ := (Dialect.written_of_mem_variants hv).opener
  have hbare (hf : f = erb ∨ f = php) :
      ∃ o, f.dialect.openerMatcher.findLast? (front ++ v.opener ++ [' ']) = some o ∧
        (o.text = v.opener ↔ ¬ (v.opener = ['{', '%'] ∧
          front.trailingBraces % 2 = 1)) := by
    rw [hopener]
    refine ⟨_, findLast?_bare hf hs front, ?_⟩
    rcases hf with rfl | rfl <;> simp [show erb.dialect.opener = ['<', '%'] from rfl,
      show php.dialect.opener = ['<', '?'] from rfl]
  cases f with
  | erb => exact hbare (.inl rfl)
  | php => exact hbare (.inr rfl)
  | mustache =>
    obtain rfl := List.mem_singleton.1 hv
    obtain ⟨o, ho, htext⟩ := findLast?_mustache front
    refine ⟨o, ho, ?_⟩
    rw [htext]
    refine iff_of_true rfl fun h => ?_
    have hne : mustache.dialect.opener ≠ ['{', '%'] := by decide
    exact hne h.1
  | bracePercent =>
    have hvariants : bracePercent.dialect.variants =
        [⟨['{', '%'], ['%', '}']⟩, ⟨['{', '{'], ['}', '}']⟩] := rfl
    have hcases : ∃ c ∈ ['%', '{'], v.opener = ['{', c] := by
      rw [hvariants] at hv
      simp only [List.mem_cons, List.not_mem_nil, or_false] at hv
      rcases hv with rfl | rfl
      · exact ⟨'%', by simp, rfl⟩
      · exact ⟨'{', by simp, rfl⟩
    obtain ⟨c, hc, hc'⟩ := hcases
    obtain ⟨o, ho, htext⟩ := findLast?_bracePercent hc front
    rw [hc']
    refine ⟨o, ho, ?_⟩
    rw [htext]
    by_cases heven : front.trailingBraces % 2 = 0
    · rw [if_pos heven]
      exact iff_of_true rfl fun h => by omega
    · rw [if_neg heven]
      have hodd : front.trailingBraces % 2 = 1 := by omega
      simp only [List.mem_cons, List.not_mem_nil, or_false] at hc
      rcases hc with rfl | rfl <;> simp [hodd]

end Family

end TemplateTags
