import TemplateTags.Dialect.Family
import TemplateTags.Proofs.Dialect.Reading
/-!
# How the built-in dialects read their tags back

A text next to a delimiter can begin or end with symbols that are then read as
part of the delimiter (`Family.joining`). Where it does not (`Family.Separated`),
a tag that is found is found as well when it is written as another variant of its
family (`Family.readsOpener_of_separated`, `Family.readsCloser_of_separated`).
-/

namespace TemplateTags.Family

open Text Dialect

/-- The symbols that can be read as part of a delimiter though they stand next to
it. The bare opener or closer takes in each symbol of its side, and a closer of
two braces takes in what could be the first half of a closer. -/
def joining : Family → Side → List Text
  | erb, .left => [['#'], ['-'], ['=']]
  | erb, .right => [['-']]
  | bracePercent, .right => [['%'], ['}']]
  | php, .left => [['p', 'h', 'p'], ['#'], ['=']]
  | _, _ => []

/-- What stands behind the opener does not begin with a symbol that the
opener can take in, and what stands in front of the closer does not end with
one that the closer can. -/
def Separated (f : Family) (left right : Text) : Prop :=
  (∀ s ∈ f.joining .left, ¬ s <+: left) ∧ ∀ s ∈ f.joining .right, ¬ s <:+ right

instance (f : Family) (left right : Text) : Decidable (f.Separated left right) :=
  inferInstanceAs (Decidable (_ ∧ _))

variable {front opener left right closer behind : Text}

/-! ## Openers -/

/-- The openers of ERB and PHP are read with each symbol, and without
one if none follows. -/
theorem readsOpener_of_bare {f : Family} (hf : f = erb ∨ f = php) (first : Text)
    {s : Text} (hs : s ∈ Addon.ranked .left f.dialect.addons)
    (hleft : s = [] → ∀ symbol ∈ f.joining .left, ¬ symbol <+: left)
    (h : ReadsOpener f.dialect front opener (first ++ left)) :
    ReadsOpener f.dialect front (f.dialect.opener ++ s) left := by
  rcases hf with rfl | rfl
  · have hranked : Addon.ranked .left erb.dialect.addons = erb.joining .left
        ++ [[]] := by decide
    exact (compiled erb).readsOpener_of_bare h rfl (by decide) hranked
      (by simp [joining]) hs hleft
  · have hranked : Addon.ranked .left php.dialect.addons = php.joining .left
        ++ [[]] := by decide
    exact (compiled php).readsOpener_of_bare h rfl (by decide) hranked
      (by simp [joining]) hs hleft

theorem contains_singleton (c : Char) (text : Text) :
    contains [c] text = decide (c ∈ text) := by
  rw [Bool.eq_iff_iff, contains_iff, decide_eq_true_iff]
  constructor
  · rintro ⟨before, behind, rfl⟩
    simp
  · intro h
    obtain ⟨before, behind, rfl⟩ := List.append_of_mem h
    exact ⟨before, behind, by simp⟩

/-- The openers of Jinja are as long as each other and both begin with a brace, so
a scan comes to the second one as it comes to the first. -/
theorem reached_bracePercent {a b : Char} (ha : a ∈ ['%', '{'])
    (hb : b ∈ ['%', '{']) (front left : Text) :
    bracePercent.dialect.openerMatcher.resumeAfter 0
        (bracePercent.dialect.openerMatcher.pattern.occurrencesIn 0 front
          (['{', a] ++ left)) =
      bracePercent.dialect.openerMatcher.resumeAfter 0
        (bracePercent.dialect.openerMatcher.pattern.occurrencesIn 0 front
          (['{', b] ++ left)) := by
  refine Matcher.resumeAfter_occurrencesIn_congr fun before rest offset _ hne => ?_
  have hranked : Addon.ranked .left bracePercent.dialect.addons =
      [['%'], ['{']] := by decide
  have hopener : bracePercent.dialect.opener = ['{'] := rfl
  have hcloser : bracePercent.dialect.closer = ['}'] := rfl
  rw [(compiled bracePercent).openerEnd, (compiled bracePercent).openerEnd]
  simp only [(compiled bracePercent).rejects_opener, hranked, hopener, hcloser,
    contains_singleton]
  simp only [List.mem_cons, List.not_mem_nil, or_false] at ha hb
  match rest, hne with
  | [x], _ =>
    by_cases hx : '{' = x
    · subst hx
      rcases ha with rfl | rfl <;> rcases hb with rfl | rfl <;> simp [Cursor.skip?]
    · simp [Cursor.skip?, hx]
  | x :: y :: rest, _ =>
    by_cases hx : '{' = x
    · subst hx
      by_cases hpercent : '%' = y
      · subst hpercent
        rcases ha with rfl | rfl <;> rcases hb with rfl | rfl <;> simp [Cursor.skip?]
      · by_cases hbrace : '{' = y
        · subst hbrace
          rcases ha with rfl | rfl <;> rcases hb with rfl | rfl <;>
            simp [Cursor.skip?]
        · simp [Cursor.skip?, hpercent, hbrace]
    · simp [Cursor.skip?, hx]

theorem readsOpener_bracePercent {a b : Char} (ha : a ∈ ['%', '{'])
    (hb : b ∈ ['%', '{'])
    (h : ReadsOpener bracePercent.dialect front ['{', a] left) :
    ReadsOpener bracePercent.dialect front ['{', b] left := by
  refine ReadsOpener.transfer [] h
    ?_ (reached_bracePercent ha hb front left ▸ h.reached)
  have hread (before after : List Text)
      (hranked : [['%'], ['{']] = before ++ [b] :: after)
      (hbefore : ∀ t ∈ before, ¬ t <+: [b] ++ left) :
      bracePercent.dialect.openerMatcher.pattern.firstEnd?
        ⟨front.size, ['{', b] ++ left⟩ =
        some ⟨front.size + size ['{', b], left⟩ :=
    (compiled bracePercent).openerEnd_eq front.size hranked hbefore
  simp only [List.mem_cons, List.not_mem_nil, or_false] at hb
  rcases hb with rfl | rfl
  · exact hread [] _ rfl (by simp)
  · exact hread [['%']] _ rfl (by simp)

/-- Where no symbol is taken in, an opener that is found is found as well when it
is written as another variant's. -/
theorem readsOpener_of_separated {f : Family} {v w : Variant}
    (hv : v ∈ f.dialect.variants) (hw : w ∈ f.dialect.variants)
    (hleft : ∀ s ∈ f.joining .left, ¬ s <+: left)
    (h : ReadsOpener f.dialect front v.opener left) :
    ReadsOpener f.dialect front w.opener left := by
  have hbare (hf : f = erb ∨ f = php) :
      ReadsOpener f.dialect front w.opener left := by
    obtain ⟨s, hs, hopener⟩ := (written_of_mem_variants hw).opener
    rw [hopener]
    exact readsOpener_of_bare hf [] hs (fun _ => hleft) h
  cases f with
  | erb => exact hbare (.inl rfl)
  | php => exact hbare (.inr rfl)
  | mustache =>
    obtain rfl : v = w := by
      rw [List.mem_singleton.1 hv, List.mem_singleton.1 hw]
    exact h
  | bracePercent =>
    have hvariants : bracePercent.dialect.variants =
        [⟨['{', '%'], ['%', '}']⟩, ⟨['{', '{'], ['}', '}']⟩] := rfl
    have hcases : ∀ u ∈ bracePercent.dialect.variants, ∃ c ∈ ['%', '{'],
        u.opener = ['{', c] := by
      rw [hvariants]
      simp
    obtain ⟨a, ha, hopener⟩ := hcases v hv
    obtain ⟨b, hb, hopener'⟩ := hcases w hw
    rw [hopener] at h
    rw [hopener']
    exact readsOpener_bracePercent ha hb h

/-! ## Closers -/

/-- The closers of ERB are read with the symbol, and without it if it does
not stand in front. -/
theorem readsCloser_erb {s : Text}
    (hs : s ∈ Addon.ranked .right erb.dialect.addons)
    (hright : s = [] → ∀ symbol ∈ erb.joining .right, ¬ symbol <:+ right)
    (h : Unclosed erb.dialect right) :
    ReadsCloser erb.dialect right (s ++ ['%', '>']) behind := by
  have hranked : Addon.ranked .right erb.dialect.addons = [['-'], []] := by decide
  have hread (before after : List Text) (hsplit : [['-'], []] = before ++ s :: after)
      (hbefore : ∀ t ∈ before, ¬ t ++ ['%', '>'] <+: s ++ ['%', '>'] ++ behind) :
      erb.dialect.closerMatcher.pattern.firstEnd?
        ⟨right.size, s ++ ['%', '>'] ++ behind⟩ =
        some ⟨right.size + (s ++ ['%', '>']).size, behind⟩ :=
    (compiled erb).closerEnd_eq right.size hsplit hbefore
  rw [hranked] at hs
  simp only [List.mem_cons, List.not_mem_nil, or_false] at hs
  refine (compiled erb).readsCloser h
    ?_ fun t ht rest ahead hrest hahead hsplit hsuffix => ?_
  · rcases hs with rfl | rfl
    · exact hread [] _ rfl (by simp)
    · exact hread [['-']] _ rfl (by simp)
  · rw [hranked] at ht
    simp only [List.mem_cons, List.not_mem_nil, or_false] at ht
    have hcloser : erb.dialect.closer = ['%', '>'] := rfl
    rw [hcloser] at hsplit
    -- A closer that goes on in the one behind is cut in front of `%`, after a
    -- hyphen, or in front of `>`.
    match rest, hrest with
    | [x], _ =>
      rcases ht with rfl | rfl
      · obtain ⟨rfl, rfl⟩ : '-' = x ∧ ['%', '>'] = ahead := by simpa using hsplit
        rcases hs with rfl | rfl
        · simp
        · exact absurd hsuffix (hright rfl ['-'] (by simp [joining]))
      · obtain ⟨rfl, rfl⟩ : '%' = x ∧ ['>'] = ahead := by simpa using hsplit
        rcases hs with rfl | rfl <;> simp
    | [x, y], _ =>
      rcases ht with rfl | rfl
      · obtain ⟨rfl, rfl, rfl⟩ : '-' = x ∧ '%' = y ∧ ['>'] = ahead := by
          simpa using hsplit
        rcases hs with rfl | rfl <;> simp
      · simp_all
    | x :: y :: z :: rest, _ =>
      rcases ht with rfl | rfl <;> simp_all

/-- The closers of Jinja are read, unless one of them begins in front and
goes on in the other. -/
theorem readsCloser_bracePercent {c : Char} (hc : c ∈ ['%', '}'])
    (hright : ∀ symbol ∈ bracePercent.joining .right, symbol <:+ right → c ≠ '}')
    (h : Unclosed bracePercent.dialect right) :
    ReadsCloser bracePercent.dialect right [c, '}'] behind := by
  have hranked : Addon.ranked .right bracePercent.dialect.addons =
      [['%'], ['}']] := by decide
  have hread (before after : List Text)
      (hsplit : [['%'], ['}']] = before ++ [c] :: after)
      (hbefore : ∀ t ∈ before, ¬ t ++ ['}'] <+: [c] ++ ['}'] ++ behind) :
      bracePercent.dialect.closerMatcher.pattern.firstEnd?
        ⟨right.size, [c, '}'] ++ behind⟩ =
        some ⟨right.size + size [c, '}'], behind⟩ :=
    (compiled bracePercent).closerEnd_eq right.size hsplit hbefore
  simp only [List.mem_cons, List.not_mem_nil, or_false] at hc
  refine (compiled bracePercent).readsCloser h
    ?_ fun t ht rest ahead hrest hahead hsplit hsuffix => ?_
  · rcases hc with rfl | rfl
    · exact hread [] _ rfl (by simp)
    · exact hread [['%']] _ rfl (by simp)
  · have hcloser : bracePercent.dialect.closer = ['}'] := rfl
    have hjoining : bracePercent.joining .right = [['%'], ['}']] := rfl
    rw [hranked] at ht
    rw [hcloser] at hsplit
    have hsymbol : ∃ x, t = [x] := by
      simp only [List.mem_cons, List.not_mem_nil, or_false] at ht
      rcases ht with rfl | rfl <;> exact ⟨_, rfl⟩
    obtain ⟨x, rfl⟩ := hsymbol
    match rest, hrest with
    | [y], _ =>
      obtain ⟨rfl, rfl⟩ : x = y ∧ ['}'] = ahead := by simpa using hsplit
      have hne := hright [x] (hjoining ▸ ht) hsuffix
      simpa using Ne.symm hne
    | y :: z :: rest, _ => simp_all

/-- Where no symbol is taken in, a closer that is found is found as well when it
is written as another variant's. -/
theorem readsCloser_of_separated {f : Family} {v w : Variant}
    (hv : v ∈ f.dialect.variants) (hw : w ∈ f.dialect.variants)
    (hright : ∀ s ∈ f.joining .right, ¬ s <:+ right)
    (h : ReadsCloser f.dialect right v.closer behind) :
    ReadsCloser f.dialect right w.closer behind := by
  have hunclosed := h.unclosed (compiled f)
  obtain ⟨s, hs, hcloser⟩ := (written_of_mem_variants hw).closer
  have hsame (hone : ∀ u ∈ f.dialect.variants, u.closer = f.dialect.closer) :
      ReadsCloser f.dialect right w.closer behind := by
    rw [hone w hw, ← hone v hv]
    exact h
  cases f with
  | erb =>
    rw [hcloser]
    exact readsCloser_erb hs (fun _ => hright) hunclosed
  | bracePercent =>
    have hranked : Addon.ranked .right bracePercent.dialect.addons =
        [['%'], ['}']] := by decide
    rw [hranked] at hs
    obtain ⟨c, hc, rfl⟩ : ∃ c ∈ ['%', '}'], s = [c] := by simpa using hs
    rw [hcloser]
    exact readsCloser_bracePercent hc (fun t ht hsuffix =>
      absurd hsuffix (hright t ht)) hunclosed
  | mustache => exact hsame (by decide)
  | php => exact hsame (by decide)

end TemplateTags.Family
