import TemplateTags.Proofs.Dialect.Found
/-!
# Delimiters that are read back

When an opener is found between two texts (`ReadsOpener`), and when a closer is
(`ReadsCloser`). Which symbols stand in the way is a matter of what is tried
first: a symbol is read if none that is tried before it fits
(`Compiled.openerEnd_eq`, `Compiled.closerEnd_eq`).
-/

namespace TemplateTags.Dialect

open Text

variable {d : Dialect}

/-! ## Symbols that are tried first -/

theorem findSome?_ranked {ranked before after : List Text} {s : Text}
    {c e : Cursor} {f : Text → Text} (hranked : ranked = before ++ s :: after)
    (hbefore : ∀ t ∈ before, c.skip? (f t) = none) (hs : c.skip? (f s) = some e) :
    ranked.findSome? (fun t => c.skip? (f t)) = some e := by
  rw [hranked, List.findSome?_append, List.findSome?_eq_none_iff.2 hbefore,
    List.findSome?_cons, hs]
  rfl

theorem skip?_eq_none {c : Cursor} {text : Text} (h : ¬ text <+: c.rest) :
    c.skip? text = none := by
  cases hskip : c.skip? text with
  | none => rfl
  | some e => exact absurd ⟨e.rest, (Cursor.skip?_eq_some_iff.1 hskip).1.symm⟩ h

/-- An opener is read with a symbol if no symbol that is tried before it fits. -/
theorem Compiled.openerEnd_eq (hd : d.Compiled) {before after : List Text}
    {s gap : Text} (offset : Nat)
    (hranked : Addon.ranked .left d.addons = before ++ s :: after)
    (hbefore : ∀ t ∈ before, ¬ t <+: s ++ gap) :
    d.openerMatcher.pattern.firstEnd? ⟨offset, d.opener ++ s ++ gap⟩ =
      some ⟨offset + (d.opener ++ s).size, gap⟩ := by
  rw [hd.openerEnd]
  refine findSome?_ranked hranked (fun t ht => skip?_eq_none ?_)
    (Cursor.skip?_eq_some_iff.2 ⟨rfl, rfl⟩)
  rw [List.append_assoc, List.prefix_append_right_inj]
  exact hbefore t ht

/-- A closer is read with a symbol if none that is tried before it fits. -/
theorem Compiled.closerEnd_eq (hd : d.Compiled) {before after : List Text}
    {s behind : Text} (offset : Nat)
    (hranked : Addon.ranked .right d.addons = before ++ s :: after)
    (hbefore : ∀ t ∈ before, ¬ t ++ d.closer <+: s ++ d.closer ++ behind) :
    d.closerMatcher.pattern.firstEnd? ⟨offset, s ++ d.closer ++ behind⟩ =
      some ⟨offset + (s ++ d.closer).size, behind⟩ := by
  rw [hd.closerEnd]
  refine findSome?_ranked hranked (fun t ht => skip?_eq_none ?_)
    (Cursor.skip?_eq_some_iff.2 ⟨rfl, rfl⟩)
  exact hbefore t ht

/-- The closer is read nowhere but where it stands with one of its symbols. -/
theorem Compiled.closerEnd_eq_none_iff (hd : d.Compiled) {c : Cursor} :
    d.closerMatcher.pattern.firstEnd? c = none ↔
      ∀ s ∈ Addon.ranked .right d.addons, ¬ s ++ d.closer <+: c.rest := by
  rw [hd.closerEnd, List.findSome?_eq_none_iff]
  constructor
  · rintro h s hs ⟨behind, happ⟩
    have := h s hs
    rw [Cursor.skip?_eq_some_iff (d := ⟨c.offset + (s ++ d.closer).size, behind⟩)
      |>.2 ⟨happ.symm, rfl⟩] at this
    cases this
  · exact fun h s hs => skip?_eq_none (h s hs)

/-! ## Openers -/

/-- An opener between two texts is the one that is found: it is read to its end,
the scan has not gone past its start before, and neither the closer nor a further
opener stands behind it. -/
structure ReadsOpener (d : Dialect) (front opener gap : Text) : Prop where
  ends : d.openerMatcher.pattern.firstEnd? ⟨front.size, opener ++ gap⟩ =
    some ⟨front.size + opener.size, gap⟩
  reached : d.openerMatcher.resumeAfter 0
    (d.openerMatcher.pattern.occurrencesIn 0 front (opener ++ gap)) ≤ front.size
  unclosed : contains d.closer gap = false
  last : ∀ before behind, ∀ s ∈ Addon.ranked .left d.addons,
    gap ≠ before ++ (d.opener ++ s) ++ behind

/-- A scan that finds a block has not gone past its start before. -/
theorem Compiled.resumeAfter_le_of_mem (hd : d.Compiled) {front rest : Text}
    {b : Block} (h : b ∈ d.openerMatcher.findAll (front ++ rest))
    (hstart : b.span.start = front.size) :
    d.openerMatcher.resumeAfter 0
      (d.openerMatcher.pattern.occurrencesIn 0 front rest) ≤ front.size := by
  rw [Matcher.findAll, Pattern.occurrences_append, Matcher.scan_append] at h
  apply Nat.le_of_not_lt
  intro hlt
  -- A block of the first part begins in front of its end, and one behind it not
  -- before the scan resumes.
  rcases List.mem_append.1 h with hmem | hmem
  · obtain ⟨place, hplace, heq⟩ := Matcher.mem_of_mem_scan hmem
    have hbefore := Pattern.offset_lt_of_mem_occurrencesIn hplace
    have hspan := congrArg (fun b => b.span.start) heq
    simp only [Matcher.block] at hspan
    omega
  · have hle := Matcher.le_start_of_mem_scan (fun p hp => ?_) hmem
    · omega
    · obtain ⟨c, -, hc⟩ := List.mem_filterMap.1 hp
      obtain ⟨stop, hstop, rfl⟩ := Option.map_eq_some_iff.1 hc
      exact Nat.le_of_lt (hd.openerEnd_lt hstop)

theorem ReadsOpener.findLast?_eq (hd : d.Compiled) {front opener gap : Text}
    (h : ReadsOpener d front opener gap) :
    d.openerMatcher.findLast? (front ++ opener ++ gap) =
      some ⟨⟨front.size, front.size + opener.size⟩, opener⟩ := by
  obtain ⟨later, hlater, hmem⟩ := Pattern.occurrencesFrom_eq_cons h.ends
  have hnone : d.openerMatcher.scan (front.size + opener.size) later = [] := by
    refine Matcher.scan_eq_nil_iff.2 fun q hq hle => ?_
    obtain ⟨⟨piece, hpiece, hoffset⟩, hend⟩ := hmem q hq
    simp only at hpiece hoffset
    obtain ⟨before, rfl, hgap⟩ := exists_append_of_size_le hpiece (by omega)
    obtain ⟨s, hs, hrest, -⟩ := hd.openerEnd_some hend
    exact absurd (by rw [hgap, hrest]; simp) (h.last before q.2.rest s hs)
  have htaken : ¬ (front.size < d.openerMatcher.resumeAfter 0
      (d.openerMatcher.pattern.occurrencesIn 0 front (opener ++ gap)) ||
      d.openerMatcher.rejects gap) = true := by
    rw [hd.rejects_opener, h.unclosed, Bool.or_false, decide_eq_true_eq]
    exact Nat.not_lt_of_le h.reached
  have hblock :
      Matcher.block ⟨front.size, opener ++ gap⟩ ⟨front.size + opener.size, gap⟩ =
      ⟨⟨front.size, front.size + opener.size⟩, opener⟩ := by
    rw [Matcher.block, Matcher.between_eq rfl rfl]
  rw [Matcher.findLast?, Matcher.findAll, List.append_assoc,
    Pattern.occurrences_append, Matcher.scan_append, hlater, Matcher.scan,
    if_neg htaken, hnone, hblock, List.getLast?_append]
  rfl

theorem Compiled.findLast?_eq_some_iff (hd : d.Compiled) {front opener gap : Text} :
    d.openerMatcher.findLast? (front ++ opener ++ gap) =
        some ⟨⟨front.size, front.size + opener.size⟩, opener⟩ ↔
      ReadsOpener d front opener gap := by
  refine ⟨fun h => ?_, ReadsOpener.findLast?_eq hd⟩
  obtain ⟨before, behind, htext, hstart, -, hend, hcounts, -⟩ :=
    Matcher.exists_of_findLast? (fun c e he => hd.openerEnd_lt he) h
  obtain ⟨-, -, -, -, -, -, -, hlast⟩ := hd.of_findLast? h
  have hsize : (front ++ opener).size = (before ++ opener).size := by
    simp only [size_append]
    simp only at hstart
    omega
  obtain ⟨-, rfl⟩ := append_inj_of_size htext hsize
  have hmem := List.mem_of_getLast? h
  rw [List.append_assoc] at hmem
  refine ⟨hend, hd.resumeAfter_le_of_mem hmem rfl, hd.rejects_opener gap ▸ hcounts,
    fun before behind s hs hgap => ?_⟩
  have := hlast (front ++ opener ++ before) behind s hs (by rw [hgap]; simp)
  simp only [size_append] at this
  omega

/-- In front of a shorter gap another opener is read too, if it is read to
its end and reached. -/
theorem ReadsOpener.transfer {front opener opener' gap : Text} (first : Text)
    (h : ReadsOpener d front opener (first ++ gap))
    (hends : d.openerMatcher.pattern.firstEnd? ⟨front.size, opener' ++ gap⟩ =
      some ⟨front.size + opener'.size, gap⟩)
    (hreached : d.openerMatcher.resumeAfter 0 (d.openerMatcher.pattern.occurrencesIn
      0 front (opener' ++ gap)) ≤ front.size) :
    ReadsOpener d front opener' gap where
  ends := hends
  reached := hreached
  unclosed := by
    cases hcontains : contains d.closer gap with
    | false => rfl
    | true => rw [← contains_append_left first hcontains, h.unclosed]
  last before behind s hs hgap :=
    h.last (first ++ before) behind s hs (by rw [hgap]; simp)

/-- A character that openers only begin with is reached by every scan. -/
theorem Compiled.reached_of_head (hd : d.Compiled) {c : Char} (front rest : Text)
    (hc : ∀ s ∈ Addon.ranked .left d.addons, c ∉ (d.opener ++ s).tail) :
    d.openerMatcher.resumeAfter 0
      (d.openerMatcher.pattern.occurrencesIn 0 front (c :: rest)) ≤ front.size := by
  refine Matcher.resumeAfter_le (Nat.zero_le _) fun p hp => ?_
  obtain ⟨place, hplace, hp⟩ := List.mem_filterMap.1 hp
  obtain ⟨stop, hstop, rfl⟩ := Option.map_eq_some_iff.1 hp
  obtain ⟨before, later, rfl, hne, rfl⟩ := Cursor.mem_allIn_iff.1 hplace
  obtain ⟨s, hs, happ, hoffset⟩ := hd.openerEnd_some hstop
  simp only at happ hoffset ⊢
  rw [hoffset, Nat.zero_add, size_append before later]
  apply Nat.add_le_add_left
  apply Nat.le_of_not_lt
  intro hlt
  -- The match would go past the character, which is not the first one in it.
  obtain ⟨ahead, hahead, hrest⟩ := exists_append_of_size_le happ (Nat.le_of_lt hlt)
  obtain ⟨x, later, rfl⟩ := List.exists_cons_of_ne_nil hne
  cases ahead with
  | nil => simp [hahead] at hlt
  | cons y ahead =>
    obtain ⟨rfl, -⟩ := List.cons.inj hrest
    apply hc s hs
    rw [hahead]
    simp

/-- An opener that begins with a character of its own is read with a symbol,
whatever opener was read there, if no symbol that is tried before fits. -/
theorem Compiled.readsOpener (hd : d.Compiled) {c : Char}
    {tail front opener first gap s : Text} {before after : List Text}
    (h : ReadsOpener d front opener (first ++ gap))
    (hopener : d.opener = c :: tail)
    (hc : ∀ s ∈ Addon.ranked .left d.addons, c ∉ tail ++ s)
    (hranked : Addon.ranked .left d.addons = before ++ s :: after)
    (hbefore : ∀ t ∈ before, ¬ t <+: s ++ gap) :
    ReadsOpener d front (d.opener ++ s) gap := by
  refine h.transfer first (hd.openerEnd_eq _ hranked hbefore) ?_
  rw [hopener]
  exact hd.reached_of_head front _ fun s hs => by
    rw [hopener]
    exact hc s hs

/-- Where no symbol fits before another one, an opener is read with each symbol,
and without one if none follows. -/
theorem Compiled.readsOpener_of_bare (hd : d.Compiled) {c : Char}
    {tail front opener first gap s : Text} {symbols : List Text}
    (h : ReadsOpener d front opener (first ++ gap))
    (hopener : d.opener = c :: tail)
    (hc : ∀ s ∈ Addon.ranked .left d.addons, c ∉ tail ++ s)
    (hranked : Addon.ranked .left d.addons = symbols ++ [[]])
    (hapart : symbols.Pairwise fun t s => ∀ gap, ¬ t <+: s ++ gap)
    (hs : s ∈ Addon.ranked .left d.addons)
    (hgap : s = [] → ∀ t ∈ symbols, ¬ t <+: gap) :
    ReadsOpener d front (d.opener ++ s) gap := by
  rw [hranked] at hs
  rcases List.mem_append.1 hs with hs | hs
  · obtain ⟨before, after, rfl⟩ := List.append_of_mem hs
    obtain ⟨-, -, hbefore⟩ := List.pairwise_append.1 hapart
    have hsplit : Addon.ranked .left d.addons = before ++ s :: (after ++ [[]]) := by
      simp [hranked]
    exact hd.readsOpener h hopener hc hsplit fun t ht =>
      hbefore t ht s List.mem_cons_self gap
  · obtain rfl := List.mem_singleton.1 hs
    exact hd.readsOpener h hopener hc hranked (hgap rfl)

/-! ## Closers -/

/-- A closer between two texts is the one that is found: it is read to its end,
and nowhere before it is one read. -/
structure ReadsCloser (d : Dialect) (gap closer behind : Text) : Prop where
  ends : d.closerMatcher.pattern.firstEnd? ⟨gap.size, closer ++ behind⟩ =
    some ⟨gap.size + closer.size, behind⟩
  first : ∀ front rest, gap = front ++ rest → rest ≠ [] →
    d.closerMatcher.pattern.firstEnd? ⟨front.size, rest ++ (closer ++ behind)⟩ = none

theorem Compiled.findFirst?_eq_some_iff (hd : d.Compiled)
    {gap closer behind : Text} :
    d.closerMatcher.findFirst? (gap ++ closer ++ behind) =
        some ⟨⟨gap.size, gap.size + closer.size⟩, closer⟩ ↔
      ReadsCloser d gap closer behind := by
  rw [Matcher.findFirst?_eq_some_iff hd.closerGuard]
  constructor
  · rintro ⟨before, rest, e, happ, hend, hblock, hnone⟩
    obtain ⟨piece, hpiece, hoffset⟩ := Pattern.reaches_of_firstEnd? hend
    have htext := Matcher.between_eq hpiece hoffset
    rw [Matcher.block, htext] at hblock
    have hstart : before.size = gap.size := congrArg (fun b => b.span.start) hblock
    obtain rfl : piece = closer := congrArg Block.text hblock
    rw [List.append_assoc] at happ
    obtain ⟨rfl, rfl⟩ := append_inj_of_size happ hstart.symm
    have hrest : behind = e.rest := List.append_cancel_left hpiece
    refine ⟨?_, fun front rest hgap hne => ?_⟩
    · rw [hend, hrest, ← hoffset]
    · refine hnone front _ (by rw [hgap]; simp) ?_
      have := size_pos_iff.2 hne
      rw [hgap, size_append]
      omega
  · intro h
    refine ⟨gap, closer ++ behind, _, by simp, h.ends, ?_,
      fun front rest happ hlt => ?_⟩
    · rw [Matcher.block, Matcher.between_eq rfl rfl]
    · rw [List.append_assoc] at happ
      obtain ⟨later, rfl, rfl⟩ :=
        exists_append_of_size_le happ.symm (Nat.le_of_lt hlt)
      exact h.first front later rfl fun hnil => by simp [hnil] at hlt

/-- No closer is written in a text. -/
def Unclosed (d : Dialect) (gap : Text) : Prop :=
  ∀ before behind, ∀ s ∈ Addon.ranked .right d.addons,
    gap ≠ before ++ (s ++ d.closer) ++ behind

theorem ReadsCloser.unclosed {gap closer behind : Text} (hd : d.Compiled)
    (h : ReadsCloser d gap closer behind) :
    Unclosed d gap := by
  intro front rest s hs hgap
  have hne : s ++ d.closer ++ rest ≠ [] := by simp [hd.closer_ne_nil]
  have hnone := h.first front (s ++ d.closer ++ rest) (by rw [hgap]; simp) hne
  exact hd.closerEnd_eq_none_iff.1 hnone s hs ⟨rest ++ (closer ++ behind), by simp⟩

theorem Unclosed.left {first second : Text} (h : Unclosed d (first ++ second)) :
    Unclosed d first :=
  fun before behind s hs hfirst =>
    h before (behind ++ second) s hs (by rw [hfirst]; simp)

/-- A closer behind a text without closers is read if it is read to its end and no
closer begins in the text and goes on in it. -/
theorem Compiled.readsCloser (hd : d.Compiled) {gap closer behind : Text}
    (h : Unclosed d gap)
    (hends : d.closerMatcher.pattern.firstEnd? ⟨gap.size, closer ++ behind⟩ =
      some ⟨gap.size + closer.size, behind⟩)
    (hjoins : ∀ s ∈ Addon.ranked .right d.addons, ∀ rest ahead : Text,
      rest ≠ [] → ahead ≠ [] → s ++ d.closer = rest ++ ahead → rest <:+ gap →
        ¬ ahead <+: closer ++ behind) :
    ReadsCloser d gap closer behind := by
  refine ⟨hends, fun front rest hgap hne => hd.closerEnd_eq_none_iff.2 ?_⟩
  rintro s hs ⟨later, hlater⟩
  rcases Nat.lt_or_ge rest.size (s ++ d.closer).size with hlt | hle
  · obtain ⟨ahead, hahead, hrest⟩ :=
      exists_append_of_size_le hlater.symm (Nat.le_of_lt hlt)
    refine hjoins s hs rest ahead hne ?_ hahead ⟨front, hgap.symm⟩
      ⟨later, hrest.symm⟩
    rintro rfl
    simp [hahead] at hlt
  · obtain ⟨between, rfl, -⟩ := exists_append_of_size_le hlater hle
    exact h front between s hs (by rw [hgap]; simp)

end TemplateTags.Dialect
