import TemplateTags.Proofs.Pattern.Search
/-!
# The blocks of a text, exactly

A block counts if it is the match that the pattern prefers at its place and the
guard stands nowhere behind it (`Matcher.Counts`). `Matcher.findAll` gives the
blocks that count and do not begin inside of one that it gave before
(`Matcher.findAll_exact`), so the first of them is the first that counts at all.

The same blocks come out of a search that asks for the next match again and again
(`Matcher.Searches`): from the next character on where a match did not count, from
the end of a block, and from the next character behind an empty block. Its offset
grows with every match, so it ends whatever the pattern, the guard and the text
are (`Matcher.searches_iff`).
-/

namespace TemplateTags

open Text

/-! ## Places in order -/

/-- The offset behind the next character, which at the end of a text is one past
it. -/
def Cursor.behindNext (c : Cursor) : Nat :=
  match c.rest with
  | [] => c.offset + 1
  | x :: _ => c.offset + x.utf8Size

theorem Cursor.offset_lt_behindNext (c : Cursor) : c.offset < c.behindNext := by
  unfold behindNext
  split
  next => omega
  next x _ _ =>
    have := x.utf8Size_pos
    omega

theorem Cursor.pairwise_allFrom (offset : Nat) (text : Text) :
    (allFrom offset text).Pairwise fun c d => c.behindNext ≤ d.offset := by
  induction text generalizing offset with
  | nil => exact List.pairwise_singleton _ _
  | cons x text ih =>
    refine List.pairwise_cons.2 ⟨fun d hd => ?_, ih _⟩
    obtain ⟨piece, -, hoffset⟩ := reaches_of_mem_allFrom hd
    rw [hoffset]
    exact Nat.le_add_right _ _

/-- The first of the preferred matches that begin at an offset or behind it. -/
def Pattern.matchFrom? (p : Pattern) (text : Text) (offset : Nat) :
    Option (Cursor × Cursor) :=
  (p.occurrences text).find? fun place => offset ≤ place.1.offset

namespace Matcher

/-- Matches of one text in the order of their starts, each at a place of its own. -/
structure Ordered (places : List (Cursor × Cursor)) : Prop where
  starts : places.Pairwise fun p q => p.1.behindNext ≤ q.1.offset
  reaches : ∀ p ∈ places, p.1.Reaches p.2

theorem ordered_occurrences (p : Pattern) (text : Text) :
    Ordered (p.occurrences text) := by
  refine ⟨?_, fun place hplace => (Pattern.reaches_of_mem_occurrences hplace).2⟩
  rw [Pattern.occurrences_eq, List.pairwise_filterMap]
  refine (Cursor.pairwise_allFrom 0 text).imp fun hle => ?_
  intro p hp q hq
  obtain ⟨_, -, rfl⟩ := Option.map_eq_some_iff.1 hp
  obtain ⟨_, -, rfl⟩ := Option.map_eq_some_iff.1 hq
  exact hle

theorem Ordered.tail {p : Cursor × Cursor} {places : List (Cursor × Cursor)}
    (h : Ordered (p :: places)) :
    Ordered places :=
  ⟨(List.pairwise_cons.1 h.starts).2, (List.forall_mem_cons.1 h.reaches).2⟩

theorem Ordered.behindNext_le {p q : Cursor × Cursor}
    {places : List (Cursor × Cursor)} (h : Ordered (p :: places))
    (hq : q ∈ places) : p.1.behindNext ≤ q.1.offset :=
  (List.pairwise_cons.1 h.starts).1 q hq

theorem Ordered.start_le_stop {p : Cursor × Cursor}
    {places : List (Cursor × Cursor)} (h : Ordered places) (hp : p ∈ places) :
    p.1.offset ≤ p.2.offset := by
  obtain ⟨piece, -, hoffset⟩ := h.reaches p hp
  rw [hoffset]
  exact Nat.le_add_right _ _

variable {m : Matcher} {places : List (Cursor × Cursor)}

/-! ## What a scan takes -/

/-- A scan takes the matches that count and do not begin inside of one
that it took before. -/
theorem mem_scan_iff (h : Ordered places) {resume : Nat} {b : Block} :
    b ∈ m.scan resume places ↔
      (∃ p ∈ places, b = block p.1 p.2 ∧ resume ≤ p.1.offset ∧
        m.rejects p.2.rest = false) ∧
        ∀ a ∈ m.scan resume places,
          ¬ (a.span.start < b.span.start ∧ b.span.start < a.span.stop) := by
  induction places generalizing resume with
  | nil => simp [scan]
  | cons p places ih =>
    have hlater : ∀ q ∈ places, p.1.offset < q.1.offset := fun q hq =>
      Nat.lt_of_lt_of_le p.1.offset_lt_behindNext (h.behindNext_le hq)
    rw [scan]
    split
    next hskip =>
      rw [Bool.or_eq_true, decide_eq_true_eq] at hskip
      rw [ih h.tail]
      refine and_congr_left fun _ => ?_
      constructor
      · rintro ⟨q, hq, hcounts⟩
        exact ⟨q, List.mem_cons_of_mem _ hq, hcounts⟩
      · rintro ⟨q, hq, hb, hresume, hcounts⟩
        rcases List.mem_cons.1 hq with rfl | hq
        · -- The match that is skipped begins too early or does not count.
          rcases hskip with hskip | hskip
          · omega
          · rw [hskip] at hcounts
            cases hcounts
        · exact ⟨q, hq, hb, hresume, hcounts⟩
    next htake =>
      rw [Bool.or_eq_true, decide_eq_true_eq, not_or, Bool.not_eq_true] at htake
      obtain ⟨hresume, hcounts⟩ := htake
      have hle : ∀ q ∈ places, q.1.offset ≤ q.2.offset :=
        fun q hq => h.tail.start_le_stop hq
      rw [List.mem_cons, List.forall_mem_cons, ih h.tail]
      constructor
      · rintro (rfl | ⟨⟨q, hq, rfl, hstop, hcounts'⟩, houtside⟩)
        · refine ⟨⟨p, List.mem_cons_self, rfl, by omega, hcounts⟩,
            fun hinside => ?_, fun a ha hinside => ?_⟩
          · exact absurd hinside.1 (Nat.lt_irrefl _)
          · have hstart := le_start_of_mem_scan hle ha
            have := h.start_le_stop List.mem_cons_self
            simp only [block] at hinside
            omega
        · have := hlater q hq
          refine ⟨⟨q, List.mem_cons_of_mem _ hq, rfl, by omega, hcounts'⟩,
            fun hinside => ?_, houtside⟩
          simp only [block] at hinside
          omega
      · rintro ⟨⟨q, hq, rfl, -, hcounts'⟩, hfirst, houtside⟩
        rcases List.mem_cons.1 hq with rfl | hq
        · exact .inl rfl
        · have := hlater q hq
          simp only [block] at hfirst
          exact .inr ⟨⟨q, hq, rfl, by omega, hcounts'⟩, houtside⟩

/-- What a scan takes stands in order, and no two blocks overlap. -/
theorem pairwise_scan (h : Ordered places) (resume : Nat) :
    (m.scan resume places).Pairwise fun a b =>
      a.span.start < b.span.start ∧ a.span.stop ≤ b.span.start := by
  induction places generalizing resume with
  | nil => exact .nil
  | cons p places ih =>
    rw [scan]
    split
    next => exact ih h.tail resume
    next =>
      refine List.pairwise_cons.2 ⟨fun b hb => ⟨?_, ?_⟩, ih h.tail _⟩
      · obtain ⟨q, hq, rfl⟩ := mem_of_mem_scan hb
        exact Nat.lt_of_lt_of_le p.1.offset_lt_behindNext (h.behindNext_le hq)
      · exact le_start_of_mem_scan (fun q hq => h.tail.start_le_stop hq) hb

/-! ## The search as a loop -/

/-- A search from an offset on ends with these blocks. -/
inductive Searches (m : Matcher) (text : Text) : Nat → List Block → Prop
  /-- the offset is past the end of the text -/
  | past {offset : Nat} (outside : text.size < offset) : Searches m text offset []
  /-- there is no match any more -/
  | missing {offset : Nat} (inside : offset ≤ text.size)
      (found : m.pattern.matchFrom? text offset = none) :
      Searches m text offset []
  /-- a match that does not count: go on at the next character, which
  may be in the match -/
  | rejected {offset : Nat} {start stop : Cursor} {later : List Block}
      (inside : offset ≤ text.size)
      (found : m.pattern.matchFrom? text offset = some (start, stop))
        (counts : m.rejects stop.rest = true)
      (rest : Searches m text start.behindNext later) : Searches m text offset later
  /-- a match that counts: go on where it ends -/
  | taken {offset : Nat} {start stop : Cursor} {later : List Block}
      (inside : offset ≤ text.size)
      (found : m.pattern.matchFrom? text offset = some (start, stop))
        (counts : m.rejects stop.rest = false)
      (nonempty : start.offset < stop.offset)
        (rest : Searches m text stop.offset later) :
      Searches m text offset (block start stop :: later)
  /-- an empty match that counts: go on behind the next character -/
  | takenEmpty {offset : Nat} {start stop : Cursor} {later : List Block}
      (inside : offset ≤ text.size)
      (found : m.pattern.matchFrom? text offset = some (start, stop))
        (counts : m.rejects stop.rest = false)
      (isEmpty : ¬ start.offset < stop.offset)
        (rest : Searches m text stop.behindNext later) :
      Searches m text offset (block start stop :: later)

theorem scan_congr {resume resume' : Nat}
    (h : ∀ p ∈ places, p.1.offset < resume ↔ p.1.offset < resume') :
    m.scan resume places = m.scan resume' places := by
  induction places with
  | nil => rfl
  | cons p places ih =>
    obtain ⟨hp, hplaces⟩ := List.forall_mem_cons.1 h
    simp only [scan, hp, ih hplaces]

theorem scan_cons_of_lt {p : Cursor × Cursor} {resume : Nat}
    (h : p.1.offset < resume) :
    m.scan resume (p :: places) = m.scan resume places := by
  rw [scan, if_pos (by simp [h])]

theorem scan_cons_of_le {p : Cursor × Cursor} {resume : Nat}
    (h : resume ≤ p.1.offset) :
    m.scan resume (p :: places) =
      if m.rejects p.2.rest then m.scan resume places
      else block p.1 p.2 :: m.scan p.2.offset places := by
  rw [scan, decide_eq_false (Nat.not_lt_of_le h), Bool.false_or]

/-- No match begins between the place of another one and the next character, so a
scan of those behind it may resume anywhere there. -/
theorem Ordered.scan_tail {p : Cursor × Cursor} (h : Ordered (p :: places))
    {resume resume' : Nat} (hle : resume ≤ p.1.behindNext)
    (hlt : p.1.offset < resume') (hle' : resume' ≤ p.1.behindNext) :
    m.scan resume places = m.scan resume' (p :: places) := by
  rw [scan_cons_of_lt hlt]
  refine scan_congr fun q hq => ?_
  have := h.behindNext_le hq
  omega

/-- One round: a scan goes on with the first match at its offset or behind. -/
theorem scan_eq_of_find? (h : Ordered places) {resume : Nat} :
    m.scan resume places =
      match places.find? fun place => resume ≤ place.1.offset with
      | none => []
      | some (start, stop) =>
        if m.rejects stop.rest then m.scan start.behindNext places
        else block start stop ::
          m.scan (if start.offset < stop.offset then stop.offset else
            stop.behindNext) places := by
  induction places with
  | nil => rfl
  | cons p places ih =>
    by_cases hresume : resume ≤ p.1.offset
    · have hnext := p.1.offset_lt_behindNext
      rw [List.find?_cons_of_pos (by simpa using hresume), scan_cons_of_le hresume]
      simp only
      split
      · exact h.scan_tail (Nat.le_trans hresume (Nat.le_of_lt hnext))
          hnext (Nat.le_refl _)
      · congr 1
        split
        next hlt => rw [scan_cons_of_lt hlt]
        next hempty =>
          -- An empty match ends where it begins, so the next character is the same.
          have hle := h.start_le_stop List.mem_cons_self
          have heq : p.2 = p.1 :=
            (h.reaches p List.mem_cons_self).eq_of_offset (.refl _) (by omega)
          rw [heq]
          exact h.scan_tail (Nat.le_of_lt hnext) hnext (Nat.le_refl _)
    · rw [List.find?_cons_of_neg (by simpa using hresume),
        scan_cons_of_lt (by omega), ih h.tail]
      cases hfind : places.find? fun place => resume ≤ place.1.offset with
      | none => rfl
      | some found =>
        have hfound : resume ≤ found.1.offset := by simpa using List.find?_some hfind
        have hle := h.tail.start_le_stop (List.mem_of_find?_eq_some hfind)
        have hnext := found.1.offset_lt_behindNext
        have hnext' := found.2.offset_lt_behindNext
        simp only
        split
        · rw [scan_cons_of_lt (by omega)]
        · rw [scan_cons_of_lt (by split <;> omega)]

variable {text : Text}

theorem offset_le_of_mem_occurrences {p : Pattern} {place : Cursor × Cursor}
    (h : place ∈ p.occurrences text) :
    place.1.offset ≤ text.size := by
  obtain ⟨⟨before, hbefore, hoffset⟩, -⟩ := Pattern.reaches_of_mem_occurrences h
  simp only at hbefore hoffset
  rw [hoffset, hbefore, size_append]
  omega

theorem matchFrom?_of_size_lt {p : Pattern} {offset : Nat} (h : text.size < offset) :
    p.matchFrom? text offset = none := by
  refine List.find?_eq_none.2 fun place hplace => ?_
  have := offset_le_of_mem_occurrences hplace
  simp only [decide_eq_true_eq]
  omega

/-- The match that is found begins at the offset or behind it, and does not
end further left. -/
theorem le_of_matchFrom? {p : Pattern} {offset : Nat} {start stop : Cursor}
    (h : p.matchFrom? text offset = some (start, stop)) :
    offset ≤ start.offset ∧ start.offset ≤ stop.offset :=
  ⟨by simpa using List.find?_some h,
    (ordered_occurrences p text).start_le_stop (List.mem_of_find?_eq_some h)⟩

/-- One round of a scan of all preferred matches. -/
theorem scan_occurrences (m : Matcher) (text : Text) (offset : Nat) :
    m.scan offset (m.pattern.occurrences text) =
      match m.pattern.matchFrom? text offset with
      | none => []
      | some (start, stop) =>
        if m.rejects stop.rest then
          m.scan start.behindNext (m.pattern.occurrences text)
        else block start stop ::
          m.scan (if start.offset < stop.offset then stop.offset else
            stop.behindNext) (m.pattern.occurrences text) :=
  scan_eq_of_find? (ordered_occurrences m.pattern text)

theorem Searches.eq_scan {offset : Nat} {blocks : List Block}
    (h : m.Searches text offset blocks) :
    blocks = m.scan offset (m.pattern.occurrences text) := by
  induction h with
  | past outside => rw [scan_occurrences, matchFrom?_of_size_lt outside]
  | missing _ found => rw [scan_occurrences, found]
  | rejected _ found counts _ ih =>
    rw [scan_occurrences, found, ih]
    simp only [counts, if_true]
  | taken _ found counts nonempty _ ih =>
    rw [scan_occurrences, found, ih]
    simp only [counts, Bool.false_eq_true, if_false, nonempty, if_true]
  | takenEmpty _ found counts isEmpty _ ih =>
    rw [scan_occurrences, found, ih]
    simp only [counts, Bool.false_eq_true, if_false, isEmpty]

/-- A search ends from every offset: what is left of the text behind the offset
becomes less with every match. -/
theorem searches_scan (m : Matcher) (text : Text) (offset : Nat) :
    m.Searches text offset (m.scan offset (m.pattern.occurrences text)) := by
  induction hleft :
    text.size + 1 - offset using Nat.strongRecOn generalizing offset with
  | ind left ih =>
    subst hleft
    by_cases hinside : offset ≤ text.size
    · rw [scan_occurrences]
      cases hfound : m.pattern.matchFrom? text offset with
      | none => exact .missing hinside hfound
      | some found =>
        obtain ⟨start, stop⟩ := found
        obtain ⟨hstart, hstop⟩ := le_of_matchFrom? hfound
        have hnext := start.offset_lt_behindNext
        have hnext' := stop.offset_lt_behindNext
        cases hrejects : m.rejects stop.rest with
        | true =>
          simp only [hrejects, if_true]
          exact .rejected hinside hfound hrejects (ih _ (by omega) _ rfl)
        | false =>
          simp only [hrejects, Bool.false_eq_true, if_false]
          split
          next hlt =>
            exact .taken hinside hfound hrejects hlt (ih _ (by omega) _ rfl)
          next hempty =>
            exact .takenEmpty hinside hfound hrejects hempty (ih _ (by omega) _ rfl)
    · rw [scan_occurrences, matchFrom?_of_size_lt (by omega)]
      exact .past (by omega)

/-- A search ends with the blocks of the scan, and with no others. -/
theorem searches_iff {offset : Nat} {blocks : List Block} :
    m.Searches text offset blocks ↔
      blocks = m.scan offset (m.pattern.occurrences text) :=
  ⟨Searches.eq_scan, fun h => h ▸ searches_scan m text offset⟩

/-! ## The blocks that count -/

/-- A block that counts: the text has it at its span, the pattern prefers it
there, and the guard does not occur anywhere behind it. -/
def Counts (m : Matcher) (text : Text) (b : Block) : Prop :=
  ∃ before behind, text = before ++ b.text ++ behind ∧ before.size = b.span.start ∧
    m.pattern.firstEnd? ⟨b.span.start, b.text ++ behind⟩ =
      some ⟨b.span.stop, behind⟩ ∧
    ∀ guard ∈ m.guard, ¬ guard <:+: behind

theorem rejects_eq_false_iff {behind : Text} :
    m.rejects behind = false ↔ ∀ guard ∈ m.guard, ¬ guard <:+: behind := by
  unfold rejects
  cases m.guard with
  | none => simp
  | some guard =>
    have hinfix : Text.contains guard behind = true ↔ guard <:+: behind := by
      rw [Text.contains_iff]
      exact exists_congr fun _ => exists_congr fun _ => eq_comm
    simp only [Option.mem_some_iff, forall_eq', ← hinfix, Bool.not_eq_true]

theorem counts_iff {b : Block} :
    m.Counts text b ↔
      ∃ p ∈ m.pattern.occurrences text, b = block p.1 p.2 ∧
        m.rejects p.2.rest = false := by
  constructor
  · rintro ⟨before, behind, htext, hstart, hend, hguard⟩
    refine ⟨(⟨b.span.start, b.text ++ behind⟩, ⟨b.span.stop, behind⟩),
      Pattern.mem_occurrences_iff.2
        ⟨⟨before, by rw [htext, List.append_assoc], ?_⟩, hend⟩, ?_,
      rejects_eq_false_iff.2 hguard⟩
    · simp only [hstart, Nat.zero_add]
    · obtain ⟨piece, hpiece, hstop⟩ := Pattern.reaches_of_firstEnd? hend
      rw [block, between_eq hpiece hstop, ← List.append_cancel_right hpiece]
  · rintro ⟨⟨start, stop⟩, hmem, rfl, hcounts⟩
    obtain ⟨⟨before, hbefore, hoffset⟩, hend⟩ := Pattern.mem_occurrences_iff.1 hmem
    obtain ⟨piece, hpiece, hstop⟩ := Pattern.reaches_of_firstEnd? hend
    have hblock : (block start stop).text = piece := between_eq hpiece hstop
    simp only [Nat.zero_add] at hbefore hoffset hpiece
    refine ⟨before, stop.rest, ?_, hoffset.symm, ?_, rejects_eq_false_iff.1 hcounts⟩
    · rw [hblock, hbefore, hpiece, List.append_assoc]
    · rw [hblock, ← hpiece]
      exact hend

theorem mem_findAll_iff {b : Block} :
    b ∈ m.findAll text ↔ m.Counts text b ∧
      ∀ a ∈ m.findAll text, ¬ (a.span.start < b.span.start ∧
        b.span.start < a.span.stop) := by
  refine (mem_scan_iff (ordered_occurrences m.pattern text)).trans
    (and_congr_left fun _ => ?_)
  simp only [counts_iff, Nat.zero_le, true_and]

theorem pairwise_findAll (m : Matcher) (text : Text) :
    (m.findAll text).Pairwise fun a b =>
      a.span.start < b.span.start ∧ a.span.stop ≤ b.span.start :=
  pairwise_scan (ordered_occurrences m.pattern text) 0

/-- A text has no block if no block counts. -/
theorem findFirst?_eq_none_iff :
    m.findFirst? text = none ↔ ∀ b, ¬ m.Counts text b := by
  rw [findFirst?, List.head?_eq_none_iff]
  constructor
  · intro hnil b hcounts
    have hmem : b ∈ m.findAll text :=
      mem_findAll_iff.2 ⟨hcounts, fun a ha => by rw [hnil] at ha; cases ha⟩
    rw [hnil] at hmem
    cases hmem
  · exact fun hnone => List.eq_nil_iff_forall_not_mem.2 fun b hb =>
      hnone b (mem_findAll_iff.1 hb).1

/-- The first block is the first that counts. -/
theorem findFirst?_eq_some_iff_counts {b : Block} :
    m.findFirst? text = some b ↔ m.Counts text b ∧ ∀ a, m.Counts text a →
      b.span.start ≤ a.span.start := by
  have hmem (a : Block) := @mem_findAll_iff m text a
  have hpairwise := pairwise_findAll m text
  rw [findFirst?]
  cases hall : m.findAll text with
  | nil =>
    simp only [List.head?_nil, reduceCtorEq, false_iff, not_and]
    intro hcounts
    exact absurd hcounts (findFirst?_eq_none_iff.1 (by rw [findFirst?, hall]; rfl) b)
  | cons first later =>
    rw [hall] at hmem hpairwise
    have hle : ∀ a ∈ first :: later, first.span.start ≤ a.span.start :=
      List.forall_mem_cons.2 ⟨Nat.le_refl _, fun a ha =>
        Nat.le_of_lt ((List.pairwise_cons.1 hpairwise).1 a ha).1⟩
    rw [List.head?_cons, Option.some_inj]
    constructor
    · rintro rfl
      refine ⟨((hmem first).1 List.mem_cons_self).1, fun a ha =>
        Nat.le_of_not_lt fun hlt => ?_⟩
      -- A block in front of the first one would not be inside of any other, and
      -- so be a block itself.
      have houtside : ∀ c ∈ first :: later,
          ¬ (c.span.start < a.span.start ∧ a.span.start < c.span.stop) := by
        intro c hc hinside
        have := hle c hc
        omega
      have := hle a ((hmem a).2 ⟨ha, houtside⟩)
      omega
    · rintro ⟨hcounts, hfirst⟩
      have hb : b ∈ first :: later := by
        refine (hmem b).2 ⟨hcounts, fun a ha hinside => ?_⟩
        have := hfirst a ((hmem a).1 ha).1
        omega
      rcases List.mem_cons.1 hb with rfl | hb
      · rfl
      · have hlt := ((List.pairwise_cons.1 hpairwise).1 b hb).1
        have := hfirst first ((hmem first).1 List.mem_cons_self).1
        omega

/-- The blocks of a text are those that count and do not begin inside of a block
before them. They stand in order at spans of the text, the search for one match
after another ends with them, and the first one is the first block that counts. -/
theorem findAll_exact (m : Matcher) (text : Text) :
    (∀ blocks, m.Searches text 0 blocks ↔ blocks = m.findAll text) ∧
      (∀ b, b ∈ m.findAll text ↔ m.Counts text b ∧
        ∀ a ∈ m.findAll text, ¬ (a.span.start < b.span.start ∧
          b.span.start < a.span.stop)) ∧
      (m.findAll text).Pairwise (fun a b => a.span.start < b.span.start ∧
        a.span.stop ≤ b.span.start) ∧
      (∀ b ∈ m.findAll text, text.HasSpan b.span ∧
        text.slice? b.span = some b.text) ∧
      (∀ b, m.findFirst? text = some b ↔
        m.Counts text b ∧ ∀ a, m.Counts text a → b.span.start ≤ a.span.start) ∧
      (m.findFirst? text = none ↔ ∀ b, ¬ m.Counts text b) := by
  refine ⟨fun blocks => searches_iff, fun b => mem_findAll_iff,
    pairwise_findAll m text, fun b hb => ?_,
    fun b => findFirst?_eq_some_iff_counts, findFirst?_eq_none_iff⟩
  have hslice := slice?_of_mem_findAll hb
  exact ⟨hasSpan_iff_isSome.2 (by rw [hslice]; rfl), hslice⟩

/-- The empty match in front of a wide character has the guard behind it. The ones
right behind another block and at the end of the text count. -/
theorem findAll_exact_empty_matches : ∃ m, ofText? "x*".toList = some m ∧
    (m.withGuard ['x']).Searches "éxx".toList 0
      [⟨⟨2, 4⟩, ['x', 'x']⟩, ⟨⟨4, 4⟩, []⟩] := by
  obtain ⟨m, hm, hblocks⟩ : ∃ m, ofText? "x*".toList = some m ∧
      [⟨⟨2, 4⟩, ['x', 'x']⟩, ⟨⟨4, 4⟩, []⟩] =
        (m.withGuard ['x']).findAll "éxx".toList := ⟨_, rfl, by decide +kernel⟩
  exact ⟨m, hm, ((findAll_exact _ _).1 _).2 hblocks⟩

end Matcher

end TemplateTags
