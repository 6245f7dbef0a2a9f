import TemplateTags.Proofs.Pattern.Reach
/-!
# The first and the last block of a text

A scan carries one number from match to match, the offset where the last block it
took ended (`Matcher.resumeAfter`); what it finds behind a place depends on the
text in front of it through this number only (`scan_append`). The last block is a
match that counts, and no match that begins behind it counts
(`exists_of_findLast?`). Without a guard the first block is the first match
(`findFirst?_eq_some_iff`).
-/

namespace TemplateTags

open Text

theorem Text.contains_iff {part text : Text} :
    contains part text = true ↔ ∃ before behind,
      text = before ++ part ++ behind := by
  induction text with
  | nil =>
    rw [contains, List.isEmpty_iff]
    constructor
    · rintro rfl
      exact ⟨[], [], rfl⟩
    · rintro ⟨before, behind, h⟩
      simp_all
  | cons c rest ih =>
    rw [contains, Bool.or_eq_true, ih, List.isPrefixOf_iff_prefix]
    constructor
    · rintro (⟨behind, h⟩ | ⟨before, behind, rfl⟩)
      · exact ⟨[], behind, by simp [h]⟩
      · exact ⟨c :: before, behind, by simp⟩
    · rintro ⟨before, behind, h⟩
      cases before with
      | nil => exact .inl ⟨behind, by simpa using h.symm⟩
      | cons d before =>
        rw [List.cons_append, List.cons_append] at h
        exact .inr ⟨before, behind, (List.cons.inj h).2⟩

/-- What a later part of a text contains, the text contains. -/
theorem Text.contains_append_left {part text : Text} (before : Text)
    (h : contains part text = true) :
    contains part (before ++ text) = true := by
  obtain ⟨front, behind, rfl⟩ := contains_iff.1 h
  exact contains_iff.2 ⟨before ++ front, behind, by simp⟩

/-! ## Places of a text -/

namespace Cursor

/-- The places inside a part of a text that something follows. -/
def allIn (offset : Nat) : Text → Text → List Cursor
  | [], _ => []
  | c :: rest, behind =>
    ⟨offset, c :: rest ++ behind⟩ :: allIn (offset + c.utf8Size) rest behind

/-- Each place inside a part stands before a nonempty rest of it. -/
theorem mem_allIn_iff {offset : Nat} {front behind : Text} {c : Cursor} :
    c ∈ allIn offset front behind ↔ ∃ before rest,
      front = before ++ rest ∧ rest ≠ [] ∧
      c = ⟨offset + before.size, rest ++ behind⟩ := by
  induction front generalizing offset with
  | nil =>
    refine ⟨nofun, ?_⟩
    rintro ⟨before, rest, happ, hne, -⟩
    exact absurd (List.append_eq_nil_iff.1 happ.symm).2 hne
  | cons x front ih =>
    rw [allIn, List.mem_cons, ih]
    constructor
    · rintro (rfl | ⟨before, rest, rfl, hne, rfl⟩)
      · exact ⟨[], x :: front, rfl, by simp, rfl⟩
      · exact ⟨x :: before, rest, rfl, hne, by rw [size_cons, Nat.add_assoc]⟩
    · rintro ⟨before, rest, happ, hne, rfl⟩
      cases before with
      | nil => exact .inl (by rw [List.nil_append] at happ; rw [← happ]; rfl)
      | cons y before =>
        rw [List.cons_append, List.cons.injEq] at happ
        obtain ⟨rfl, rfl⟩ := happ
        exact .inr ⟨before, rest, rfl, hne, by rw [size_cons, Nat.add_assoc]⟩

theorem offset_lt_of_mem_allIn {offset : Nat} {front behind : Text} {c : Cursor}
    (h : c ∈ allIn offset front behind) : c.offset < offset + front.size := by
  obtain ⟨before, rest, rfl, hne, rfl⟩ := mem_allIn_iff.1 h
  have := size_pos_iff.2 hne
  simp only [size_append]
  omega

theorem allFrom_append (offset : Nat) (front behind : Text) :
    allFrom offset (front ++ behind) = allIn offset front behind
      ++ allFrom (offset + front.size) behind := by
  induction front generalizing offset with
  | nil => rfl
  | cons c front ih =>
    simp only [List.cons_append, allFrom, allIn, ih, size_cons, Nat.add_assoc]

theorem allIn_append (offset : Nat) (first second behind : Text) :
    allIn offset (first ++ second) behind =
      allIn offset first (second ++ behind) ++ allIn (offset + first.size)
        second behind := by
  induction first generalizing offset with
  | nil => rfl
  | cons c first ih =>
    simp only [List.cons_append, allIn, ih, size_cons, Nat.add_assoc,
      List.append_assoc]

theorem exists_of_findSome?_allFrom {α : Type} {offset : Nat} {text : Text}
    {f : Cursor → Option α} {a : α}
    (h : (allFrom offset text).findSome? f = some a) :
    ∃ before rest, text = before ++ rest ∧ f ⟨offset + before.size, rest⟩ = some a ∧
      ∀ c ∈ allIn offset before rest, f c = none := by
  induction text generalizing offset with
  | nil => exact ⟨[], [], rfl, by simpa [allFrom] using h, by simp [allIn]⟩
  | cons x text ih =>
    rw [allFrom, List.findSome?_cons] at h
    cases hhere : f ⟨offset, x :: text⟩ with
    | some b =>
      rw [hhere] at h
      exact ⟨[], x :: text, rfl, hhere.trans h, by simp [allIn]⟩
    | none =>
      rw [hhere] at h
      obtain ⟨before, rest, rfl, hf, hnone⟩ := ih h
      refine ⟨x :: before, rest, rfl, by rwa [size_cons, ← Nat.add_assoc],
        fun c hc => ?_⟩
      rcases List.mem_cons.1 hc with rfl | hc
      · exact hhere
      · exact hnone c hc

/-- The first answer to the places of a text comes from a place before
which there is none. -/
theorem findSome?_allFrom_eq_some_iff {α : Type} {offset : Nat} {text : Text}
    {f : Cursor → Option α} {a : α} :
    (allFrom offset text).findSome? f = some a ↔
      ∃ before rest, text = before ++ rest ∧
        f ⟨offset + before.size, rest⟩ = some a ∧
        ∀ front behind, text = front ++ behind → front.size < before.size →
          f ⟨offset + front.size, behind⟩ = none := by
  constructor
  · intro h
    obtain ⟨before, rest, rfl, hf, hnone⟩ := exists_of_findSome?_allFrom h
    refine ⟨before, rest, rfl, hf, fun front behind happ hlt =>
      hnone _ (mem_allIn_iff.2 ?_)⟩
    obtain ⟨gap, rfl, rfl⟩ := exists_append_of_size_le happ.symm (Nat.le_of_lt hlt)
    rw [size_append] at hlt
    exact ⟨front, gap, rfl, size_pos_iff.1 (by omega), rfl⟩
  · rintro ⟨before, rest, rfl, hf, hnone⟩
    have hbefore : (allIn offset before rest).findSome? f = none := by
      refine List.findSome?_eq_none_iff.2 fun c hc => ?_
      obtain ⟨front, gap, rfl, hne, rfl⟩ := mem_allIn_iff.1 hc
      have := size_pos_iff.2 hne
      exact hnone front (gap ++ rest) (List.append_assoc _ _ _)
        (by rw [size_append]; omega)
    rw [allFrom_append, List.findSome?_append, hbefore, Option.none_or]
    cases rest <;> simp [allFrom, hf]

theorem mem_allFrom_iff {offset : Nat} {text : Text} {c : Cursor} :
    c ∈ allFrom offset text ↔ Cursor.Reaches ⟨offset, text⟩ c := by
  refine ⟨reaches_of_mem_allFrom, ?_⟩
  rintro ⟨piece, hrest, hoffset⟩
  obtain ⟨o, rest⟩ := c
  simp only at hrest hoffset
  subst hrest hoffset
  rw [allFrom_append]
  apply List.mem_append_right
  cases rest <;> simp [allFrom]

end Cursor

/-- The preferred matches that begin inside a part of a text that
something follows. -/
def Pattern.occurrencesIn (p : Pattern) (offset : Nat) (front behind : Text) :
    List (Cursor × Cursor) :=
  (Cursor.allIn offset front behind).filterMap fun c =>
    (p.firstEnd? c).map fun stop => (c, stop)

/-- The preferred matches that begin at or behind an offset. -/
def Pattern.occurrencesFrom (p : Pattern) (offset : Nat) (text : Text) :
    List (Cursor × Cursor) :=
  (Cursor.allFrom offset text).filterMap fun c =>
    (p.firstEnd? c).map fun stop => (c, stop)

theorem Pattern.occurrences_append (p : Pattern) (front behind : Text) :
    p.occurrences (front ++ behind) = p.occurrencesIn 0 front behind
      ++ p.occurrencesFrom front.size behind := by
  rw [occurrences_eq, Cursor.allFrom_append, List.filterMap_append, Nat.zero_add]
  rfl

theorem Pattern.occurrencesIn_append (p : Pattern) (offset : Nat)
    (first second behind : Text) :
    p.occurrencesIn offset (first ++ second) behind =
      p.occurrencesIn offset first (second ++ behind) ++
        p.occurrencesIn (offset + first.size) second behind := by
  rw [occurrencesIn, Cursor.allIn_append, List.filterMap_append]
  rfl

theorem Pattern.occurrencesFrom_eq_cons {p : Pattern} {offset : Nat} {text : Text}
    {e : Cursor} (h : p.firstEnd? ⟨offset, text⟩ = some e) :
    ∃ later, p.occurrencesFrom offset text = (⟨offset, text⟩, e) :: later ∧
      ∀ q ∈ later, Cursor.Reaches ⟨offset, text⟩ q.1 ∧
        p.firstEnd? q.1 = some q.2 := by
  have hmem : ∀ q ∈ p.occurrencesFrom offset text,
      Cursor.Reaches ⟨offset, text⟩ q.1 ∧ p.firstEnd? q.1 = some q.2 := by
    intro q hq
    obtain ⟨c, hc, hplace⟩ := List.mem_filterMap.1 hq
    obtain ⟨stop, hstop, rfl⟩ := Option.map_eq_some_iff.1 hplace
    exact ⟨Cursor.reaches_of_mem_allFrom hc, hstop⟩
  obtain ⟨later, hlater⟩ :
      ∃ later, p.occurrencesFrom offset text = (⟨offset, text⟩, e) :: later := by
    unfold occurrencesFrom
    cases text with
    | nil => exact ⟨[], by simp [Cursor.allFrom, h]⟩
    | cons c rest => exact ⟨_, by rw [Cursor.allFrom, List.filterMap_cons, h]; rfl⟩
  exact ⟨later, hlater, fun q hq => hmem q (hlater ▸ List.mem_cons_of_mem _ hq)⟩

theorem Pattern.offset_lt_of_mem_occurrencesIn {p : Pattern} {offset : Nat}
    {front behind : Text} {place : Cursor × Cursor}
    (h : place ∈ p.occurrencesIn offset front behind) :
    place.1.offset < offset + front.size := by
  obtain ⟨c, hc, hplace⟩ := List.mem_filterMap.1 h
  obtain ⟨stop, -, rfl⟩ := Option.map_eq_some_iff.1 hplace
  exact Cursor.offset_lt_of_mem_allIn hc

theorem Pattern.mem_occurrences_iff {p : Pattern} {text : Text} {c d : Cursor} :
    (c, d) ∈ p.occurrences text ↔ Cursor.Reaches ⟨0, text⟩ c ∧
      p.firstEnd? c = some d := by
  rw [occurrences_eq, List.mem_filterMap]
  constructor
  · rintro ⟨e, he, h⟩
    obtain ⟨stop, hstop, heq⟩ := Option.map_eq_some_iff.1 h
    cases heq
    exact ⟨Cursor.mem_allFrom_iff.1 he, hstop⟩
  · rintro ⟨hc, hd⟩
    exact ⟨c, Cursor.mem_allFrom_iff.2 hc, by rw [hd]; rfl⟩

namespace Matcher

variable {m : Matcher}

/-! ## Scanning -/

/-- Where the last block of a scan ends, or `resume` if there is none. -/
def resumeAfter (m : Matcher) (resume : Nat) : List (Cursor × Cursor) → Nat
  | [] => resume
  | (start, stop) :: rest =>
    if start.offset < resume || m.rejects stop.rest then resumeAfter m resume rest
    else resumeAfter m stop.offset rest

theorem scan_append (resume : Nat) (front behind : List (Cursor × Cursor)) :
    m.scan resume (front ++ behind) = m.scan resume front
      ++ m.scan (m.resumeAfter resume front) behind := by
  induction front generalizing resume with
  | nil => rfl
  | cons p front ih =>
    simp only [List.cons_append, scan, resumeAfter]
    split
    · exact ih resume
    · rw [ih p.2.offset]
      rfl

theorem resumeAfter_append (resume : Nat) (front behind : List (Cursor × Cursor)) :
    m.resumeAfter resume (front ++ behind) =
      m.resumeAfter (m.resumeAfter resume front) behind := by
  induction front generalizing resume with
  | nil => rfl
  | cons p front ih =>
    simp only [List.cons_append, resumeAfter]
    split
    · exact ih resume
    · exact ih p.2.offset

/-- A scan that finds nothing has rejected every match from `resume` on. -/
theorem scan_eq_nil_iff {resume : Nat} {places : List (Cursor × Cursor)} :
    m.scan resume places = [] ↔ ∀ p ∈ places, resume ≤ p.1.offset →
      m.rejects p.2.rest = true := by
  induction places with
  | nil => simp [scan]
  | cons p places ih =>
    rw [scan, List.forall_mem_cons]
    split
    next h =>
      rw [ih]
      refine ⟨fun hrest => ⟨fun hle => ?_, hrest⟩, fun hall => hall.2⟩
      rw [Bool.or_eq_true, decide_eq_true_eq] at h
      rcases h with hlt | hrejects
      · omega
      · exact hrejects
    next h =>
      simp only [reduceCtorEq, false_iff, not_and]
      rw [Bool.or_eq_true, decide_eq_true_eq, not_or] at h
      exact fun hall => absurd (hall (by omega)) h.2

/-- A scan takes no match that begins before the offset it resumes at. -/
theorem le_start_of_mem_scan {resume : Nat} {places : List (Cursor × Cursor)}
    {b : Block} (hle : ∀ p ∈ places, p.1.offset ≤ p.2.offset)
    (h : b ∈ m.scan resume places) : resume ≤ b.span.start := by
  induction places generalizing resume with
  | nil => cases h
  | cons p places ih =>
    obtain ⟨hp, hplaces⟩ := List.forall_mem_cons.1 hle
    rw [scan] at h
    split at h
    next => exact ih hplaces h
    next htake =>
      rw [Bool.or_eq_true, decide_eq_true_eq, not_or] at htake
      have hresume : resume ≤ p.1.offset := by omega
      rcases List.mem_cons.1 h with rfl | h
      · exact hresume
      · exact Nat.le_trans (Nat.le_trans hresume hp) (ih hplaces h)

theorem resumeAfter_le {resume n : Nat} {places : List (Cursor × Cursor)}
    (hresume : resume ≤ n) (h : ∀ p ∈ places, p.2.offset ≤ n) :
    m.resumeAfter resume places ≤ n := by
  induction places generalizing resume with
  | nil => exact hresume
  | cons p places ih =>
    obtain ⟨hp, hplaces⟩ := List.forall_mem_cons.1 h
    rw [resumeAfter]
    split
    · exact ih hresume hplaces
    · exact ih hp hplaces

/-- What follows a part matters to a scan of it by where the matches in the part
end and whether they count. -/
theorem resumeAfter_occurrencesIn_congr {p : Pattern}
    {front behind behind' : Text} {offset resume : Nat}
    (h : ∀ before rest offset, front = before ++ rest → rest ≠ [] →
      (p.firstEnd? ⟨offset, rest ++ behind⟩).map (fun e => (e.offset,
        m.rejects e.rest)) = (p.firstEnd? ⟨offset, rest ++ behind'⟩).map fun e =>
          (e.offset, m.rejects e.rest)) :
    m.resumeAfter resume (p.occurrencesIn offset front behind) =
      m.resumeAfter resume (p.occurrencesIn offset front behind') := by
  induction front generalizing offset resume with
  | nil => rfl
  | cons x front ih =>
    have hrest :
        ∀ offset resume, m.resumeAfter resume (p.occurrencesIn offset front behind) =
        m.resumeAfter resume (p.occurrencesIn offset front behind') := fun _ _ =>
      ih fun before rest offset happ hne =>
        h (x :: before) rest offset (by rw [happ]; rfl) hne
    have hhere := h [] (x :: front) offset rfl (by simp)
    unfold Pattern.occurrencesIn at hrest ⊢
    simp only [Cursor.allIn, List.filterMap_cons]
    simp only [List.cons_append] at hhere ⊢
    cases hend : p.firstEnd? ⟨offset, x :: (front ++ behind)⟩ with
    | none =>
      rw [hend, Option.map_none, eq_comm, Option.map_eq_none_iff] at hhere
      rw [hhere]
      exact hrest _ _
    | some e =>
      rw [hend, Option.map_some, eq_comm, Option.map_eq_some_iff] at hhere
      obtain ⟨e', hend', heq⟩ := hhere
      obtain ⟨hoffset, hrejects⟩ := Prod.mk.injEq _ _ _ _ ▸ heq
      rw [hend']
      simp only [Option.map_some, resumeAfter, hoffset, hrejects, hrest]

/-- Behind the last block of a scan no match counts. -/
theorem scan_getLast? {resume : Nat} {places : List (Cursor × Cursor)} {b : Block}
    (hpos : ∀ p ∈ places, p.1.offset < p.2.offset)
    (h : (m.scan resume places).getLast? = some b) :
    ∃ p ∈ places, b = block p.1 p.2 ∧ resume ≤ p.1.offset ∧
      m.rejects p.2.rest = false ∧
      ∀ q ∈ places, p.2.offset ≤ q.1.offset → m.rejects q.2.rest = true := by
  induction places generalizing resume with
  | nil => cases h
  | cons p places ih =>
    obtain ⟨hp, hplaces⟩ := List.forall_mem_cons.1 hpos
    rw [scan] at h
    split at h
    next hskip =>
      obtain ⟨q, hq, hb, hresume, hcounts, hlast⟩ := ih hplaces h
      refine ⟨q, List.mem_cons_of_mem _ hq, hb, hresume, hcounts,
        List.forall_mem_cons.2 ⟨fun hle => ?_, hlast⟩⟩
      -- A place that was skipped did not count, or begins in front of
      -- where the scan resumed.
      have hlt := hplaces q hq
      rw [Bool.or_eq_true, decide_eq_true_eq] at hskip
      rcases hskip with hskip | hskip
      · omega
      · exact hskip
    next htake =>
      rw [Bool.or_eq_true, decide_eq_true_eq, not_or] at htake
      cases hscan : m.scan p.2.offset places with
      | nil =>
        rw [hscan] at h
        have hb : block p.1 p.2 = b := by simpa using h
        refine ⟨p, List.mem_cons_self, hb.symm, by omega, by simpa using htake.2,
          List.forall_mem_cons.2 ⟨fun hle => by omega, ?_⟩⟩
        exact scan_eq_nil_iff.1 hscan
      | cons first later =>
        rw [hscan, List.getLast?_cons_cons, ← hscan] at h
        obtain ⟨q, hq, hb, hresume, hcounts, hlast⟩ := ih hplaces h
        have hlt := hplaces q hq
        exact ⟨q, List.mem_cons_of_mem _ hq, hb, by omega, hcounts,
          List.forall_mem_cons.2 ⟨fun hle => by omega, hlast⟩⟩

/-! ## Blocks of a text -/

/-- A text has no block if no match in it counts. -/
theorem findAll_eq_nil_iff {text : Text} :
    m.findAll text = [] ↔ ∀ front later e, text = front ++ later →
      m.pattern.firstEnd? ⟨front.size, later⟩ = some e →
        m.rejects e.rest = true := by
  unfold findAll
  rw [scan_eq_nil_iff]
  constructor
  · intro h front later e happ he
    exact h (⟨front.size, later⟩, e)
      (Pattern.mem_occurrences_iff.2 ⟨⟨front, happ, (Nat.zero_add _).symm⟩, he⟩)
        (Nat.zero_le _)
  · rintro h ⟨⟨offset, later⟩, e⟩ hp -
    obtain ⟨⟨front, happ, hoffset⟩, he⟩ := Pattern.mem_occurrences_iff.1 hp
    simp only [Nat.zero_add] at happ hoffset
    exact h front later e happ (hoffset ▸ he)

/-- The last block is a match that counts, and no match behind it does. -/
theorem exists_of_findLast? {text : Text} {b : Block}
    (hpos : ∀ c e, m.pattern.firstEnd? c = some e → c.offset < e.offset)
    (h : m.findLast? text = some b) :
    ∃ before behind, text = before ++ b.text ++ behind ∧ before.size = b.span.start ∧
      b.span.start + b.text.size = b.span.stop ∧
      m.pattern.firstEnd? ⟨b.span.start, b.text ++ behind⟩ =
        some ⟨b.span.stop, behind⟩ ∧
      m.rejects behind = false ∧
      ∀ front later e, text = front ++ later → b.span.stop ≤ front.size →
        m.pattern.firstEnd? ⟨front.size, later⟩ = some e →
          m.rejects e.rest = true := by
  have hplaces : ∀ p ∈ m.pattern.occurrences text, p.1.offset < p.2.offset :=
    fun p hp => hpos _ _ (Pattern.mem_occurrences_iff.1 hp).2
  obtain ⟨⟨start, stop⟩, hmem, rfl, -, hcounts, hlast⟩ := scan_getLast? hplaces h
  obtain ⟨⟨before, hbefore, hstart⟩, hend⟩ := Pattern.mem_occurrences_iff.1 hmem
  obtain ⟨piece, hpiece, hstop⟩ := Pattern.reaches_of_firstEnd? hend
  have hblock : (block start stop).text = piece := between_eq hpiece hstop
  simp only [Nat.zero_add] at hbefore hstart hpiece hstop hcounts
  refine ⟨before, stop.rest, ?_, hstart.symm, ?_, ?_, hcounts,
    fun front later e happ hle he => ?_⟩
  · rw [hblock, hbefore, hpiece, List.append_assoc]
  · rw [hblock]
    exact hstop.symm
  · rw [hblock, ← hpiece]
    exact hend
  · refine hlast (⟨front.size, later⟩, e)
      (Pattern.mem_occurrences_iff.2 ⟨⟨front, happ, ?_⟩, he⟩) hle
    simp

/-- Without a guard the first block is the first match. -/
theorem findFirst?_eq_some_iff {text : Text} {b : Block} (hguard : m.guard = none) :
    m.findFirst? text = some b ↔
      ∃ before rest e, text = before ++ rest ∧
        m.pattern.firstEnd? ⟨before.size, rest⟩ = some e ∧
        block ⟨before.size, rest⟩ e = b ∧
        ∀ front behind, text = front ++ behind → front.size < before.size →
          m.pattern.firstEnd? ⟨front.size, behind⟩ = none := by
  have hrejects : ∀ behind, m.rejects behind = false := fun behind => by
    unfold rejects
    rw [hguard]
  have hfirst : m.findFirst? text = ((Cursor.allFrom 0 text).findSome? fun c =>
      (m.pattern.firstEnd? c).map (block c)) := by
    -- With nothing rejected the scan takes the first place there is.
    have hhead : ∀ places : List (Cursor × Cursor),
        (m.scan 0 places).head? = places.head?.map fun p => block p.1 p.2 := by
      intro places
      cases places with
      | nil => rfl
      | cons p places => simp [scan, hrejects]
    rw [findFirst?, findAll, hhead, Pattern.occurrences_eq, List.head?_filterMap,
      List.map_findSome?]
    simp [Function.comp_def]
  rw [hfirst, Cursor.findSome?_allFrom_eq_some_iff]
  simp only [Nat.zero_add, Option.map_eq_some_iff, Option.map_eq_none_iff]
  constructor
  · rintro ⟨before, rest, happ, ⟨e, he, hb⟩, hnone⟩
    exact ⟨before, rest, e, happ, he, hb, hnone⟩
  · rintro ⟨before, rest, e, happ, he, hb, hnone⟩
    exact ⟨before, rest, happ, ⟨e, he, hb⟩, hnone⟩

end Matcher

end TemplateTags
