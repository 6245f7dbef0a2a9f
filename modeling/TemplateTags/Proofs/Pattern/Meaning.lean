import TemplateTags.Proofs.Pattern.Reach
/-!
# What patterns in normal form match

`Pattern.tryEnds p c f` goes through the ends of `p` from the cursor `c` in order
of preference and is the first answer that `f` gives. In that view every
constructor has a short equation, and the constructions of the normal form mean
what their names say: `Pattern.concat` is one pattern after the other
(`tryEnds_concat`), a choice of literals is the first one from which it goes on
(`tryEnds_ofBranches`), and a set of single characters is any of them
(`tryEnds_ofSet_ofChars`).

The preferred match of a pattern without loops is what the ends are tried for
(`firstEnd?_eq_tryEnds`).
-/

namespace TemplateTags

/-! ## Members of a set -/

namespace CharSet

/-- Intervals that are in order inside and hold only ranks of characters. -/
def Proper (intervals : List (Nat × Nat)) : Prop :=
  ∀ r ∈ intervals, r.1 ≤ r.2 ∧ r.2 ≤ lastRank

theorem proper_insertInterval {low high : Nat} {intervals : List (Nat × Nat)}
    (hle : low ≤ high) (hlast : high ≤ lastRank) (h : Proper intervals) :
    Proper (insertInterval low high intervals) := by
  induction intervals generalizing low high with
  | nil =>
    intro r hr
    obtain rfl := List.mem_singleton.1 hr
    exact ⟨hle, hlast⟩
  | cons r rest ih =>
    obtain ⟨a, b⟩ := r
    obtain ⟨hab, hrest⟩ := List.forall_mem_cons.1 h
    simp only at hab
    unfold insertInterval
    split
    · exact List.forall_mem_cons.2 ⟨⟨hle, hlast⟩, h⟩
    · split
      · exact List.forall_mem_cons.2 ⟨hab, ih hle hlast hrest⟩
      · exact ih (by omega) (by omega) hrest

theorem mem_insertInterval_iff {low high rank : Nat}
    {intervals : List (Nat × Nat)} (hle : low ≤ high)
    (h : ∀ r ∈ intervals, r.1 ≤ r.2) :
    (∃ r ∈ insertInterval low high intervals, r.1 ≤ rank ∧ rank ≤ r.2) ↔
      (low ≤ rank ∧ rank ≤ high) ∨ ∃ r ∈ intervals, r.1 ≤ rank ∧ rank ≤ r.2 := by
  induction intervals generalizing low high with
  | nil => simp [insertInterval]
  | cons r rest ih =>
    obtain ⟨a, b⟩ := r
    obtain ⟨hab, hrest⟩ := List.forall_mem_cons.1 h
    simp only at hab
    unfold insertInterval
    split
    · simp
    · split
      · simp only [List.mem_cons, exists_eq_or_imp, ih hle hrest]
        exact or_left_comm
      · rw [ih (by omega) hrest]
        simp only [List.mem_cons, exists_eq_or_imp, ← or_assoc]
        -- The joined interval has no gap, since the two meet or touch.
        refine or_congr ⟨fun _ => ?_, fun _ => ?_⟩ Iff.rfl <;> omega

theorem charRank_le_lastRank (c : Char) : charRank c ≤ lastRank := by
  have : c.toNat < 0xD800 ∨ (0xDFFF < c.toNat ∧ c.toNat < 0x110000) := c.valid
  unfold charRank lastRank
  split <;> omega

theorem charRank_inj {c d : Char} (h : charRank c = charRank d) : c = d := by
  have hc : c.toNat < 0xD800 ∨ (0xDFFF < c.toNat ∧ c.toNat < 0x110000) := c.valid
  have hd : d.toNat < 0xD800 ∨ (0xDFFF < d.toNat ∧ d.toNat < 0x110000) := d.valid
  unfold charRank at h
  apply Char.toNat_inj.1
  split at h <;> split at h <;> omega

theorem charRank_charOfRank {rank : Nat} (h : rank ≤ lastRank) :
    charRank (charOfRank rank) = rank := by
  have hvalid : (if rank < 0xD800 then rank else rank + 0x800).isValidChar := by
    unfold lastRank at h
    split
    · exact .inl ‹_›
    · exact .inr ⟨by omega, by omega⟩
  have htoNat : (charOfRank rank).toNat = if rank < 0xD800 then rank else
    rank + 0x800 := by
    unfold charOfRank
    generalize (if rank < 0xD800 then rank else rank + 0x800) = n at hvalid ⊢
    rw [Char.ofNat, dif_pos hvalid]
    rfl
  unfold charRank
  rw [htoNat]
  by_cases hlow : rank < 0xD800
  · simp only [hlow, if_true]
  · simp only [hlow, if_false]
    rw [if_neg (by omega)]
    omega

theorem contains_iff {s : CharSet} {c : Char} :
    s.contains c ↔ ∃ r ∈ s.intervals, r.1 ≤ charRank c ∧ charRank c ≤ r.2 := by
  unfold contains
  simp only [List.any_eq_true, Bool.and_eq_true, decide_eq_true_eq]

/-- Characters that are added one by one become members, and nothing else does. -/
theorem contains_foldl_insertRange (chars : List Char) {s : CharSet}
    (h : Proper s.intervals) :
    let added :=
      (chars.map fun c => (c, c)).foldl (fun s r => s.insertRange r.1 r.2) s
    Proper added.intervals ∧ ∀ c, added.contains c ↔ c ∈ chars ∨ s.contains c := by
  induction chars generalizing s with
  | nil => exact ⟨h, fun c => by simp⟩
  | cons d chars ih =>
    have hproper : Proper (s.insertRange d d).intervals :=
      proper_insertInterval (Nat.le_refl _) (charRank_le_lastRank d) h
    have hmem : ∀ c, (s.insertRange d d).contains c ↔ c = d ∨ s.contains c := by
      intro c
      rw [contains_iff, contains_iff, insertRange]
      simp only
      rw [mem_insertInterval_iff (Nat.le_refl _) fun r hr => (h r hr).1]
      refine or_congr ⟨fun hrank => charRank_inj (by omega), fun heq => ?_⟩ Iff.rfl
      rw [heq]
      exact ⟨Nat.le_refl _, Nat.le_refl _⟩
    obtain ⟨hproper', hmem'⟩ := ih hproper
    refine ⟨hproper', fun c => ?_⟩
    rw [List.map_cons, List.foldl_cons, hmem', hmem, List.mem_cons, ← or_assoc,
      or_comm (a := c ∈ chars)]

theorem proper_ofChars (chars : List Char) : Proper (ofChars chars).intervals :=
  (contains_foldl_insertRange chars (s := empty) fun r hr => by cases hr).1

theorem contains_ofChars_iff {chars : List Char} {c : Char} :
    (ofChars chars).contains c ↔ c ∈ chars := by
  refine ((contains_foldl_insertRange chars (s := empty) fun r hr => by
    cases hr).2 c).trans ?_
  simp [contains, empty]

theorem contains_iff_of_single? {s : CharSet} (h : Proper s.intervals) {c d : Char}
    (hsingle : s.single? = some c) : s.contains d ↔ d = c := by
  unfold single? at hsingle
  split at hsingle
  next a b hintervals =>
    split at hsingle
    next hab =>
      cases hsingle
      subst hab
      have hlast :=
        (h (a, a) (by rw [hintervals]; exact List.mem_singleton_self _)).2
      rw [contains_iff, hintervals]
      constructor
      · rintro ⟨r, hr, hlow, hhigh⟩
        obtain rfl := List.mem_singleton.1 hr
        apply charRank_inj
        rw [charRank_charOfRank hlast]
        simp only at hlow hhigh
        omega
      · rintro rfl
        exact ⟨(a, a), List.mem_singleton_self _, by
          rw [charRank_charOfRank hlast]; omega⟩
    next => cases hsingle
  next => cases hsingle

end CharSet

namespace Cursor

theorem skip?_append (c : Cursor) (s t : Text) :
    c.skip? (s ++ t) = (c.skip? s).bind (·.skip? t) := by
  induction s generalizing c with
  | nil => rfl
  | cons x s ih =>
    obtain ⟨offset, rest⟩ := c
    cases rest with
    | nil => rfl
    | cons y rest =>
      simp only [List.cons_append, skip?]
      split
      · exact ih _
      · rfl

variable {α : Type}

/-- Leaving out later cursors at the same place changes no search, since they are
the same cursors. -/
theorem findSome?_distinctFrom {f : Cursor → Option α} {seen : List Nat}
    {cursors : List Cursor}
    (hsame : ∀ a ∈ cursors, ∀ b ∈ cursors, a.offset = b.offset → a = b)
    (hseen : ∀ a ∈ cursors, a.offset ∈ seen → f a = none) :
    (distinctFrom seen cursors).findSome? f = cursors.findSome? f := by
  induction cursors generalizing seen with
  | nil => rfl
  | cons c rest ih =>
    have hrest : ∀ a ∈ rest, ∀ b ∈ rest, a.offset = b.offset → a = b :=
      fun a ha b hb => hsame a (List.mem_cons_of_mem _ ha) b
        (List.mem_cons_of_mem _ hb)
    rw [distinctFrom]
    split
    next hmem =>
      rw [ih hrest fun a ha => hseen a (List.mem_cons_of_mem _ ha),
        List.findSome?_cons,
        hseen c List.mem_cons_self hmem]
    next hmem =>
      rw [List.findSome?_cons, List.findSome?_cons]
      cases hc : f c with
      | some x => rfl
      | none =>
        refine ih hrest fun a ha hoffset => ?_
        rcases List.mem_cons.1 hoffset with hoffset | hoffset
        · rw [hsame a (List.mem_cons_of_mem _ ha) c List.mem_cons_self hoffset, hc]
        · exact hseen a (List.mem_cons_of_mem _ ha) hoffset

theorem findSome?_distinct {f : Cursor → Option α} {c : Cursor}
    {cursors : List Cursor} (h : ∀ a ∈ cursors, c.Reaches a) :
    (distinct cursors).findSome? f = cursors.findSome? f :=
  findSome?_distinctFrom (fun a ha b hb => (h a ha).eq_of_offset (h b hb))
    fun a _ hmem => by cases hmem

end Cursor

namespace Pattern

open Cursor

variable {α : Type}

/-- The first answer to the ends of a pattern from a cursor, the
preferred end asked first. -/
def tryEnds (p : Pattern) (c : Cursor) (f : Cursor → Option α) : Option α :=
  (p.ends c).findSome? f

/-- The first answer to the ends of several patterns, one behind the other. -/
def tryAll : List Pattern → Cursor → (Cursor → Option α) → Option α
  | [], c, f => f c
  | p :: rest, c, f => p.tryEnds c fun d => tryAll rest d f

/-! ## One constructor at a time -/

variable (c : Cursor) (f : Cursor → Option α)

@[simp] theorem tryEnds_empty : empty.tryEnds c f = f c := by
  simp [tryEnds, ends]

@[simp] theorem tryEnds_literal (text : Text) :
    (literal text).tryEnds c f = (c.skip? text).bind f := by
  unfold tryEnds ends
  cases c.skip? text <;> simp

@[simp] theorem tryEnds_oneOf (set : CharSet) :
    (oneOf set).tryEnds c f = (c.skipSet? set).bind f := by
  unfold tryEnds ends
  cases c.skipSet? set <;> simp

theorem findSome?_flatMap {β γ : Type} (g : β → List γ) (f : γ → Option α)
    (xs : List β) :
    (xs.flatMap g).findSome? f = xs.findSome? fun x => (g x).findSome? f := by
  induction xs with
  | nil => rfl
  | cons x xs ih =>
    rw [List.flatMap_cons, List.findSome?_append, ih, List.findSome?_cons]
    cases (g x).findSome? f <;> rfl

@[simp] theorem tryEnds_seq (p q : Pattern) :
    (seq p q).tryEnds c f = p.tryEnds c fun d => q.tryEnds d f := by
  unfold tryEnds
  rw [ends, findSome?_distinct, findSome?_flatMap]
  intro a ha
  obtain ⟨b, hb, ha⟩ := List.mem_flatMap.1 ha
  exact (reaches_of_mem_ends hb).trans (reaches_of_mem_ends ha)

@[simp] theorem tryEnds_choice (p q : Pattern) :
    (choice p q).tryEnds c f = (p.tryEnds c f).or (q.tryEnds c f) := by
  unfold tryEnds
  rw [ends, findSome?_distinct, List.findSome?_append]
  intro a ha
  rcases List.mem_append.1 ha with ha | ha
  · exact reaches_of_mem_ends ha
  · exact reaches_of_mem_ends ha

@[simp] theorem tryEnds_optional (p : Pattern) :
    (optional p).tryEnds c f = (p.tryEnds c f).or (f c) := by
  unfold tryEnds
  rw [ends, findSome?_distinct, List.findSome?_append]
  · congr 1
    rw [List.findSome?_cons]
    cases f c <;> rfl
  · intro a ha
    rcases List.mem_append.1 ha with ha | ha
    · exact reaches_of_mem_ends ha
    · obtain rfl := List.mem_singleton.1 ha
      exact .refl _

/-! ## Sequences -/

variable {c f}

theorem tryAll_append (ps qs : List Pattern) :
    tryAll (ps ++ qs) c f = tryAll ps c fun d => tryAll qs d f := by
  induction ps generalizing c with
  | nil => rfl
  | cons p ps ih =>
    simp only [List.cons_append, tryAll]
    congr
    funext d
    exact ih

theorem tryEnds_foldl_seq (p : Pattern) (rest : List Pattern) :
    (rest.foldl seq p).tryEnds c f = p.tryEnds c fun d => tryAll rest d f := by
  induction rest generalizing p with
  | nil => rfl
  | cons q rest ih =>
    rw [List.foldl_cons, ih, tryEnds_seq]
    rfl

theorem tryEnds_ofParts (ps : List Pattern) :
    (ofParts ps).tryEnds c f = tryAll ps c f := by
  cases ps with
  | nil => exact tryEnds_empty c f
  | cons p rest => exact tryEnds_foldl_seq p rest

theorem tryAll_parts (p : Pattern) : tryAll p.parts c f = p.tryEnds c f := by
  induction p generalizing c f with
  | empty => exact (tryEnds_empty c f).symm
  | seq p q ihp _ => rw [parts, tryAll_append, ihp, tryEnds_seq]; rfl
  | _ => rfl

theorem tryAll_flatMap_parts (ps : List Pattern) :
    tryAll (ps.flatMap parts) c f = tryAll ps c f := by
  induction ps generalizing c with
  | nil => rfl
  | cons p ps ih =>
    rw [List.flatMap_cons, tryAll_append, tryAll_parts]
    show p.tryEnds c _ = p.tryEnds c _
    congr
    funext d
    exact ih

theorem joinLiterals_cons (p : Pattern) (ps : List Pattern) :
    joinLiterals (p :: ps) =
      match p, joinLiterals ps with
      | literal s, literal t :: joined => literal (s ++ t) :: joined
      | p, joined => p :: joined := rfl

theorem tryAll_joinLiterals (ps : List Pattern) :
    tryAll (joinLiterals ps) c f = tryAll ps c f := by
  induction ps generalizing c with
  | nil => rfl
  | cons p ps ih =>
    rw [joinLiterals_cons]
    split
    next s t joined hjoined =>
      simp only [tryAll, tryEnds_literal]
      have hps : ∀ d, tryAll ps d f = (d.skip? t).bind fun e =>
          tryAll joined e f := by
        intro d
        rw [← ih, hjoined, tryAll, tryEnds_literal]
      simp only [hps, skip?_append, Option.bind_assoc]
    next =>
      simp only [tryAll]
      congr
      funext d
      exact ih

/-- A concatenation is one pattern after the other. -/
theorem tryEnds_concat (ps : List Pattern) :
    (concat ps).tryEnds c f = tryAll ps c f := by
  rw [concat, tryEnds_ofParts, tryAll_joinLiterals, tryAll_flatMap_parts]

/-! ## Choices and sets -/

theorem tryEnds_foldl_choice (p : Pattern) (rest : List Pattern) :
    (rest.foldl choice p).tryEnds c f = (p :: rest).findSome? fun q =>
      q.tryEnds c f := by
  induction rest generalizing p with
  | nil =>
    rw [List.findSome?_cons]
    cases h : p.tryEnds c f <;> simpa using h
  | cons q rest ih =>
    rw [List.foldl_cons, ih, List.findSome?_cons, List.findSome?_cons,
      List.findSome?_cons, tryEnds_choice]
    cases p.tryEnds c f <;> rfl

/-- A choice is the first of its alternatives from which it goes on. -/
theorem tryEnds_ofBranches {p : Pattern} {rest : List Pattern} :
    (ofBranches (p :: rest)).tryEnds c f = (p :: rest).findSome? fun q =>
      q.tryEnds c f :=
  tryEnds_foldl_choice p rest

theorem tryEnds_ofSet {set : CharSet} (h : CharSet.Proper set.intervals) :
    (ofSet set).tryEnds c f = (c.skipSet? set).bind f := by
  unfold ofSet
  split
  next x hsingle =>
    rw [tryEnds_literal]
    congr 1
    apply Option.ext
    intro d
    rw [skipSet?_eq_some_iff]
    constructor
    · exact fun h' => ⟨x, (CharSet.contains_iff_of_single? h hsingle).2 rfl, h'⟩
    · rintro ⟨y, hy, h'⟩
      rwa [(CharSet.contains_iff_of_single? h hsingle).1 hy] at h'
  next => exact tryEnds_oneOf c f set

/-- A set of characters is any of them. -/
theorem tryEnds_ofSet_ofChars (chars : List Char) :
    (ofSet (CharSet.ofChars chars)).tryEnds c f = chars.findSome? fun x =>
      (c.skip? [x]).bind f := by
  rw [tryEnds_ofSet (CharSet.proper_ofChars chars)]
  obtain ⟨offset, rest⟩ := c
  cases rest with
  | nil =>
    symm
    simp only [skipSet?, Option.bind_none, List.findSome?_eq_none_iff]
    intro x _
    rfl
  | cons y rest =>
    simp only [skipSet?, CharSet.contains_ofChars_iff, skip?]
    induction chars with
    | nil => simp
    | cons x chars ih =>
      rw [List.findSome?_cons, ← ih]
      by_cases hxy : x = y
      · subst hxy
        simp only [List.mem_cons, true_or, if_true, Option.bind_some]
        cases hf : f ⟨offset + x.utf8Size, rest⟩ with
        | some answer => rfl
        | none => by_cases hmem : x ∈ chars <;> simp [hmem, hf]
      · simp [hxy, Ne.symm hxy]

/-! ## Patterns without loops -/

theorem isLoopFree_foldl_seq {p : Pattern} {rest : List Pattern} (hp : p.isLoopFree)
    (h : ∀ q ∈ rest, q.isLoopFree) : (rest.foldl seq p).isLoopFree := by
  induction rest generalizing p with
  | nil => exact hp
  | cons q rest ih =>
    obtain ⟨hq, hrest⟩ := List.forall_mem_cons.1 h
    exact ih (by rw [isLoopFree, hp, hq]; rfl) hrest

theorem isLoopFree_foldl_choice {p : Pattern} {rest : List Pattern}
    (hp : p.isLoopFree) (h : ∀ q ∈ rest, q.isLoopFree) :
    (rest.foldl choice p).isLoopFree := by
  induction rest generalizing p with
  | nil => exact hp
  | cons q rest ih =>
    obtain ⟨hq, hrest⟩ := List.forall_mem_cons.1 h
    exact ih (by rw [isLoopFree, hp, hq]; rfl) hrest

theorem isLoopFree_of_mem_parts {p q : Pattern} (h : p.isLoopFree)
    (hq : q ∈ p.parts) :
    q.isLoopFree := by
  induction p with
  | empty => cases hq
  | seq a b iha ihb =>
    rw [isLoopFree, Bool.and_eq_true] at h
    rcases List.mem_append.1 hq with hq | hq
    · exact iha h.1 hq
    · obtain rfl := List.mem_singleton.1 hq
      exact h.2
  | _ =>
    obtain rfl := List.mem_singleton.1 hq
    exact h

theorem isLoopFree_of_mem_joinLiterals {ps : List Pattern}
    (h : ∀ p ∈ ps, p.isLoopFree) :
    ∀ q ∈ joinLiterals ps, q.isLoopFree := by
  induction ps with
  | nil => exact h
  | cons p ps ih =>
    obtain ⟨hp, hps⟩ := List.forall_mem_cons.1 h
    rw [joinLiterals_cons]
    split
    next s t joined hjoined =>
      have := ih hps
      rw [hjoined] at this
      exact List.forall_mem_cons.2 ⟨rfl, (List.forall_mem_cons.1 this).2⟩
    next => exact List.forall_mem_cons.2 ⟨hp, ih hps⟩

theorem isLoopFree_concat {ps : List Pattern} (h : ∀ p ∈ ps, p.isLoopFree) :
    (concat ps).isLoopFree := by
  have hparts : ∀ q ∈ joinLiterals (ps.flatMap parts), q.isLoopFree := by
    apply isLoopFree_of_mem_joinLiterals
    intro q hq
    obtain ⟨p, hp, hq⟩ := List.mem_flatMap.1 hq
    exact isLoopFree_of_mem_parts (h p hp) hq
  unfold concat
  cases hjoined : joinLiterals (ps.flatMap parts) with
  | nil => rfl
  | cons p rest =>
    rw [hjoined] at hparts
    obtain ⟨hp, hrest⟩ := List.forall_mem_cons.1 hparts
    exact isLoopFree_foldl_seq hp hrest

theorem isLoopFree_ofSet (set : CharSet) : (ofSet set).isLoopFree := by
  unfold ofSet
  split <;> rfl

/-- Without loops, the preferred match goes to the first end. -/
theorem firstEnd?_eq_tryEnds {p : Pattern} (h : p.isLoopFree) (c : Cursor) :
    p.firstEnd? c = p.tryEnds c some := by
  have hends : p.firstEnd? c = (p.ends c).head? := by
    unfold firstEnd? endsFrom
    rw [if_pos h]
    obtain ⟨offset, rest⟩ := c
    cases rest <;> simp [allFrom]
  rw [hends, tryEnds]
  cases p.ends c <;> rfl

end Pattern

end TemplateTags
