import TemplateTags.Dialect.Family
import TemplateTags.Proofs.Pattern.Grouped
/-!
# What the matchers of a dialect match

`Addon.ranked` lists the symbols of a side as a pattern prefers them. The opener's
matcher goes behind the opener and the first left symbol that fits, the closer's
behind the first right symbol with the closer after it (`Compiled.openerEnd`,
`Compiled.closerEnd`). Every dialect that `Dialect.compile` makes is `Compiled`,
whatever its delimiters and symbols are, and so is each that differs from it in
the variant to insert only.
-/

namespace TemplateTags

open Pattern

namespace Addon

/-- The symbols of more than one character on a side, longer ones first. -/
def long (side : Side) (addons : List Addon) : List Text :=
  sortBy precedes ((symbols side addons).filter fun s => 1 < s.length)

/-- The symbols of one character on a side. -/
def single (side : Side) (addons : List Addon) : List Text :=
  (symbols side addons).filter fun s => s.length == 1

/-- The symbols on a side in the order in which they are tried. No symbol
at all comes last. -/
def ranked (side : Side) (addons : List Addon) : List Text :=
  long side addons ++ single side addons
    ++ if isOptional side addons then [[]] else []

variable {side : Side} {addons : List Addon}

theorem mem_symbols_iff {s : Text} :
    s ∈ symbols side addons ↔ s ∈ addons.map (symbol · side) := by
  rw [symbols, (perm_sortBy _ _).mem_iff, List.mem_eraseDups]

theorem mem_long_iff {s : Text} :
    s ∈ long side addons ↔ s ∈ addons.map (symbol · side) ∧ 1 < s.length := by
  rw [long, (perm_sortBy _ _).mem_iff, List.mem_filter, mem_symbols_iff,
    decide_eq_true_iff]

theorem mem_single_iff {s : Text} :
    s ∈ single side addons ↔ s ∈ addons.map (symbol · side) ∧ s.length = 1 := by
  rw [single, List.mem_filter, mem_symbols_iff, beq_iff_eq]

/-- Just the symbols of the side are tried, and no symbol at all where
there are no addons. -/
theorem mem_ranked_iff {s : Text} :
    s ∈ ranked side addons ↔ s ∈ addons.map (symbol · side) ∨
      (addons = [] ∧ s = []) := by
  unfold ranked
  rw [List.mem_append, List.mem_append, mem_long_iff, mem_single_iff]
  constructor
  · rintro ((⟨h, -⟩ | ⟨h, -⟩) | h)
    · exact .inl h
    · exact .inl h
    · split at h
      next hoptional =>
        rw [List.mem_singleton.1 h]
        unfold isOptional at hoptional
        rcases Bool.or_eq_true _ _ ▸ hoptional with hnone | hmem
        · exact .inr ⟨List.isEmpty_iff.1 hnone, rfl⟩
        · exact .inl (of_decide_eq_true hmem)
      next => cases h
  · rintro (h | ⟨rfl, rfl⟩)
    · match s with
      | [] =>
        have hoptional : isOptional side addons = true := by simp [isOptional, h]
        exact .inr (by simp [hoptional])
      | [c] => exact .inl (.inr ⟨h, rfl⟩)
      | c :: d :: s => exact .inl (.inl ⟨h, by simp⟩)
    · exact .inr (by simp [isOptional])

/-- The characters that are symbols by themselves. -/
def chars (side : Side) (addons : List Addon) : List Char :=
  (single side addons).flatten

theorem single_eq : single side addons = (chars side addons).map fun c => [c] := by
  have h : ∀ s ∈ single side addons, s.length = 1 :=
    fun s hs => (mem_single_iff.1 hs).2
  unfold chars
  revert h
  generalize single side addons = texts
  intro h
  induction texts with
  | nil => rfl
  | cons s texts ih =>
    obtain ⟨c, rfl⟩ := List.length_eq_one_iff.1 (h s List.mem_cons_self)
    rw [List.flatten_cons, List.map_append,
      ← ih fun t ht => h t (List.mem_cons_of_mem _ ht)]
    rfl

/-- The alternatives of the pattern, each with the parts that it is read as. -/
def readAlternatives (side : Side) (addons : List Addon) : List (Text × List Node) :=
  (long side addons).map (fun s => (escape s, s.map Node.ofChar)) ++
    if chars side addons = [] then []
    else [(['['] ++ escape (chars side addons) ++ [']'],
      [nodeOfRanges false ((chars side addons).map fun c => (c, c))])]

theorem alternatives_eq :
    alternatives side addons = (readAlternatives side addons).map (·.1) := by
  have hescape :
      (single side addons).flatMap escape = escape (chars side addons) := by
    unfold chars escape
    rw [List.flatten_eq_flatMap, List.flatMap_assoc]
    rfl
  have hempty : (single side addons).isEmpty = true ↔ chars side addons = [] := by
    rw [single_eq, List.isEmpty_iff, List.map_eq_nil_iff]
  have halternatives : alternatives side addons = (long side addons).map escape ++
      if (single side addons).isEmpty then []
      else [['['] ++ (single side addons).flatMap escape ++ [']']] := rfl
  rw [halternatives, hescape, readAlternatives, List.map_append, List.map_map]
  congr 1
  by_cases h : chars side addons = []
  · simp [h, hempty.2 h]
  · simp [h, mt hempty.1 h]

theorem readAlternatives_snd :
    (readAlternatives side addons).map (·.2) = wordsAndSet (long side addons)
      (chars side addons) := by
  rw [readAlternatives, wordsAndSet, List.map_append, List.map_map]
  congr 1
  split <;> rfl

theorem ranked_eq : ranked side addons =
    (long side addons ++ (chars side addons).map fun c => [c]) ++
      if isOptional side addons then [[]] else [] := by
  rw [ranked, single_eq]

/-- Without alternatives all symbols are empty. -/
theorem ranked_of_readAlternatives_eq_nil
    (h : readAlternatives side addons = []) : ranked side addons = [[]] := by
  have hlists : (readAlternatives side addons).map (·.2) = _ := readAlternatives_snd
  rw [h, wordsAndSet, eq_comm, List.map_nil, List.append_eq_nil_iff] at hlists
  have hlong : long side addons = [] := by simpa using hlists.1
  have hchars : chars side addons = [] := by simpa using hlists.2
  have hoptional : isOptional side addons = true := by
    cases addons with
    | nil => rfl
    | cons a rest =>
      have hmem : a.symbol side ∈ ranked side (a :: rest) :=
        mem_ranked_iff.2 (.inl (by simp))
      rw [ranked_eq, hlong, hchars] at hmem
      by_cases hoptional : isOptional side (a :: rest) = true
      · exact hoptional
      · simp [hoptional] at hmem
  rw [ranked_eq, hlong, hchars, hoptional]
  rfl

/-- An alternative is an escaped word or a set of escaped characters, and is
read as it is meant. -/
theorem of_mem_readAlternatives {a : Text × List Node}
    (h : a ∈ readAlternatives side addons) :
    ReadAs a.1 (a.2.map .part) ∧ ∀ node ∈ a.2, node.depth ≤ 2 := by
  rcases List.mem_append.1 h with h | h
  · obtain ⟨s, -, rfl⟩ := List.mem_map.1 h
    refine ⟨readAs_escape s, fun node hnode => ?_⟩
    obtain ⟨c, -, rfl⟩ := List.mem_map.1 hnode
    exact Nat.zero_le 2
  · split at h
    next => cases h
    next hchars =>
      rw [List.mem_singleton.1 h]
      refine ⟨readAs_set hchars, fun node hnode => ?_⟩
      rw [List.mem_singleton.1 hnode]
      unfold nodeOfRanges
      dsimp only
      split <;> omega

/-- What the pattern of the symbols on one side adds to a pattern: parts that
match the first symbol that fits. -/
theorem builds_classPattern (side : Side) (addons : List Addon) :
    ∃ nodes, Builds (classPattern side addons) nodes ∧
      (∀ node ∈ nodes, node.depth ≤ 6 ∧ node.pattern.isLoopFree) ∧
      ∀ {α : Type} (c : Cursor) (f : Cursor → Option α),
        tryAll (nodes.map Node.pattern) c f =
          (ranked side addons).findSome? fun s => (c.skip? s).bind f := by
  have hwords : ∀ w ∈ long side addons, 1 < w.length :=
    fun w hw => (mem_long_iff.1 hw).2
  unfold classPattern
  rw [alternatives_eq]
  by_cases hnone : readAlternatives side addons = []
  · -- There is no pattern, and nothing is matched in front of the next part.
    refine ⟨[], ?_, by simp, fun c f => ?_⟩
    · simpa [hnone] using Builds.nil
    · simp [ranked_of_readAlternatives_eq_nil hnone, tryAll, Cursor.skip?]
  · have hne : long side addons ≠ [] ∨ chars side addons ≠ [] := by
      by_cases hlong : long side addons = []
      · refine .inr fun hchars => hnone ?_
        simp [readAlternatives, hlong, hchars]
      · exact .inl hlong
    obtain ⟨node, hnode, hpattern, hbuilds⟩ :=
      builds_group (isOptional side addons) hnone
      (fun a ha => (of_mem_readAlternatives ha).1) (fun a ha =>
        (of_mem_readAlternatives ha).2)
    rw [readAlternatives_snd] at hpattern
    have hloop := isLoopFree_wordsAndSet hwords hne
    refine ⟨[node], ?_, ?_, fun c f => ?_⟩
    · simp only [List.isEmpty_iff, List.map_eq_nil_iff, hnone, if_false]
      split at hbuilds <;> simp_all
    · intro n hn
      rw [List.mem_singleton.1 hn, hpattern]
      refine ⟨by omega, ?_⟩
      split <;> exact hloop
    · have htry := tryEnds_wordsAndSet hwords hne c f
      rw [ranked_eq, List.findSome?_append, ← htry]
      simp only [List.map_cons, List.map_nil, tryAll, hpattern]
      split
      next => simp [Cursor.skip?]
      next => simp

end Addon

/-! ## The patterns of the delimiters -/

theorem tryAll_ofChar {α : Type} (text : Text) (c : Cursor) (f : Cursor → Option α) :
    tryAll ((text.map Node.ofChar).map Node.pattern) c f =
      (c.skip? text).bind f := by
  induction text generalizing c with
  | nil => rfl
  | cons x text ih =>
    have hcons : x :: text = [x] ++ text := rfl
    have hstep : tryAll (((x :: text).map Node.ofChar).map Node.pattern) c f =
        (literal [x]).tryEnds c fun d =>
          tryAll ((text.map Node.ofChar).map Node.pattern) d f := rfl
    rw [hstep, hcons, Cursor.skip?_append, Option.bind_assoc, tryEnds_literal]
    simp only [ih]

theorem ofChar_shallow {text : Text} :
    ∀ node ∈ text.map Node.ofChar, node.depth ≤ 6 ∧ node.pattern.isLoopFree := by
  intro node hnode
  obtain ⟨c, -, rfl⟩ := List.mem_map.1 hnode
  exact ⟨Nat.zero_le 6, rfl⟩

/-- A pattern of shallow parts without loops makes a matcher whose preferred match
goes through them all. -/
theorem firstEnd?_of_builds {source : Text} {nodes : List Node}
    (h : Builds source nodes)
    (hnodes : ∀ node ∈ nodes, node.depth ≤ 6 ∧ node.pattern.isLoopFree) :
    ∃ m, Dialect.matcher source = .ok m ∧ m.guard = none ∧
      ∀ c, m.pattern.firstEnd? c = tryAll (nodes.map Node.pattern) c some := by
  have hread :=
    read?_of_builds h (fun node hnode => (hnodes node hnode).1) (by decide)
  refine ⟨⟨source, (branchOf nodes).pattern, none⟩, ?_, rfl, fun c => ?_⟩
  · simp [Dialect.matcher, Matcher.ofText?, hread]
  · rw [firstEnd?_eq_tryEnds (isLoopFree_branchOf fun node hnode =>
      (hnodes node hnode).2),
      tryEnds_branchOf]

theorem matcher_openerPattern (opener : Text) (addons : List Addon) :
    ∃ m, Dialect.matcher (Dialect.openerPattern opener addons) = .ok m ∧
      m.guard = none ∧
      ∀ c, m.pattern.firstEnd? c =
        (Addon.ranked .left addons).findSome? fun s => c.skip? (opener ++ s) := by
  obtain ⟨nodes, hbuilds, hnodes, htry⟩ := Addon.builds_classPattern .left addons
  obtain ⟨m, hm, hguard, hend⟩ :=
    firstEnd?_of_builds ((builds_escape opener).append hbuilds) fun node hnode =>
    (List.mem_append.1 hnode).elim (ofChar_shallow node) (hnodes node)
  refine ⟨m, hm, hguard, fun c => ?_⟩
  rw [hend, List.map_append, tryAll_append, tryAll_ofChar]
  simp only [htry, Cursor.skip?_append]
  cases c.skip? opener with
  | none => exact (List.findSome?_eq_none_iff.2 fun _ _ => rfl).symm
  | some d => simp

theorem matcher_closerPattern (closer : Text) (addons : List Addon) :
    ∃ m, Dialect.matcher (Dialect.closerPattern closer addons) = .ok m ∧
      m.guard = none ∧
      ∀ c, m.pattern.firstEnd? c =
        (Addon.ranked .right addons).findSome? fun s => c.skip? (s ++ closer) := by
  obtain ⟨nodes, hbuilds, hnodes, htry⟩ := Addon.builds_classPattern .right addons
  obtain ⟨m, hm, hguard, hend⟩ :=
    firstEnd?_of_builds (hbuilds.append (builds_escape closer)) fun node hnode =>
    (List.mem_append.1 hnode).elim (hnodes node) (ofChar_shallow node)
  refine ⟨m, hm, hguard, fun c => ?_⟩
  rw [hend, List.map_append, tryAll_append]
  simp only [tryAll_ofChar, htry, Cursor.skip?_append, Option.bind_fun_some]

namespace Dialect

/-- A dialect as `Dialect.compile` makes it: nothing in it is empty or spans
lines, and its matchers match just its delimiters with their symbols. -/
structure Compiled (d : Dialect) : Prop where
  opener_ne_nil : d.opener ≠ []
  closer_ne_nil : d.closer ≠ []
  single_line : multiline? d.opener d.closer d.addons = none
  openerEnd : ∀ c, d.openerMatcher.pattern.firstEnd? c =
    (Addon.ranked .left d.addons).findSome? fun s => c.skip? (d.opener ++ s)
  closerEnd : ∀ c, d.closerMatcher.pattern.firstEnd? c =
    (Addon.ranked .right d.addons).findSome? fun s => c.skip? (s ++ d.closer)
  openerGuard : d.openerMatcher.guard = some d.closer
  closerGuard : d.closerMatcher.guard = none

theorem compiled_of_compile {opener closer : Text} {addons : List Addon}
    {d : Dialect} (h : compile opener closer addons = .ok d) :
    d.Compiled ∧ d.opener = opener ∧ d.closer = closer ∧ d.addons = addons := by
  unfold compile at h
  split at h
  next => cases h
  next hopener =>
    split at h
    next => cases h
    next hcloser =>
      split at h
      next => cases h
      next hline =>
        obtain ⟨m, hm, -, hend⟩ := matcher_openerPattern opener addons
        obtain ⟨m', hm', hguard', hend'⟩ := matcher_closerPattern closer addons
        simp only [hm, hm', bind, pure, Except.bind, Except.pure,
          Except.ok.injEq] at h
        subst h
        refine ⟨⟨?_, ?_, hline, hend, hend', rfl, hguard'⟩, rfl, rfl, rfl⟩
        · simpa using hopener
        · simpa using hcloser

theorem Compiled.withInsertVariant {d : Dialect} (h : d.Compiled) (index : Nat) :
    (d.withInsertVariant index).Compiled := ⟨h.1, h.2, h.3, h.4, h.5, h.6, h.7⟩

end Dialect

theorem Family.compile_table (f : Family) : f.table.compile = .ok f.dialect := by
  cases f <;> rfl

theorem Family.compiled (f : Family) : f.dialect.Compiled :=
  (Dialect.compiled_of_compile f.compile_table).1

end TemplateTags
