import TemplateTags.Proofs.Pattern.Written
/-!
# Groups that are read back

`Builds` says which parts a written piece adds to the open group. A literal adds
its characters (`builds_escape`), and alternatives in a group add one part, which
matches what the first alternative that fits matches (`builds_alternatives`). A
pattern written with such pieces can be read, and matches one part behind the
other (`read?_of_builds`).
-/

namespace TemplateTags.Pattern

open Cursor

/-! ## What a piece adds -/

/-- The reading with more parts in the current alternative. -/
def Reading.pushAll (r : Reading) (nodes : List Node) (justRepeated : Bool) :
    Reading :=
  { r with current := { r.current with
    parts := nodes.reverse ++ r.current.parts }, justRepeated }

/-- A written piece that adds these parts to the group it stands in. -/
def Builds (text : Text) (nodes : List Node) : Prop :=
  ∃ items, ReadAs text items ∧
    ∀ r : Reading, ∃ flag, ∀ rest, r.run (items ++ rest) =
      (r.pushAll nodes flag).run rest

theorem Builds.nil : Builds [] [] :=
  ⟨[], ReadAs.nil, fun r => ⟨r.justRepeated, fun _ => rfl⟩⟩

theorem Builds.append {a b : Text} {x y : List Node} (ha : Builds a x)
    (hb : Builds b y) :
    Builds (a ++ b) (x ++ y) := by
  obtain ⟨items, hitems, hrun⟩ := ha
  obtain ⟨items', hitems', hrun'⟩ := hb
  refine ⟨items ++ items', hitems.append hitems', fun r => ?_⟩
  obtain ⟨flag, hflag⟩ := hrun r
  obtain ⟨flag', hflag'⟩ := hrun' (r.pushAll x flag)
  refine ⟨flag', fun rest => ?_⟩
  rw [List.append_assoc, hflag, hflag']
  simp [Reading.pushAll]

theorem run_parts (r : Reading) (nodes : List Node) (rest : List Item) :
    r.run (nodes.map .part ++ rest) =
      (r.pushAll nodes (if nodes.isEmpty then r.justRepeated else false)).run
        rest := by
  induction nodes generalizing r with
  | nil => rfl
  | cons node nodes ih =>
    have hstep : r.step (.part node) = some (r.pushAll [node] false) := rfl
    simp only [List.map_cons, List.cons_append, Reading.run, hstep,
      Option.bind_some, ih]
    cases nodes <;> simp [Reading.pushAll]

theorem builds_escape (text : Text) : Builds (escape text) (text.map Node.ofChar) :=
  ⟨_, readAs_escape text, fun r => ⟨_, run_parts r _⟩⟩

/-! ## Alternatives -/

/-- The items of alternatives with bars between them. -/
def itemsBetweenBars : List (List Node) → List Item
  | [] => []
  | [nodes] => nodes.map .part
  | nodes :: rest => nodes.map .part ++ .bar :: itemsBetweenBars rest

theorem readAs_join {alternatives : List (Text × List Node)}
    (h : ∀ a ∈ alternatives, ReadAs a.1 (a.2.map .part)) :
    ReadAs (Text.join ['|'] (alternatives.map (·.1)))
      (itemsBetweenBars (alternatives.map (·.2))) := by
  induction alternatives with
  | nil => exact ReadAs.nil
  | cons a rest ih =>
    have hrest := ih fun b hb => h b (List.mem_cons_of_mem _ hb)
    cases rest with
    | nil => exact h a List.mem_cons_self
    | cons b rest =>
      have hbar : ReadAs ['|'] [.bar] := readAs_sign (by decide) rfl
      have hall := ((h a List.mem_cons_self).append hbar).append hrest
      simpa [Text.join, itemsBetweenBars] using hall

/-- The finished alternative of these parts. -/
def branchOf (nodes : List Node) : Node := OpenGroup.branch ⟨none, [], nodes.reverse⟩

theorem branch_eq (g : OpenGroup) : g.branch = branchOf g.parts.reverse := by
  simp [branchOf, OpenGroup.branch]

/-- What stands in the current group when all alternatives have been read. -/
theorem run_alternatives {alternatives : List (List Node)} (h : alternatives ≠ [])
    (number : Option Nat) (done : List Node) :
    ∃ g : OpenGroup, ∃ flag, g.number = number ∧
      g.branch :: g.branches = (alternatives.map branchOf).reverse ++ done ∧
      ∀ outer count rest, Reading.run ⟨⟨number, done, []⟩, outer, count, false⟩
        (itemsBetweenBars alternatives ++ rest) =
        Reading.run ⟨g, outer, count, flag⟩ rest := by
  induction alternatives generalizing done with
  | nil => exact absurd rfl h
  | cons nodes alternatives ih =>
    cases alternatives with
    | nil =>
      refine ⟨⟨number, done, nodes.reverse⟩, false, rfl, rfl,
        fun outer count rest => ?_⟩
      rw [itemsBetweenBars, run_parts]
      simp [Reading.pushAll]
    | cons next alternatives =>
      obtain ⟨g, flag, hnumber, hbranches, hrun⟩ :=
        ih (by simp) (branchOf nodes :: done)
      refine ⟨g, flag, hnumber, by rw [hbranches]; simp, fun outer count rest => ?_⟩
      have hitems : itemsBetweenBars (nodes :: next :: alternatives) =
          nodes.map .part ++ .bar :: itemsBetweenBars (next :: alternatives) := rfl
      rw [hitems, List.append_assoc, run_parts]
      simp only [List.cons_append, Reading.run, Reading.step, Reading.pushAll,
        Option.bind_some]
      rw [← hrun]
      simp [branch_eq]

/-- The pattern that a group of alternatives is. -/
def groupPattern : List (List Node) → Pattern
  | [nodes] => (branchOf nodes).pattern
  | alternatives =>
    alternation (alternatives.map fun nodes => (branchOf nodes).pattern)

theorem body_pattern {g : OpenGroup} {alternatives : List (List Node)}
    (h : g.branch :: g.branches = (alternatives.map branchOf).reverse) :
    g.body.pattern = groupPattern alternatives := by
  have hlength := congrArg List.length h
  have hreverse := congrArg List.reverse h
  simp only [List.length_cons, List.length_reverse, List.length_map] at hlength
  rw [List.reverse_reverse] at hreverse
  unfold OpenGroup.body
  cases hbranches : g.branches with
  | nil =>
    rw [hbranches] at hlength hreverse
    obtain ⟨nodes, rfl⟩ := List.length_eq_one_iff.1 hlength.symm
    have hbranch : g.branch = branchOf nodes := by simpa using hreverse
    simp [hbranch, groupPattern]
  | cons node rest =>
    rw [hbranches] at hlength hreverse
    have hgroup : groupPattern alternatives =
        alternation (alternatives.map fun nodes => (branchOf nodes).pattern) := by
      unfold groupPattern
      split
      next => simp at hlength
      next => rfl
    simp only [hgroup, hreverse, List.map_map]
    rfl

/-! ## Depth -/

theorem depthAbove_le {nodes : List Node} {k : Nat}
    (h : ∀ node ∈ nodes, node.depth ≤ k) :
    Node.depthAbove nodes ≤ k + 1 := by
  have hfold : ∀ start ≤ k,
      nodes.foldl (fun depth node => max depth node.depth) start ≤ k := by
    induction nodes with
    | nil => exact fun _ hstart => hstart
    | cons node nodes ih =>
      intro start hstart
      have hnode := h node List.mem_cons_self
      exact ih (fun n hn => h n (List.mem_cons_of_mem _ hn)) _
        (Nat.max_le.2 ⟨hstart, hnode⟩)
  exact Nat.add_le_add_right (hfold 0 (Nat.zero_le k)) 1

theorem branch_depth_le {g : OpenGroup} {k : Nat}
    (h : ∀ node ∈ g.parts, node.depth ≤ k) :
    g.branch.depth ≤ k + 1 := by
  unfold OpenGroup.branch
  split
  next => exact Nat.zero_le _
  next node heq =>
    have := h node (by simp [heq])
    omega
  next nodes => exact depthAbove_le h

theorem body_depth_le {g : OpenGroup} {k : Nat}
    (h : ∀ node ∈ g.branch :: g.branches, node.depth ≤ k) :
    g.body.depth ≤ k + 1 := by
  unfold OpenGroup.body
  split
  next => exact Nat.le_succ_of_le (h g.branch List.mem_cons_self)
  next nodes => exact depthAbove_le h

/-! ## Reading a group -/

/-- The items of a group: its alternatives between parentheses, and the sign of
one that may be missing. -/
def groupItems (optional : Bool) (alternatives : List (List Node)) : List Item :=
  [.opening false] ++ itemsBetweenBars alternatives ++ [.closing] ++
    if optional then [.times .optional] else []

theorem run_group {alternatives : List (List Node)} {k : Nat} (optional : Bool)
    (hne : alternatives ≠ [])
    (hdepth : ∀ nodes ∈ alternatives, ∀ node ∈ nodes, node.depth ≤ k) :
    ∃ node : Node, node.depth ≤ k + 4 ∧
      node.pattern = (if optional then .optional (groupPattern alternatives) else
        groupPattern alternatives) ∧
      ∀ (r : Reading) rest, r.run (groupItems optional alternatives ++ rest) =
        (r.pushAll [node] optional).run rest := by
  obtain ⟨g, flag, hnumber, hbranches, hrun⟩ := run_alternatives hne none []
  rw [List.append_nil] at hbranches
  have hnode : g.node = ⟨g.body.pattern, g.body.depth + 1⟩ := by
    unfold OpenGroup.node
    rw [hnumber]
  have hbody : g.body.depth ≤ k + 2 := by
    apply body_depth_le
    intro node hmem
    rw [hbranches, List.mem_reverse, List.mem_map] at hmem
    obtain ⟨nodes, hnodes, rfl⟩ := hmem
    exact branch_depth_le fun node hmem =>
      hdepth nodes hnodes node (List.mem_reverse.1 hmem)
  have hgroup : g.node.pattern = groupPattern alternatives := by
    rw [hnode]
    exact body_pattern hbranches
  have hnodeDepth : g.node.depth ≤ k + 3 := by
    rw [hnode]
    exact Nat.add_le_add_right hbody 1
  -- The sign behind the group makes its node optional, so the group is read
  -- up to its end first.
  have hclosed : ∀ (r : Reading) rest,
      r.run ([.opening false] ++ itemsBetweenBars alternatives ++
      [.closing] ++ rest) = (r.pushAll [g.node] false).run rest := by
    intro r rest
    simp only [List.append_assoc, List.cons_append, List.nil_append, Reading.run,
      Reading.step]
    simp only [Bool.false_eq_true, if_false, Option.bind_some, hrun, Reading.run,
      Reading.step]
    rfl
  cases optional with
  | false =>
    refine ⟨g.node, by omega, hgroup, fun r rest => ?_⟩
    simpa [groupItems] using hclosed r rest
  | true =>
    refine ⟨⟨.optional g.node.pattern, g.node.depth + 1⟩, by
      simp; omega, by simp [hgroup],
      fun r rest => ?_⟩
    have hitems : groupItems true alternatives ++ rest =
        [.opening false] ++ itemsBetweenBars alternatives ++ [.closing] ++
          ([.times .optional] ++ rest) := by simp [groupItems]
    rw [hitems, hclosed]
    rfl

/-- Alternatives in a group, with the sign of one that may be missing or without
it, add one part. -/
theorem builds_group {alternatives : List (Text × List Node)} {k : Nat}
    (optional : Bool) (hne : alternatives ≠ [])
    (hread : ∀ a ∈ alternatives, ReadAs a.1 (a.2.map .part))
    (hdepth : ∀ a ∈ alternatives, ∀ node ∈ a.2, node.depth ≤ k) :
    ∃ node, node.depth ≤ k + 4 ∧
      node.pattern =
        (if optional then .optional (groupPattern (alternatives.map (·.2)))
        else groupPattern (alternatives.map (·.2))) ∧
      Builds (['(', '?', ':'] ++ Text.join ['|'] (alternatives.map (·.1)) ++ [')'] ++
        if optional then ['?'] else []) [node] := by
  have hclose : ReadAs [')'] [.closing] := readAs_sign (by decide) rfl
  have htimes : ReadAs (if optional then ['?'] else [])
      (if optional then [.times .optional] else []) := by
    cases optional with
    | false => exact ReadAs.nil
    | true => exact readAs_sign (by decide) rfl
  have hitems :=
    ((readAs_open.append (readAs_join hread)).append hclose).append htimes
  have hdepths : ∀ nodes ∈ alternatives.map (·.2), ∀ node ∈ nodes,
      node.depth ≤ k := by
    intro nodes hnodes
    obtain ⟨a, ha, rfl⟩ := List.mem_map.1 hnodes
    exact hdepth a ha
  obtain ⟨node, hnode, hpattern, hrun⟩ :=
    run_group optional (by simpa using hne) hdepths
  exact ⟨node, hnode, hpattern, _, hitems, fun r => ⟨optional, hrun r⟩⟩

/-! ## Words and single characters -/

theorem flatMap_eq_self {g : Pattern → List Pattern} {ps : List Pattern}
    (h : ∀ p ∈ ps, g p = [p]) :
    ps.flatMap g = ps := by
  induction ps with
  | nil => rfl
  | cons p ps ih =>
    rw [List.flatMap_cons, h p List.mem_cons_self,
      ih fun q hq => h q (List.mem_cons_of_mem _ hq)]
    rfl

theorem joinLiterals_chars {s : Text} (h : s ≠ []) :
    joinLiterals (s.map fun c => literal [c]) = [literal s] := by
  induction s with
  | nil => exact absurd rfl h
  | cons c s ih =>
    rw [List.map_cons, joinLiterals_cons]
    cases s with
    | nil => rfl
    | cons d s => rw [ih (by simp)]; rfl

theorem branchOf_chars {s : Text} (h : s ≠ []) :
    (branchOf (s.map Node.ofChar)).pattern = literal s := by
  have hconcat : concat (s.map fun c => literal [c]) = literal s := by
    rw [concat, flatMap_eq_self, joinLiterals_chars h]
    · rfl
    · intro p hp
      obtain ⟨c, -, rfl⟩ := List.mem_map.1 hp
      rfl
  unfold branchOf OpenGroup.branch
  split
  next heq => simp_all
  next node heq =>
    obtain ⟨c, rfl⟩ : ∃ c, s = [c] := by
      have := congrArg List.length heq
      exact List.length_eq_one_iff.1 (by simpa using this)
    simp only [List.map_cons, List.map_nil, List.reverse_singleton,
      List.cons.injEq, and_true] at heq
    rw [← heq]
    rfl
  next nodes =>
    rw [List.reverse_reverse, List.map_map]
    exact hconcat

/-- The alternatives of words and of the set of some characters. -/
def wordsAndSet (words : List Text) (chars : List Char) : List (List Node) :=
  words.map (·.map Node.ofChar) ++
    if chars = [] then [] else [[nodeOfRanges false (chars.map fun c => (c, c))]]

/-- A choice that a word of several characters stands first in is not rearranged. -/
theorem alternation_of_word {word : Text} {rest : List Pattern}
    (hword : 1 < word.length) (hrest : ∀ p ∈ rest, p.branches = [p])
    (hne : rest ≠ []) :
    alternation (literal word :: rest) = ofBranches (literal word :: rest) := by
  have hbranches :
      (literal word :: rest).flatMap branches = literal word :: rest := by
    rw [List.flatMap_cons, flatMap_eq_self hrest]
    rfl
  have hsingle : singleChar? (literal word) = none := by
    match word, hword with
    | a :: b :: word, _ => rfl
  unfold alternation
  generalize (literal word :: rest).foldl (fun total p => total + size p) 1 = fuel
  cases fuel with
  | zero => rfl
  | succ fuel =>
    unfold alternationWithin
    rw [hbranches]
    cases rest with
    | nil => exact absurd rfl hne
    | cons p rest => simp [hsingle, set?, sharedParts, isSeq]

/-- The choices of a group: the words as they are, and the set. -/
theorem map_branchOf_wordsAndSet {words : List Text} {chars : List Char}
    (hwords : ∀ w ∈ words, 1 < w.length) :
    (wordsAndSet words chars).map (fun nodes => (branchOf nodes).pattern) =
      words.map literal ++ if chars = [] then [] else
        [ofSet (CharSet.ofChars chars)] := by
  have hset : (branchOf [nodeOfRanges false (chars.map fun c => (c, c))]).pattern =
      ofSet (CharSet.ofChars chars) := rfl
  unfold wordsAndSet
  rw [List.map_append, List.map_map]
  congr 1
  · refine List.map_congr_left fun w hw => branchOf_chars ?_
    have := hwords w hw
    rintro rfl
    simp at this
  · split <;> simp [hset]

theorem groupPattern_wordsAndSet {words : List Text} {chars : List Char}
    (hwords : ∀ w ∈ words, 1 < w.length) (hne : words ≠ [] ∨ chars ≠ []) :
    groupPattern (wordsAndSet words chars) =
      ofBranches (words.map literal ++ if chars = [] then [] else
        [ofSet (CharSet.ofChars chars)]) := by
  have hbranches : (ofSet (CharSet.ofChars chars)).branches =
      [ofSet (CharSet.ofChars chars)] := by
    unfold ofSet
    split <;> rfl
  unfold groupPattern
  split
  next nodes heq =>
    rw [← map_branchOf_wordsAndSet hwords, heq]
    rfl
  next hmany =>
    rw [map_branchOf_wordsAndSet hwords]
    cases words with
    | nil =>
      have hchars : chars ≠ [] := by simpa using hne
      exact absurd (by simp [wordsAndSet, hchars])
        (hmany [nodeOfRanges false (chars.map fun c => (c, c))])
    | cons word words =>
      refine alternation_of_word (hwords word List.mem_cons_self) ?_ ?_
      · intro p hp
        rcases List.mem_append.1 hp with hp | hp
        · obtain ⟨w, -, rfl⟩ := List.mem_map.1 hp
          rfl
        · split at hp
          next => cases hp
          next => rw [List.mem_singleton.1 hp, hbranches]
      · intro hnil
        cases words with
        | nil =>
          by_cases hchars : chars = []
          · exact absurd (by simp [wordsAndSet, hchars])
              (hmany (word.map Node.ofChar))
          · simp [hchars] at hnil
        | cons _ _ => cases hnil

/-- A group of words and of a set of characters matches the first of them that
fits. -/
theorem tryEnds_wordsAndSet {α : Type} {words : List Text} {chars : List Char}
    (hwords : ∀ w ∈ words, 1 < w.length) (hne : words ≠ [] ∨ chars ≠ []) (c : Cursor)
    (f : Cursor → Option α) :
    (groupPattern (wordsAndSet words chars)).tryEnds c f =
      (words ++ chars.map fun x => [x]).findSome? fun s => (c.skip? s).bind f := by
  rw [groupPattern_wordsAndSet hwords hne]
  obtain ⟨p, rest, heq⟩ : ∃ p rest,
      (words.map literal ++ if chars = [] then [] else
        [ofSet (CharSet.ofChars chars)]) = p :: rest := by
    apply List.exists_cons_of_ne_nil
    rcases hne with h | h <;> simp [h]
  rw [heq, tryEnds_ofBranches, ← heq, List.findSome?_append,
    List.findSome?_append, List.findSome?_map, List.findSome?_map]
  congr 1
  · simp [Function.comp_def]
  · split
    next h => simp [h]
    next => simp [tryEnds_ofSet_ofChars, Function.comp_def]

theorem isLoopFree_wordsAndSet {words : List Text} {chars : List Char}
    (hwords : ∀ w ∈ words, 1 < w.length) (hne : words ≠ [] ∨ chars ≠ []) :
    (groupPattern (wordsAndSet words chars)).isLoopFree := by
  rw [groupPattern_wordsAndSet hwords hne]
  have hall :
      ∀ p ∈ words.map literal
        ++ if chars = [] then [] else [ofSet (CharSet.ofChars chars)],
      p.isLoopFree := by
    intro p hp
    rcases List.mem_append.1 hp with hp | hp
    · obtain ⟨w, -, rfl⟩ := List.mem_map.1 hp
      rfl
    · split at hp
      next => cases hp
      next => rw [List.mem_singleton.1 hp]; exact isLoopFree_ofSet _
  revert hall
  generalize words.map literal
    ++ (if chars = [] then [] else [ofSet (CharSet.ofChars chars)]) = patterns
  intro hall
  cases patterns with
  | nil => rfl
  | cons p rest =>
    exact isLoopFree_foldl_choice (hall p List.mem_cons_self) fun q hq =>
      hall q (List.mem_cons_of_mem _ hq)

/-! ## A whole pattern -/

/-- A pattern written with pieces that add these parts is read as one part
behind the other. -/
theorem read?_of_builds {text : Text} {nodes : List Node} {k : Nat}
    (h : Builds text nodes) (hdepth : ∀ node ∈ nodes, node.depth ≤ k)
    (hk : k < maxDepth) :
    read? text = some (branchOf nodes).pattern := by
  obtain ⟨items, hitems, hrun⟩ := h
  obtain ⟨flag, hflag⟩ := hrun Reading.initial
  have hrun' :
      Reading.initial.run items = some (Reading.initial.pushAll nodes flag) := by
    simpa [Reading.run] using hflag []
  have hbody :
      (Reading.initial.pushAll nodes flag).finish = some (branchOf nodes) := by
    simp [Reading.finish, Reading.pushAll, Reading.initial, OpenGroup.body, branchOf]
  have hle : (branchOf nodes).depth ≤ maxDepth :=
    Nat.le_trans (branch_depth_le fun node hmem =>
      hdepth node (List.mem_reverse.1 hmem)) hk
  have hmarks := hitems.items?
  unfold read?
  obtain ⟨marks, hmarks, hitems⟩ := Option.bind_eq_some_iff.1 hmarks
  simp [hmarks, hitems, hrun', hbody, hle]

theorem tryEnds_branchOf {α : Type} (nodes : List Node) (c : Cursor)
    (f : Cursor → Option α) :
    (branchOf nodes).pattern.tryEnds c f = tryAll (nodes.map Node.pattern) c f := by
  unfold branchOf OpenGroup.branch
  split
  next heq =>
    rw [List.reverse_eq_nil_iff.1 heq]
    exact tryEnds_empty c f
  next node heq =>
    rw [List.reverse_eq_iff.1 heq]
    rfl
  next => rw [List.reverse_reverse, tryEnds_concat]

theorem isLoopFree_branchOf {nodes : List Node}
    (h : ∀ node ∈ nodes, node.pattern.isLoopFree) :
    (branchOf nodes).pattern.isLoopFree := by
  unfold branchOf OpenGroup.branch
  split
  next => rfl
  next node heq =>
    apply h
    rw [List.reverse_eq_iff.1 heq]
    exact List.mem_singleton_self node
  next =>
    apply isLoopFree_concat
    intro p hp
    obtain ⟨node, hnode, rfl⟩ := List.mem_map.1 hp
    rw [List.reverse_reverse] at hnode
    exact h node hnode

end TemplateTags.Pattern
