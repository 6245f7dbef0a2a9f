import TemplateTags.Proofs.Cycle.Planned
import TemplateTags.Proofs.Dialect.Longest
import TemplateTags.Proofs.Dialect.Reading
/-!
# What is found around a selection

A line is divided by a selection into what stands left of it, the selected text
and what stands right of it. `Dialect.Closes` says what a closer is on the right
side, `Dialect.Opens` what an opener is on the left side. The closer that is found
is the first one on its side (`Compiled.findFirst?_closes`), and there is one
where the closer stands behind any right symbol. The opener that is found is one
behind which no other begins (`Compiled.findLast?_opens`), and there is one
wherever an opener is not followed by the closer. Both are found at their places
in the whole line (`Surroundings.find_exact`).
-/

namespace TemplateTags

open Text

/-- A text as a block behind another text. -/
def Block.behind (before text : Text) : Block :=
  ⟨⟨before.size, before.size + text.size⟩, text⟩

namespace Dialect

/-- The block is the opener with the longest left symbol that fits, and the closer
stands nowhere behind it. -/
def Opens (d : Dialect) (left : Text) (b : Block) : Prop :=
  ∃ before s later, left = before ++ (d.opener ++ s) ++ later ∧
    b = .behind before (d.opener ++ s) ∧
    d.IsSymbol .left s ∧ (∀ t, d.IsSymbol .left t → t <+: s ++ later →
      t.size ≤ s.size) ∧
    contains d.closer later = false

/-- The block is the closer behind the longest right symbol that fits. -/
def Closes (d : Dialect) (right : Text) (b : Block) : Prop :=
  ∃ before s later, right = before ++ (s ++ d.closer) ++ later ∧
    b = .behind before (s ++ d.closer) ∧
    d.IsSymbol .right s ∧
    ∀ t, d.IsSymbol .right t → t ++ d.closer <+: s ++ d.closer ++ later →
      t.size ≤ s.size

variable {d : Dialect}

/-! ## Openers -/

/-- Openers are matches that count. -/
theorem Compiled.opens_iff (hd : d.Compiled) {left : Text} {b : Block} :
    d.Opens left b ↔ ∃ before later, left = before ++ b.text ++ later ∧
      b = .behind before b.text ∧
      d.openerMatcher.pattern.firstEnd? ⟨before.size, b.text ++ later⟩ =
        some ⟨b.span.stop, later⟩ ∧
      d.openerMatcher.rejects later = false := by
  unfold Opens
  simp only [hd.rejects_opener, hd.openerEnd_eq_some_iff]
  constructor
  · rintro ⟨before, s, later, htext, rfl, hs, hlongest, hcounts⟩
    exact ⟨before, later, htext, rfl, ⟨s, hs, ⟨rfl, rfl⟩, hlongest⟩, hcounts⟩
  · rintro ⟨before, later, htext, hb, ⟨s, hs, ⟨hrest, -⟩, hlongest⟩, hcounts⟩
    have hwritten : b.text = d.opener ++ s := List.append_cancel_right hrest
    rw [hwritten] at htext hb
    exact ⟨before, s, later, htext, hb, hs, hlongest, hcounts⟩

/-- The last opener of a text. Every other one begins in front of its end. -/
theorem Compiled.findLast?_opens (hd : d.Compiled) {left : Text} {b : Block}
    (h : d.openerMatcher.findLast? left = some b) :
    d.Opens left b ∧ ∀ other, d.Opens left other →
      other.span.start < b.span.stop := by
  obtain ⟨before, later, htext, hstart, hstop, hend, hcounts, -⟩ :=
    Matcher.exists_of_findLast? (fun c e he => hd.openerEnd_lt he) h
  obtain ⟨-, -, -, -, -, -, -, hlast⟩ := hd.of_findLast? h
  refine ⟨hd.opens_iff.2 ⟨before, later, htext, ?_, hstart ▸ hend, hcounts⟩, ?_⟩
  · obtain ⟨⟨start, stop⟩, text⟩ := b
    simp only at hstart hstop
    simp [Block.behind, hstart, hstop]
  · rintro other ⟨front, s, rest, happ, rfl, hs, -, -⟩
    exact hlast front rest s (isSymbol_iff.1 hs) happ

/-- An opener is found if there is one. -/
theorem Compiled.isSome_findLast?_iff (hd : d.Compiled) {left : Text} :
    (d.openerMatcher.findLast? left).isSome ↔ ∃ b, d.Opens left b := by
  constructor
  · intro h
    obtain ⟨b, hb⟩ := Option.isSome_iff_exists.1 h
    exact ⟨b, (hd.findLast?_opens hb).1⟩
  · rintro ⟨b, hb⟩
    obtain ⟨before, later, htext, hspan, hend, hcounts⟩ := hd.opens_iff.1 hb
    unfold Matcher.findLast?
    rw [List.getLast?_isSome]
    intro hnil
    rw [List.append_assoc] at htext
    have := Matcher.findAll_eq_nil_iff.1 hnil before (b.text ++ later) _ htext hend
    rw [hcounts] at this
    cases this

/-! ## Closers -/

/-- The first closer of a text. In front of it the closer does not stand
behind any symbol. -/
theorem Compiled.findFirst?_closes (hd : d.Compiled) {right : Text} {b : Block}
    (h : d.closerMatcher.findFirst? right = some b) :
    d.Closes right b ∧ ∀ front t later, d.IsSymbol .right t →
      right = front ++ (t ++ d.closer) ++ later →
      b.span.start ≤ front.size := by
  obtain ⟨before, rest, e, happ, hend, hblock, hnone⟩ :=
    (Matcher.findFirst?_eq_some_iff hd.closerGuard).1 h
  obtain ⟨s, hs, ⟨hrest, hoffset⟩, hlongest⟩ := hd.closerEnd_eq_some_iff.1 hend
  have htext : Matcher.between ⟨before.size, rest⟩ e = s ++ d.closer :=
    Matcher.between_eq hrest hoffset
  have hb : b = .behind before (s ++ d.closer) := by
    rw [← hblock, Matcher.block, htext, hoffset]
    rfl
  refine ⟨⟨before, s, e.rest, ?_, hb, hs, hlongest⟩, ?_⟩
  · rw [happ, List.append_assoc before]
    exact congrArg (before ++ ·) hrest
  · intro front t later ht hright
    have hstart : b.span.start = before.size := congrArg (fun b => b.span.start) hb
    apply Nat.le_of_not_lt
    intro hlt
    rw [List.append_assoc] at hright
    have hfront := hnone front _ hright (hstart ▸ hlt)
    exact hd.closerEnd_eq_none_iff.1 hfront t (isSymbol_iff.1 ht) ⟨later, rfl⟩

/-- A closer is found if the closer stands somewhere behind a symbol. -/
theorem Compiled.isSome_findFirst?_iff (hd : d.Compiled) {right : Text} :
    (d.closerMatcher.findFirst? right).isSome ↔
      ∃ s, d.IsSymbol .right s ∧ contains (s ++ d.closer) right := by
  constructor
  · intro h
    obtain ⟨b, hb⟩ := Option.isSome_iff_exists.1 h
    obtain ⟨⟨before, s, later, htext, -, hs, -⟩, -⟩ := hd.findFirst?_closes hb
    exact ⟨s, hs, contains_iff.2 ⟨before, later, htext⟩⟩
  · rintro ⟨s, hs, hcontains⟩
    obtain ⟨before, later, htext⟩ := contains_iff.1 hcontains
    rw [List.append_assoc] at htext
    unfold Matcher.findFirst?
    rw [List.isSome_head?]
    intro hnil
    cases hend :
      d.closerMatcher.pattern.firstEnd? ⟨before.size, s ++ d.closer ++ later⟩ with
    | none =>
      exact hd.closerEnd_eq_none_iff.1 hend s (isSymbol_iff.1 hs) ⟨later, rfl⟩
    | some e =>
      have hrejects := Matcher.findAll_eq_nil_iff.1 hnil before _ e htext hend
      unfold Matcher.rejects at hrejects
      rw [hd.closerGuard] at hrejects
      cases hrejects

end Dialect

namespace Surroundings

/-- A selection that cuts a line leaves a text on each side to look for delimiters
in. -/
theorem find_line (d : Dialect) (base : Nat) (left selected right : Text) :
    find d ⟨⟨base, base + (left ++ selected ++ right).size⟩,
      left ++ selected ++ right⟩
        ⟨base + left.size, base + left.size + selected.size⟩ =
      ⟨(d.openerMatcher.findLast? left).map (·.moveRight base),
        (d.closerMatcher.findFirst? right).map
          (·.moveRight (base + left.size + selected.size))⟩ := by
  have hstart : cutRegion? ⟨⟨base, base + (left ++ selected ++ right).size⟩,
      left ++ selected ++ right⟩
      (base + left.size) = some (left, selected ++ right) :=
    cutRegion?_eq_some_iff.2 ⟨by simp, rfl⟩
  have hstop : cutRegion? ⟨⟨base, base + (left ++ selected ++ right).size⟩,
      left ++ selected ++ right⟩
      (base + left.size + selected.size) = some (left ++ selected, right) :=
    cutRegion?_eq_some_iff.2 ⟨rfl, by simp only [size_append, Nat.add_assoc]⟩
  unfold find
  simp only [hstart, hstop]

/-- The delimiters found around a selection are those that stand there, at their
places in the line. -/
structure Exact (d : Dialect) (base : Nat) (left selected right : Text)
    (found : Surroundings) : Prop where
  isSome_closer : found.closer.isSome ↔ ∃ s, d.IsSymbol .right s ∧
    contains (s ++ d.closer) right
  closer : ∀ c, found.closer = some c → ∃ b,
    c = b.moveRight (base + left.size + selected.size) ∧
    d.Closes right b ∧ ∀ front t later, d.IsSymbol .right t →
      right = front ++ (t ++ d.closer) ++ later →
      b.span.start ≤ front.size
  isSome_opener : found.opener.isSome ↔ ∃ b, d.Opens left b
  opener : ∀ o, found.opener = some o → ∃ b, o = b.moveRight base ∧ d.Opens left b ∧
    ∀ other, d.Opens left other → b.span.start < other.span.start →
      other.span.start < b.span.stop
  opener_span : ∀ o, found.opener = some o → base ≤ o.span.start ∧
    o.span.stop ≤ base + left.size ∧
    (left ++ selected ++ right).slice? ⟨o.span.start - base, o.span.stop - base⟩ =
      some o.text
  closer_span : ∀ c, found.closer = some c →
    base + left.size + selected.size ≤ c.span.start ∧
    c.span.stop ≤ base + (left ++ selected ++ right).size ∧
    (left ++ selected ++ right).slice? ⟨c.span.start - base, c.span.stop - base⟩ =
      some c.text

/-- In a line that a selection divides, an opener and a closer are found where
there are any: the closer is the first one behind the selection with the longest
symbol that fits there, and the opener one in front of the selection that no
closer follows and that no other one begins behind. -/
theorem find_exact {opener closer : Text} {addons : List Addon} {made : Dialect}
    (hmade : Dialect.compile opener closer addons = .ok made)
    (insertIndex base : Nat) (left selected right : Text) :
    let d := made.withInsertVariant insertIndex
    Exact d base left selected right
      (find d ⟨⟨base, base + (left ++ selected ++ right).size⟩,
        left ++ selected ++ right⟩
        ⟨base + left.size, base + left.size + selected.size⟩) := by
  intro d
  have hd : d.Compiled :=
    (Dialect.compiled_of_compile hmade).1.withInsertVariant insertIndex
  rw [find_line]
  refine ⟨?_, ?_, ?_, ?_, ?_, ?_⟩
  · rw [Option.isSome_map]
    exact hd.isSome_findFirst?_iff
  · intro c hc
    obtain ⟨b, hb, rfl⟩ := Option.map_eq_some_iff.1 hc
    exact ⟨b, rfl, hd.findFirst?_closes hb⟩
  · rw [Option.isSome_map]
    exact hd.isSome_findLast?_iff
  · intro o ho
    obtain ⟨b, hb, rfl⟩ := Option.map_eq_some_iff.1 ho
    obtain ⟨hopens, hlast⟩ := hd.findLast?_opens hb
    exact ⟨b, rfl, hopens, fun other hother _ => hlast other hother⟩
  · intro o ho
    obtain ⟨b, hb, rfl⟩ := Option.map_eq_some_iff.1 ho
    obtain ⟨before, s, later, htext, rfl, -⟩ := (hd.findLast?_opens hb).1
    refine ⟨Nat.le_add_left _ _, ?_, ?_⟩
    · rw [htext]
      simp only [Block.moveRight, Span.moveRight, Block.behind, size_append]
      omega
    · refine slice?_eq_some_iff.2 ⟨before, later ++ (selected ++ right), ?_, ?_, ?_⟩
      · rw [htext]
        simp [Block.moveRight, Block.behind]
      · simp [Block.moveRight, Span.moveRight, Block.behind]
      · simp [Block.moveRight, Span.moveRight, Block.behind]
  · intro c hc
    obtain ⟨b, hb, rfl⟩ := Option.map_eq_some_iff.1 hc
    obtain ⟨before, s, later, htext, rfl, -⟩ := (hd.findFirst?_closes hb).1
    refine ⟨Nat.le_add_left _ _, ?_, ?_⟩
    · rw [htext]
      simp only [Block.moveRight, Span.moveRight, Block.behind, size_append]
      omega
    · refine slice?_eq_some_iff.2 ⟨left ++ selected ++ before, later, ?_, ?_, ?_⟩
      · rw [htext]
        simp [Block.moveRight, Block.behind]
      · simp only [Block.moveRight, Span.moveRight, Block.behind, size_append]
        omega
      · simp only [Block.moveRight, Span.moveRight, Block.behind, size_append]
        omega

/-- Both delimiters are found with the longest symbols that fit, though the closer
itself stands twice behind the selection. -/
theorem find_exact_longest_symbols : ∃ made,
    Dialect.compile ['«'] ['»', '»'] [⟨[], ['»']⟩, ⟨['é'], []⟩,
      ⟨['é', 'é'], []⟩] = .ok made ∧
      Exact (made.withInsertVariant 0) 10 "«éé ".toList ['x'] " »»»".toList
        ⟨some ⟨⟨10, 16⟩, "«éé".toList⟩, some ⟨⟨19, 25⟩, "»»»".toList⟩⟩ := by
  obtain ⟨made, hmade⟩ : ∃ made, Dialect.compile ['«'] ['»', '»']
      [⟨[], ['»']⟩, ⟨['é'], []⟩, ⟨['é', 'é'], []⟩] = .ok made := ⟨_, rfl⟩
  refine ⟨made, hmade, ?_⟩
  have h := find_exact hmade 0 10 "«éé ".toList ['x'] " »»»".toList
  cases hmade
  exact h

end Surroundings

end TemplateTags
