import TemplateTags.Proofs.Dialect.Longest
import TemplateTags.Proofs.Dialect.Reading
/-!
# What compilation makes of a table

A table is refused for an empty delimiter or a line break and for nothing else
(`compile_eq_error_iff`). All others make a dialect: the patterns that are written
for its delimiters are read back, whatever characters are in the symbols, and
match the delimiters with the longest symbols that fit (`Pattern.MatchesLongest`).
-/

namespace TemplateTags

open Text

namespace Pattern

/-- At every place of a text the pattern matches if the written form of some
symbol stands there, and the match is the form of the longest one that does. -/
structure MatchesLongest (p : Pattern) (isSymbol : Text → Prop)
    (written : Text → Text) : Prop where
  matches_iff : ∀ before rest : Text,
    (∃ e, p.firstEnd? ⟨before.size, rest⟩ = some e) ↔ ∃ s, isSymbol s ∧
      written s <+: rest
  longest : ∀ (before rest : Text) (e : Cursor),
    p.firstEnd? ⟨before.size, rest⟩ = some e →
    ∃ s, isSymbol s ∧ rest = written s ++ e.rest ∧
      e.offset = before.size + (written s).size ∧
      ∀ t, isSymbol t → written t <+: rest → t.size ≤ s.size

end Pattern

namespace Dialect

/-! ## Tables that are refused -/

theorem hasLineBreak_iff {text : Text} :
    hasLineBreak text = true ↔ '\n' ∈ text ∨ '\r' ∈ text := by
  unfold hasLineBreak
  simp only [List.any_eq_true, Bool.or_eq_true, beq_iff_eq]
  constructor
  · intro h
    obtain ⟨c, hc, rfl | rfl⟩ := h
    · exact .inl hc
    · exact .inr hc
  · intro h
    rcases h with h | h
    · exact ⟨_, h, .inl rfl⟩
    · exact ⟨_, h, .inr rfl⟩

variable {opener closer : Text} {addons : List Addon}

/-- A dialect is refused for the first thing that is wrong with it: its opener,
its closer, or the first text in it that has a line break. -/
theorem compile_eq_error_iff {error : DialectError} :
    compile opener closer addons = .error error ↔
    (opener = [] ∧ error = .emptyOpener) ∨
      (opener ≠ [] ∧ closer = [] ∧ error = .emptyCloser) ∨
      (opener ≠ [] ∧ closer ≠ [] ∧ ∃ s, multiline? opener closer addons = some s ∧
        error = .lineBreak s) := by
  by_cases hopener : opener = []
  · have hcompile : compile opener closer addons = .error .emptyOpener := by
      simp [compile, hopener]
    rw [hcompile]
    simp [hopener, eq_comm]
  · by_cases hcloser : closer = []
    · have hcompile : compile opener closer addons = .error .emptyCloser := by
        simp [compile, hopener, hcloser]
      rw [hcompile]
      simp [hopener, hcloser, eq_comm]
    · cases hline : multiline? opener closer addons with
      | some s =>
        have hcompile : compile opener closer addons = .error (.lineBreak s) := by
          simp [compile, hopener, hcloser, hline]
        rw [hcompile]
        simp [hopener, hcloser, eq_comm]
      | none =>
        -- Both patterns can be read, so there is a dialect.
        obtain ⟨m, hm, -⟩ := matcher_openerPattern opener addons
        obtain ⟨m', hm', -⟩ := matcher_closerPattern closer addons
        simp [compile, hopener, hcloser, hline, hm, hm', bind, Except.bind, pure,
          Except.pure]

theorem exists_multiline?_iff :
    (∃ s, multiline? opener closer addons = some s) ↔
      ∃ s ∈ opener :: closer :: addons.flatMap (fun a => [a.left, a.right]),
        '\n' ∈ s ∨ '\r' ∈ s := by
  rw [← Option.isSome_iff_exists, multiline?, List.find?_isSome]
  simp only [hasLineBreak_iff]

/-! ## Dialects that are made -/

variable {d : Dialect}

theorem Compiled.opener_matchesLongest (hd : d.Compiled) :
    d.openerMatcher.pattern.MatchesLongest (d.IsSymbol .left) (d.opener ++ ·) := by
  constructor
  · intro before rest
    constructor
    · intro h
      obtain ⟨e, he⟩ := h
      obtain ⟨s, hs, ⟨hrest, -⟩, -⟩ := hd.openerEnd_eq_some_iff.1 he
      exact ⟨s, hs, e.rest, hrest.symm⟩
    · intro h
      obtain ⟨s, hs, behind, hrest⟩ := h
      exact hd.exists_openerEnd (isSymbol_iff.1 hs) hrest.symm
  · intro before rest e he
    obtain ⟨s, hs, ⟨hrest, hoffset⟩, hlongest⟩ := hd.openerEnd_eq_some_iff.1 he
    refine ⟨s, hs, hrest, hoffset, ?_⟩
    intro t ht hfit
    have happ : rest = d.opener ++ (s ++ e.rest) :=
      hrest.trans (List.append_assoc _ _ _)
    rw [happ, List.prefix_append_right_inj] at hfit
    exact hlongest t ht hfit

theorem Compiled.closer_matchesLongest (hd : d.Compiled) :
    d.closerMatcher.pattern.MatchesLongest (d.IsSymbol .right) (· ++ d.closer) := by
  constructor
  · intro before rest
    constructor
    · intro h
      obtain ⟨e, he⟩ := h
      obtain ⟨s, hs, ⟨hrest, -⟩, -⟩ := hd.closerEnd_eq_some_iff.1 he
      exact ⟨s, hs, e.rest, hrest.symm⟩
    · intro h
      obtain ⟨s, hs, hfit⟩ := h
      cases hend : d.closerMatcher.pattern.firstEnd? ⟨before.size, rest⟩ with
      | some e => exact ⟨e, rfl⟩
      | none =>
        exact absurd hfit (hd.closerEnd_eq_none_iff.1 hend s (isSymbol_iff.1 hs))
  · intro before rest e he
    obtain ⟨s, hs, ⟨hrest, hoffset⟩, hlongest⟩ := hd.closerEnd_eq_some_iff.1 he
    refine ⟨s, hs, hrest, hoffset, ?_⟩
    intro t ht hfit
    exact hlongest t ht (hrest ▸ hfit)

/-- A table is refused if and only if a delimiter is empty or a line break
stands in it, and never because of a pattern. The opener of a dialect that is
made matches just where it stands with a left symbol behind it, the closer where
it stands with a right symbol in front of it, and both are matched with the
longest such symbol. -/
theorem compile_exact (opener closer : Text) (addons : List Addon) :
    ((∃ error, compile opener closer addons = .error error) ↔
        opener = [] ∨ closer = [] ∨
          ∃ s ∈ opener :: closer :: addons.flatMap (fun a => [a.left, a.right]),
            '\n' ∈ s ∨ '\r' ∈ s) ∧
      (∀ source, compile opener closer addons ≠ .error (.unreadablePattern source)) ∧
      ∀ d, compile opener closer addons = .ok d →
        (d.opener = opener ∧ d.closer = closer ∧ d.addons = addons) ∧
          d.openerMatcher.pattern.MatchesLongest (d.IsSymbol .left) (opener ++ ·) ∧
          d.closerMatcher.pattern.MatchesLongest (d.IsSymbol .right)
            (· ++ closer) := by
  refine ⟨?_, ?_, ?_⟩
  · rw [← exists_multiline?_iff]
    constructor
    · intro h
      obtain ⟨error, herror⟩ := h
      rcases compile_eq_error_iff.1
        herror with ⟨hopener, -⟩ | ⟨-, hcloser, -⟩ | ⟨-, -, s, hline, -⟩
      · exact .inl hopener
      · exact .inr (.inl hcloser)
      · exact .inr (.inr ⟨s, hline⟩)
    · intro h
      by_cases hopener : opener = []
      · exact ⟨_, compile_eq_error_iff.2 (.inl ⟨hopener, rfl⟩)⟩
      · by_cases hcloser : closer = []
        · exact ⟨_, compile_eq_error_iff.2 (.inr (.inl ⟨hopener, hcloser, rfl⟩))⟩
        · obtain ⟨s, hline⟩ := (h.resolve_left hopener).resolve_left hcloser
          exact ⟨_, compile_eq_error_iff.2
            (.inr (.inr ⟨hopener, hcloser, s, hline, rfl⟩))⟩
  · intro source h
    rw [compile_eq_error_iff] at h
    rcases h with ⟨-, h⟩ | ⟨-, -, h⟩ | ⟨-, -, s, -, h⟩ <;> cases h
  · intro d h
    obtain ⟨hd, rfl, rfl, rfl⟩ := compiled_of_compile h
    exact ⟨⟨rfl, rfl, rfl⟩, hd.opener_matchesLongest, hd.closer_matchesLongest⟩

/-- Brackets, a circumflex and a hyphen, which have a role in patterns, and a
symbol that begins another one. -/
theorem compile_exact_brackets : ∃ d,
    compile ['['] ['^', ']'] [⟨['-'], []⟩, ⟨['-', ']'], ['^']⟩] = .ok d ∧
      d.openerMatcher.pattern.MatchesLongest (d.IsSymbol .left) (['['] ++ ·) ∧
      d.closerMatcher.pattern.MatchesLongest (d.IsSymbol .right)
        (· ++ ['^', ']']) := by
  obtain ⟨d, hd⟩ : ∃ d, compile ['['] ['^', ']'] [⟨['-'], []⟩, ⟨['-', ']'], ['^']⟩] =
      .ok d := ⟨_, rfl⟩
  exact ⟨d, hd,
    ((compile_exact ['['] ['^', ']'] [⟨['-'], []⟩, ⟨['-', ']'], ['^']⟩]).2.2 d hd).2⟩

end Dialect

end TemplateTags
