import TemplateTags.Proofs.Dialect.Longest
import TemplateTags.Proofs.Dialect.Rotation
import TemplateTags.Proofs.Document.Lines
import TemplateTags.Proofs.Session.Closure
/-!
# A tag alone on its line

Where a line is a variant and nothing else, each delimiter is read to its end:
there is no text around it with which a longer symbol would fit, none in which the
closer could stand, and no other delimiter (`TagContext.reads_alone`). So a cursor
between the two delimiters goes through the cycle of the dialect, whatever its
delimiters and symbols are (`Session.cycleTimes_alone`), and nothing but its line
is written (`Session.cycleTimes_line_alone`).
-/

namespace TemplateTags

open Text

namespace Dialect

variable {d : Dialect}

/-- At the end of its line an opener is read with all of its symbol. -/
theorem Compiled.readsOpener_alone (hd : d.Compiled) {v : Variant}
    (hv : d.Written v) :
    ReadsOpener d [] v.opener [] where
  ends := by
    obtain ⟨s, hs, hopener⟩ := hv.opener
    rw [hopener]
    refine hd.openerEnd_eq_some_iff.2 ⟨s, isSymbol_iff.2 hs, ⟨rfl, rfl⟩,
      fun t _ hfit => ?_⟩
    obtain ⟨rest, hrest⟩ := hfit
    have hsize := congrArg size hrest
    simp only [size_append, size_nil] at hsize
    omega
  reached := Nat.le_refl _
  unclosed := by
    cases hcloser : d.closer with
    | nil => exact absurd hcloser hd.closer_ne_nil
    | cons c rest => rfl
  last before behind s _ hnil := by
    have := hd.opener_ne_nil
    simp_all

/-- At the beginning of what is left of its line a closer is read with all of its
symbol, if nothing follows. -/
theorem Compiled.readsCloser_alone (hd : d.Compiled) {v : Variant}
    (hv : d.Written v) :
    ReadsCloser d [] v.closer [] where
  ends := by
    obtain ⟨s, hs, hcloser⟩ := hv.closer
    rw [hcloser]
    refine hd.closerEnd_eq_some_iff.2 ⟨s, isSymbol_iff.2 hs, ⟨rfl, rfl⟩,
      fun t _ hfit => ?_⟩
    obtain ⟨rest, hrest⟩ := hfit
    have hsize := congrArg size hrest
    simp only [size_append, size_nil] at hsize
    omega
  first front rest hnil hne := absurd (List.append_eq_nil_iff.1 hnil.symm).2 hne

/-- A variant without anything in it is a text of one line. -/
theorem Compiled.newline_notMem_append (hd : d.Compiled) {v : Variant}
    (hv : d.Written v) :
    '\n' ∉ v.opener ++ v.closer := by
  intro hmem
  rcases List.mem_append.1 hmem with hmem | hmem
  · exact hd.newline_notMem hv hmem
  · exact (hd.ne_of_mem_closer hv hmem).1 rfl

end Dialect

namespace TagContext

/-- A tag with nothing in it, between two texts. -/
def alone (before behind : Text) : TagContext := ⟨before, [], [], [], behind⟩

theorem write_alone (before behind : Text) (v : Variant) :
    (alone before behind).write v =
    ⟨before ++ (v.opener ++ v.closer) ++ behind,
      [.point (before.size + v.opener.size)]⟩ := by
  simp [write, text, selection, alone, Span.point]

/-- Where a line begins in front of a variant and nothing of it follows, the
variant is found. -/
theorem reads_alone {d : Dialect} (hd : d.Compiled) {v : Variant}
    (hv : v ∈ d.variants) {before behind : Text} (hbefore : lastLine before = [])
    (hbehind : dropReturn (firstLine behind) = []) :
    (alone before behind).Reads d v := by
  have hwritten := Dialect.written_of_mem_variants hv
  refine (reads_iff hd hwritten).2 ⟨by simp [alone], by simp [alone], ?_, ?_⟩
  · show Dialect.ReadsOpener d (lastLine before) v.opener []
    rw [hbefore]
    exact hd.readsOpener_alone hwritten
  · show Dialect.ReadsCloser d [] v.closer (dropReturn (firstLine behind))
    rw [hbehind]
    exact hd.readsCloser_alone hwritten

end TagContext

namespace Session

/-- Each action on a tag that is alone on its line writes the variant after the
one that is there. -/
theorem cycleTimes_alone {s : Session} (hd : s.active.Compiled) {v : Variant}
    (hv : v ∈ s.active.variants) {before behind : Text}
    (hbefore : lastLine before = [])
    (hbehind : dropReturn (firstLine behind) = []) (k : Nat) :
    s.cycleTimes ((TagContext.alone before behind).write v) k =
      ((TagContext.alone before behind).write (s.active.following^[k] v), none) := by
  induction k with
  | zero => rfl
  | succ k ih =>
    have hmem := Dialect.iterate_following_mem_variants hv k
    rw [cycleTimes, ih, Function.iterate_succ_apply']
    exact (TagContext.reads_alone hd hmem hbefore hbehind).cycle

/-- In any document in which a line is a variant of a dialect and nothing else, a
cursor between its delimiters goes from variant to variant. All actions succeed,
the cursor stays between the delimiters, and every other line stays as it is. -/
theorem cycleTimes_line_alone {opener closer : Text} {addons : List Addon}
    {made : Dialect} (hmade : Dialect.compile opener closer addons = .ok made)
    (insertIndex : Nat) (s : Session)
    (hactive : s.active = made.withInsertVariant insertIndex) {v : Variant}
    (hv : v ∈ made.variants) (text : Text) (offset : Nat)
    (hline : (text.line offset).text = v.opener ++ v.closer) (k : Nat) :
    let old := text.line offset
    let w := made.following^[k] v
    ∃ result, s.cycleTimes ⟨text, [.point (old.span.start + v.opener.size)]⟩ k =
        (⟨result, [.point (old.span.start + w.opener.size)]⟩, none) ∧
      LineReplaced text old (w.opener ++ w.closer) result := by
  intro old w
  have hd := (Dialect.compiled_of_compile hmade).1
  have hactive' : s.active.Compiled := hactive ▸ hd.withInsertVariant insertIndex
  -- The variant to insert has no part in the cycle.
  have hvariants : s.active.variants = made.variants := by rw [hactive]; rfl
  have hfollowing : s.active.following = made.following := by rw [hactive]; rfl
  obtain ⟨front, behind, htext, hstart, hfront, hbehind, -⟩ :=
    exists_line text offset
  have hwritten :=
    Dialect.written_of_mem_variants (Dialect.iterate_following_mem_variants hv k)
  have hreplaced :=
    lineReplaced_withPiece text offset (hd.newline_notMem_append hwritten)
    (hd.getLast?_append_closer_ne hwritten _)
  have hcycle := cycleTimes_alone hactive' (hvariants ▸ hv) hfront hbehind k
  rw [hfollowing, TagContext.write_alone, TagContext.write_alone, ← hline,
    ← htext, hstart] at hcycle
  refine ⟨_, hcycle, ?_⟩
  obtain ⟨_, _, _, hfrom, hto⟩ := slice?_eq_some_iff.1 (slice?_line text offset)
  have hspan : (text.line offset).span =
      ⟨front.size, front.size + (text.line offset).text.size⟩ := by
    rw [hfrom, ← hstart] at hto
    rw [hto, hstart]
  have hresult : text.withPiece (text.line offset).span (w.opener ++ w.closer) =
      front ++ (w.opener ++ w.closer) ++ behind := by
    rw [hspan]
    conv => enter [1, 1]; rw [htext]
    exact withPiece_append _ _ _ _
  rw [← hresult]
  exact hreplaced

/-- A dialect with one bar for both delimiters, whose symbols have bars in them
and begin each other, in a document with carriage returns and wide characters.
Three actions lead from the third variant around to the second. -/
theorem cycleTimes_line_alone_bars : ∃ made,
    Dialect.compile ['|'] ['|'] [⟨[], []⟩, ⟨['|'], ['|']⟩, ⟨['é'], ['|', 'é']⟩,
      ⟨['é', '|'], []⟩] = .ok made ∧
      cycleTimes ⟨.empty, [], made.withInsertVariant 5, 5⟩
        ⟨"é |\r\n|é|é|\r\n||".toList, [.point 9]⟩ 3 =
        (⟨"é |\r\n||||\r\n||".toList, [.point 8]⟩, none) := by
  obtain ⟨made, hmade, hv, hw⟩ : ∃ made,
      Dialect.compile ['|'] ['|'] [⟨[], []⟩, ⟨['|'], ['|']⟩, ⟨['é'], ['|', 'é']⟩,
        ⟨['é', '|'], []⟩] = .ok made ∧
        ⟨['|', 'é'], ['|', 'é', '|']⟩ ∈ made.variants ∧
        made.following^[3] ⟨['|', 'é'], ['|', 'é', '|']⟩ =
          ⟨['|', '|'], ['|', '|']⟩ :=
    ⟨_, rfl, by decide, by decide⟩
  obtain ⟨result, hcycle, hreplaced⟩ := cycleTimes_line_alone hmade 5
    ⟨.empty, [], made.withInsertVariant 5, 5⟩ rfl hv "é |\r\n|é|é|\r\n||".toList 11
      (by decide) 3
  rw [hw] at hcycle hreplaced
  have hresult : result = "é |\r\n||||\r\n||".toList := by
    rw [hreplaced.text_eq]
    decide
  rw [hresult] at hcycle
  exact ⟨made, hmade, hcycle⟩

end Session

end TemplateTags
