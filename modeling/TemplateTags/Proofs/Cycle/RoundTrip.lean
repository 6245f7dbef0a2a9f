import Mathlib.Data.List.TakeWhile
import TemplateTags.Proofs.Cycle.Context
import TemplateTags.Proofs.Dialect.Braces
/-!
# Finding an inserted tag

A tag that is put around a selection is written in the context of a selection
between two spaces (`TagContext.spaced`, `Plan.insert_eq_write`). Its closer is
always read back (`Family.readsCloser_space`), and its opener as well, except for
the Jinja opener with a percent sign behind an odd number of braces: then a brace
in front of it and its own brace make an opener (`Plan.insert_reads_iff`).
-/

namespace TemplateTags

open Text

/-- The last line of a text ends with as many braces as the text. -/
theorem Text.trailingBraces_lastLine (text : Text) :
    (lastLine text).trailingBraces = text.trailingBraces := by
  unfold trailingBraces lastLine
  rw [List.reverse_reverse, List.takeWhile_takeWhile]
  congr 2
  funext c
  by_cases hc : c = '{'
  · subst hc
    rfl
  · simp [hc]

namespace Family

open Dialect

/-- The closers of every family are found behind a space. -/
theorem readsCloser_space (f : Family) {v : Variant} (hv : v ∈ f.dialect.variants)
    (behind : Text) :
    ReadsCloser f.dialect [' '] v.closer behind := by
  obtain ⟨s, hs, hcloser⟩ := (written_of_mem_variants hv).closer
  have hunclosed : Unclosed f.dialect [' '] := by
    have hcontains : ∀ t ∈ Addon.ranked .right f.dialect.addons,
        contains (t ++ f.dialect.closer) [' '] = false := by
      cases f <;> decide
    intro front rest t ht hspace
    have := hcontains t ht
    rw [contains_iff.2 ⟨front, rest, hspace⟩] at this
    cases this
  -- With no symbols on its side, the closer is the only one there is.
  have hbare (hranked : Addon.ranked .right f.dialect.addons = [] ++ [] :: [])
      (hbegin : f.dialect.closer.head? ≠ some ' ') :
        ReadsCloser f.dialect [' '] v.closer behind := by
    have hd := compiled f
    have hclosers : ∀ t ∈ Addon.ranked .right f.dialect.addons, t = [] := by
      rw [hranked]
      intro t ht
      exact List.mem_singleton.1 ht
    rw [hcloser, hclosers s hs, List.nil_append]
    refine hd.readsCloser hunclosed (hd.closerEnd_eq _ hranked (by simp)) ?_
    intro t ht rest ahead hrest hahead hsplit hsuffix
    have hspace : rest = [' '] := by
      rcases List.suffix_cons_iff.1 hsuffix with h | h
      · exact h
      · exact absurd (List.suffix_nil.1 h) hrest
    rw [hclosers t ht, hspace, List.nil_append] at hsplit
    rw [hsplit] at hbegin
    exact absurd rfl hbegin
  cases f with
  | erb =>
    rw [hcloser]
    exact readsCloser_erb hs (fun _ => by decide) hunclosed
  | bracePercent =>
    have hranked : Addon.ranked .right bracePercent.dialect.addons =
        ['%', '}'].map ([·]) := by decide
    rw [hranked] at hs
    obtain ⟨c, hc, rfl⟩ := List.mem_map.1 hs
    rw [hcloser]
    have hapart : ∀ symbol ∈ bracePercent.joining .right,
        ¬ symbol <:+ [' '] := by decide
    exact readsCloser_bracePercent hc (fun symbol hsymbol h =>
      absurd h (hapart symbol hsymbol)) hunclosed
  | mustache => exact hbare (by decide) (by decide)
  | php => exact hbare (by decide) (by decide)

end Family

namespace TagContext

/-- A selection between two spaces. -/
def spaced (before selected behind : Text) : TagContext :=
  ⟨before, [' '], selected, [' '], behind⟩

end TagContext

namespace TagEdit

variable {before selected behind : Text} {s : Span}

/-- Where nothing is found the insert variant is put around the selection. -/
theorem ofSelection_eq_inserting {d : Dialect} {text : Text}
    (hinsert : Action.choose d text s = .insert) :
    ofSelection d text s = inserting d s := by
  unfold ofSelection
  rw [hinsert]
  rfl

/-- The selection is moved by the opener and the space behind it. -/
theorem selection_inserting (d : Dialect) (hstart : before.size = s.start)
    (hstop : before.size + selected.size = s.stop) :
    (inserting d s).selection =
      (TagContext.spaced before selected behind).selection d.insertVariant := by
  simp only [selection, inserting, Edit.insertion, Edit.delta, Span.length,
    Span.shift, Span.shiftOffset, Span.point, TagContext.selection,
    TagContext.spaced, size_append, ← hstart, ← hstop, Span.mk.injEq]
  omega

theorem rewrites_inserting (d : Dialect) (behind : Text)
    (hstart : before.size = s.start)
    (hstop : before.size + selected.size = s.stop) :
    Edit.Rewrites 0 (before ++ selected ++ behind) [(inserting d s).opener,
      (inserting d s).closer]
      ((TagContext.spaced before selected behind).text d.insertVariant) := by
  have hcloser :
      Edit.Rewrites s.start (selected ++ [] ++ behind) [(inserting d s).closer]
      (selected ++ ' ' :: d.insertVariant.closer ++ behind) :=
    .edit (by show _ = s.stop; omega) (Nat.add_zero _) (.done _ _)
  have hopener : Edit.Rewrites 0 (before ++ [] ++ (selected ++ [] ++ behind))
      [(inserting d s).opener, (inserting d s).closer]
      (before ++ (d.insertVariant.opener ++ [' '])
        ++ (selected ++ ' ' :: d.insertVariant.closer ++ behind)) :=
    .edit (by rw [Nat.zero_add]; exact hstart) (Nat.add_zero _) hcloser
  simpa [TagContext.text, TagContext.spaced] using hopener

end TagEdit

namespace Plan

/-- Putting a tag around a selection writes the insert variant around the
selection between two spaces. -/
theorem insert_eq_write {d : Dialect} {before selected behind : Text} {s : Span}
    (hstart : before.size = s.start)
    (hstop : before.size + selected.size = s.stop)
    (hinsert : Action.choose d (before ++ selected ++ behind) s = .insert) :
    let t := TagContext.spaced before selected behind
    let plan := make d (before ++ selected ++ behind) [s]
    Edit.applyAll plan.edits (before ++ selected ++ behind) =
      (t.text d.insertVariant, none) ∧
      plan.selections = [t.selection d.insertVariant] := by
  intro t plan
  have hplan :
      plan = ⟨[(TagEdit.inserting d s).opener, (TagEdit.inserting d s).closer],
      [t.selection d.insertVariant]⟩ := by
    refine (make_singleton d (hasSpan_of_append hstart hstop)).trans ?_
    rw [TagEdit.ofSelection_eq_inserting hinsert,
      TagEdit.selection_inserting d hstart hstop]
  rw [hplan]
  exact ⟨(TagEdit.rewrites_inserting d behind hstart hstop).applyAll_eq, rfl⟩

/-- A tag that has been put around a selection is found around it, with the
delimiters that were put in, unless these are the Jinja delimiters with percent
signs and an odd number of braces stands in front of the opener. -/
theorem insert_reads_iff (f : Family) (insertIndex : Nat) (text : Text) (s : Span)
    (hs : text.HasSpan s)
    (hinsert : Action.choose (f.dialect.withInsertVariant insertIndex) text s =
      .insert) :
    let d := f.dialect.withInsertVariant insertIndex
    let plan := make d text [s]
    ∃ result moved, Edit.applyAll plan.edits text = (result, none) ∧
      plan.selections = [moved] ∧
      result.HasSpan moved ∧ result.slice? moved = text.slice? s ∧
      ((∃ opener closer, (Surroundings.find d (result.region moved) moved).pair? =
        some (opener, closer) ∧
          opener.text = d.insertVariant.opener ∧
            closer.text = d.insertVariant.closer) ↔
        ¬ (d.insertVariant.opener = ['{', '%'] ∧
          (text.slice ⟨0, s.start⟩).trailingBraces % 2 = 1)) := by
  intro d plan
  have hd : d.Compiled := (Family.compiled f).withInsertVariant insertIndex
  have hv : d.insertVariant ∈ f.dialect.variants := List.get_mem _ _
  have hwritten : d.Written d.insertVariant := Dialect.written_of_mem_variants hv
  obtain ⟨before, selected, behind, rfl, hstart, hstop⟩ := hs.exists_append
  obtain ⟨happly, hselections⟩ := insert_eq_write hstart hstop hinsert
  obtain ⟨t, ht⟩ : ∃ t, t = TagContext.spaced before selected behind := ⟨_, rfl⟩
  have hfront : (before ++ selected ++ behind).slice ⟨0, s.start⟩ = before := by
    have hslice : (before ++ selected ++ behind).slice? ⟨0, s.start⟩ = some before :=
      slice?_eq_some_iff.2 ⟨[], selected ++ behind, by simp, rfl,
        (Nat.zero_add _).trans hstart⟩
    rw [slice, hslice]
    rfl
  refine ⟨t.text d.insertVariant, t.selection d.insertVariant, ht ▸ happly,
    ht ▸ hselections,
    t.hasSpan_selection _, ?_, ?_⟩
  · rw [slice?_eq_some_iff.2 ⟨before, behind, rfl, hstart, hstop⟩]
    rw [ht]
    exact slice?_append _ _ _
  · have hnoleft : '\n' ∉ t.left := by simp [ht, TagContext.spaced]
    have hnoright : '\n' ∉ t.right := by simp [ht, TagContext.spaced]
    have hopener := TagContext.lastLine_opener hd hwritten hnoleft
    have hcloser := TagContext.firstLine_closer hd hwritten hnoright
    have hpair (opener closer : Block) :
        (Surroundings.find d ((t.text d.insertVariant).region
          (t.selection d.insertVariant))
          (t.selection d.insertVariant)).pair? = some (opener, closer) ↔ _ :=
      Surroundings.pair?_find_append_iff
        (t.before ++ d.insertVariant.opener ++ t.left) t.selected
        (t.right ++ d.insertVariant.closer ++ t.behind) hd.findFirst?_nil
    simp only [hopener, hcloser] at hpair
    subst ht
    obtain ⟨o, ho, htext⟩ := f.findLast?_opener hv (lastLine before)
    have hc := (Family.compiled f).findFirst?_eq_some_iff.2
      (f.readsCloser_space hv (dropReturn (firstLine behind)))
    rw [trailingBraces_lastLine] at htext
    rw [hfront, ← htext]
    constructor
    · intro hread
      obtain ⟨opener, closer, hfound, hotext, -⟩ := hread
      obtain ⟨o', ho', hmoved⟩ :=
        Option.map_eq_some_iff.1 ((hpair opener closer).1 hfound).1
      obtain rfl : o = o' := Option.some.inj (ho.symm.trans ho')
      rw [← hotext, ← hmoved]
      rfl
    · intro hotext
      exact ⟨_, _, (hpair _ _).2 ⟨congrArg (Option.map _) ho,
        congrArg (Option.map _) hc⟩, hotext, rfl⟩

/-- Behind two braces the tag that is put in is found, for they are an
opener of their own. -/
theorem insert_reads_braces :
    let d := Family.bracePercent.dialect.withInsertVariant 0
    let text : Text := "é \x7b\x7ba".toList
    text.HasSpan ⟨5, 6⟩ ∧ Action.choose d text ⟨5, 6⟩ = .insert ∧
      ∃ result moved, Edit.applyAll (make d text [⟨5, 6⟩]).edits text =
        (result, none) ∧
        (make d text [⟨5, 6⟩]).selections = [moved] ∧
          result.slice? moved = some ['a'] ∧
        ∃ opener closer, (Surroundings.find d (result.region moved) moved).pair? =
          some (opener, closer) ∧
          opener.text = ['{', '%'] ∧ closer.text = ['%', '}'] := by
  refine ⟨by decide, by decide, ?_⟩
  obtain ⟨result, moved, happly, hselections, -, hcontent, hfound⟩ :=
    insert_reads_iff .bracePercent 0 "é \x7b\x7ba".toList ⟨5, 6⟩
      (by decide) (by decide)
  exact ⟨result, moved, happly, hselections, hcontent, hfound.2 (by decide)⟩

/-- Behind one brace the tag that is put in is not found: the brace and the one of
the opener are taken for the opener. -/
theorem not_insert_reads_brace :
    let d := Family.bracePercent.dialect
    let plan := make d "\x7ba".toList [⟨1, 2⟩]
    Text.HasSpan "\x7ba".toList ⟨1, 2⟩ ∧
      Action.choose d "\x7ba".toList ⟨1, 2⟩ = .insert ∧
      Edit.applyAll plan.edits "\x7ba".toList = ("\x7b\x7b% a %\x7d".toList, none) ∧
        plan.selections = [⟨4, 5⟩] ∧
      ¬ ∃ opener closer, (Surroundings.find d
        (Text.region "\x7b\x7b% a %\x7d".toList ⟨4, 5⟩) ⟨4, 5⟩).pair? =
          some (opener, closer) ∧ opener.text = d.insertVariant.opener ∧
            closer.text = d.insertVariant.closer := by
  refine ⟨by decide, by decide, by decide, by decide, ?_⟩
  intro ⟨opener, closer, hfound, hopener, _⟩
  have hbraces : (Surroundings.find Family.bracePercent.dialect
      (Text.region "\x7b\x7b% a %\x7d".toList ⟨4, 5⟩) ⟨4, 5⟩).pair? =
      some (⟨⟨0, 2⟩, ['{', '{']⟩, ⟨⟨6, 8⟩, ['%', '}']⟩) := by decide
  rw [hbraces] at hfound
  cases hfound
  revert hopener
  decide

end Plan

end TemplateTags
