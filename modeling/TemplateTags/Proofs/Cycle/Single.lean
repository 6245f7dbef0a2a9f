import TemplateTags.Proofs.Cycle.RoundTrip
/-!
# Plans for one selection

A plan finds its selection by following both ends through the edits, and the edit
of a tag by moving them by the opener's change alone. For one selection both are
the same (`Plan.make_singleton`), and so is what machine words make of it
(`TagEdit.wordSelection_eq`). Applied to the text, the plan writes the next
variant over the one that was found, or the insert variant around the selection,
and keeps everything else (`Plan.singleton_writes`).
-/

namespace TemplateTags

open Text

/-- Between texts whose sizes are signed machine words the selection of a tag
does not wrap around. -/
theorem TagEdit.wordSelection_eq {own : TagEdit} {text result : Text}
    (hrewrites : Edit.Rewrites 0 text [own.opener, own.closer] result)
    (hmoved : result.HasSpan own.selection)
    (htext : 2 * text.size < Edit.wordModulus)
    (hresult : 2 * result.size < Edit.wordModulus) :
    own.wordSelection = own.selection := by
  have hordered := hmoved.ordered
  have hinside := hmoved.stop.le_size
  have hdelta : own.opener.wordDelta = own.opener.delta := by
    -- The opener's edit takes a piece of the one text away and leaves a
    -- piece of the other one.
    cases hrewrites with
    | edit hstart hstop _ =>
      simp only [size_append] at htext hresult
      unfold Edit.wordDelta Edit.delta Span.length
      exact Int.bmod_eq_of_le (by omega) (by omega)
  unfold wordSelection maxOffset
  rw [hdelta]
  show Span.mk (min own.selection.start _) (min own.selection.stop _) = own.selection
  rw [Nat.min_eq_left (by omega), Nat.min_eq_left (by omega)]

/-- What the edits of a tag do that write a variant into a context and move the
selection with its text. -/
theorem TagContext.write_of_rewrites {t : TagContext} {w : Variant}
    {own : TagEdit} {text : Text} {s : Span}
    (hrewrites : Edit.Rewrites 0 text [own.opener, own.closer] (t.text w))
    (hselection : own.selection = t.selection w)
    (hcontent : text.slice? s = some t.selected) :
    Edit.applyAll [own.opener, own.closer] text = (t.text w, none) ∧
      (t.text w).slice? own.selection = text.slice? s ∧
      (2 * text.size < Edit.wordModulus → 2 * (t.text w).size < Edit.wordModulus →
        own.wordSelection = own.selection) ∧
      t.write w = ⟨t.text w, [own.selection]⟩ := by
  refine ⟨hrewrites.applyAll_eq, ?_, TagEdit.wordSelection_eq hrewrites ?_, ?_⟩
  · rw [hselection, hcontent]
    exact slice?_append _ _ _
  · rw [hselection]
    exact t.hasSpan_selection w
  · rw [hselection]
    rfl

namespace Plan

/-- A plan for one selection has the two edits of its tag, opener and closer, and
the selection of the tag's edit, also in machine words. It always applies, and the
selection still covers what it covered. Where a pair was found, the text around
and between its delimiters stays, and the delimiters are those of the next
variant. Where none was, the insert variant stands around the selection, with a
space inside of each delimiter, and the rest of the text stays. -/
theorem singleton_writes (d : Dialect) {text : Text} {s : Span}
    (hs : text.HasSpan s) :
    let own := TagEdit.ofSelection d text s
    let plan := make d text [s]
    plan = ⟨[own.opener, own.closer], [own.selection]⟩ ∧
      ∃ result, Edit.applyAll plan.edits text = (result, none) ∧
        result.slice? own.selection = text.slice? s ∧
        (2 * text.size < Edit.wordModulus → 2 * result.size < Edit.wordModulus →
          own.wordSelection = own.selection) ∧
        match (Surroundings.find d (text.region s) s).pair? with
        | some (opener, closer) =>
          let t := TagContext.around text s opener closer
          let found : Variant := ⟨opener.text, closer.text⟩
          t.write found = ⟨text, [s]⟩ ∧ t.openerBlock found = opener ∧
            t.closerBlock found = closer ∧
            t.write (d.next opener.text closer.text) = ⟨result, [own.selection]⟩
        | none =>
          ∃ before selected behind, text = before ++ selected ++ behind ∧
            before.size = s.start ∧
            before.size + selected.size = s.stop ∧
            (TagContext.spaced before selected behind).write d.insertVariant =
              ⟨result, [own.selection]⟩ := by
  intro own plan
  have hplan : plan = ⟨[own.opener, own.closer], [own.selection]⟩ :=
    make_singleton d hs
  refine ⟨hplan, ?_⟩
  rw [hplan]
  cases hpair : (Surroundings.find d (text.region s) s).pair? with
  | some pair =>
    obtain ⟨opener, closer⟩ := pair
    obtain ⟨hwrite, hreads⟩ := TagContext.write_around hs hpair
    simp only
    generalize TagContext.around text s opener closer = t at *
    have htext : t.text ⟨opener.text, closer.text⟩ = text :=
      congrArg Buffer.text hwrite
    have hspan : t.selection ⟨opener.text, closer.text⟩ = s :=
      List.head_eq_of_cons_eq (congrArg Buffer.selections hwrite)
    have hown : own = t.replacing ⟨opener.text, closer.text⟩
        (d.next opener.text closer.text) := by
      rw [← hreads.ofSelection_eq, htext, hspan]
    have hblocks := hreads
    rw [TagContext.Reads, htext, hspan, hpair, Option.some_inj,
      Prod.mk.injEq] at hblocks
    have hrewrites : Edit.Rewrites 0 text [own.opener, own.closer]
        (t.text (d.next opener.text closer.text)) := by
      rw [hown, ← htext]
      exact t.rewrites_replacing _ _
    have hcontent : text.slice? s = some t.selected := by
      rw [← htext, ← hspan]
      exact slice?_append _ _ _
    obtain ⟨happly, hslice, hword, hwritten⟩ :=
      TagContext.write_of_rewrites hrewrites
        (by rw [hown, t.selection_replacing]) hcontent
    exact ⟨_, happly, hslice, hword, hwrite, hblocks.1.symm,
      hblocks.2.symm, hwritten⟩
  | none =>
    obtain ⟨before, selected, behind, htext, hstart, hstop⟩ := hs.exists_append
    have hown : own = TagEdit.inserting d s :=
      TagEdit.ofSelection_eq_inserting (by unfold Action.choose; rw [hpair])
    have hrewrites : Edit.Rewrites 0 text [own.opener, own.closer]
        ((TagContext.spaced before selected behind).text d.insertVariant) := by
      rw [hown, htext]
      exact TagEdit.rewrites_inserting d behind hstart hstop
    have hcontent : text.slice? s = some selected :=
      slice?_eq_some_iff.2 ⟨before, behind, htext, hstart, hstop⟩
    obtain ⟨happly, hslice, hword, hwritten⟩ :=
      TagContext.write_of_rewrites hrewrites (by
        rw [hown, TagEdit.selection_inserting d hstart hstop]) hcontent
    exact ⟨_, happly, hslice, hword, before, selected, behind, htext, hstart,
      hstop, hwritten⟩

/-- A cursor between two delimiters that touch it. The next variant has a shorter
opener, and the cursor moves left with it. -/
theorem singleton_writes_shorter_opener :
    let text : Text := "é<%=-%>".toList
    let plan := make Family.erb.dialect text [⟨5, 5⟩]
    plan.selections = [⟨4, 4⟩] ∧ ∃ result, Edit.applyAll plan.edits text =
      (result, none) ∧
      result.slice? ⟨4, 4⟩ = text.slice? ⟨5, 5⟩ := by
  intro text plan
  have hs : text.HasSpan ⟨5, 5⟩ := by decide
  obtain ⟨hplan, result, happly, hcontent, -⟩ :=
    singleton_writes Family.erb.dialect hs
  have hmoved : (TagEdit.ofSelection Family.erb.dialect text ⟨5, 5⟩).selection =
      ⟨4, 4⟩ := by decide
  rw [hmoved] at hplan hcontent
  exact ⟨congrArg Plan.selections hplan, result, happly, hcontent⟩

end Plan

end TemplateTags
