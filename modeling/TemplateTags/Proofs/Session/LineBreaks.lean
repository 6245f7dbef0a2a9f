import TemplateTags.Proofs.Document.LineBreaks
import TemplateTags.Proofs.Session.Settled
/-!
# Line breaks of an edited text

Nothing that is compiled into a dialect has a line break in it. So no edit of a
plan puts one in, and none takes one out, because what it replaces is a delimiter
of the dialect (`Plan.keepsBreaks`). Whatever a session is asked for, and wherever
the selections are, the line breaks of the text stay what they were, in the same
order (`Editing.lineBreaks_moves`).
-/

namespace TemplateTags

open Text

theorem Text.lineBreaks_eq_nil {text : Text}
    (h : Dialect.hasLineBreak text = false) : text.lineBreaks = [] := by
  unfold Dialect.hasLineBreak at h
  rw [lineBreaks, List.filter_eq_nil_iff]
  intro c hc
  simpa using List.any_eq_false.1 h c hc

/-! ## The edits of a plan -/

namespace Dialect

theorem variantAt_lineBreaks {d : Dialect} (hd : d.Compiled) (index : Nat) :
    (d.variantAt index).opener.lineBreaks = [] ∧
      (d.variantAt index).closer.lineBreaks = [] := by
  obtain ⟨hopener, hcloser⟩ :=
    hd.not_hasLineBreak (written_of_mem_variants (d.variantAt_mem index))
  exact ⟨lineBreaks_eq_nil hopener, lineBreaks_eq_nil hcloser⟩

end Dialect

/-- Both edits of a tag are without line breaks, for whatever selection they are
made. -/
theorem TagEdit.lineBreaks_ofSelection {d : Dialect} (hd : d.Compiled)
    (text : Text) (s : Span) :
    (ofSelection d text s).opener.text.lineBreaks = [] ∧
      (ofSelection d text s).closer.text.lineBreaks = [] := by
  rcases ofSelection_cases d text s with heq | ⟨opener, closer, -, heq⟩
  · obtain ⟨hopener, hcloser⟩ := Dialect.variantAt_lineBreaks hd d.insertIndex
    have hblank : lineBreaks [' '] = [] := rfl
    have hbefore : (d.insertVariant.opener ++ [' ']).lineBreaks = [] := by
      rw [lineBreaks_append, hblank, List.append_nil]
      exact hopener
    have hbehind : lineBreaks ([' '] ++ d.insertVariant.closer) = [] := by
      rw [lineBreaks_append, hblank, List.nil_append]
      exact hcloser
    rw [heq]
    exact ⟨hbefore, hbehind⟩
  · obtain ⟨index, hindex⟩ := d.next_eq_variantAt opener.text closer.text
    have hnext := Dialect.variantAt_lineBreaks hd index
    rw [← hindex] at hnext
    rw [heq]
    exact hnext

/-- The edits of a plan keep the line breaks of the text, whatever the selections
are. -/
theorem Plan.keepsBreaks {d : Dialect} (hd : d.Compiled) {text : Text}
    {selections : List Span} :
    ∀ e ∈ editsFor d text selections, e.KeepsBreaks text := by
  intro e he
  obtain ⟨hopener, hcloser, hsymbols⟩ := hd.hasLineBreak_eq_false
  refine ⟨?_, ?_⟩
  · obtain ⟨s, -, rfl | rfl⟩ := (mem_editsFor d text selections).1 he
    · exact (TagEdit.lineBreaks_ofSelection hd text s).1
    · exact (TagEdit.lineBreaks_ofSelection hd text s).2
  · refine (edit_cases hd he).2.imp_right ?_
    rintro ⟨block, hblock, hwritten⟩
    refine ⟨block, hblock, lineBreaks_eq_nil ?_⟩
    rcases hwritten with ⟨t, ht, rfl⟩ | ⟨t, ht, rfl⟩
    · rw [Dialect.hasLineBreak_append, hopener, hsymbols .left t ht]
      rfl
    · rw [Dialect.hasLineBreak_append, hsymbols .right t ht, hcloser]
      rfl

/-! ## Sessions -/

theorem Registry.Built.compiled_of_get? {r : Registry} (h : r.Built) {name : Text}
    {d : Dialect} (hd : r.get? name = some d) : d.Compiled := by
  obtain ⟨entry, hentry, rfl⟩ := Option.map_eq_some_iff.1 hd
  exact h.forall_entries (fun hcompile =>
    (Dialect.compiled_of_compile hcompile).1) entry
    (List.mem_of_find?_eq_some hentry)

namespace Session

/-- The dialect in use and all that can be switched to are compiled. -/
structure AllCompiled (s : Session) : Prop where
  active : s.active.Compiled
  registered : ∀ name d, s.registry.get? name = some d → d.Compiled

theorem AllCompiled.select {s : Session} (h : s.AllCompiled) (name : Text) :
    (s.select name).AllCompiled := by
  unfold Session.select
  split
  next d hd => exact ⟨(h.registered name d hd).withInsertVariant _, h.registered⟩
  next => exact h

theorem AllCompiled.withInsertVariant {s : Session} (h : s.AllCompiled)
    (index : Nat) :
    (s.withInsertVariant index).AllCompiled :=
  ⟨h.active.withInsertVariant index, h.registered⟩

theorem allCompiled_start {r : Registry} (hr : r.Built) : (start r).AllCompiled := by
  refine ⟨?_, fun name d hd => hr.compiled_of_get? hd⟩
  show ((r.get? Family.erb.name).getD Family.erb.dialect).Compiled
  cases hd : r.get? Family.erb.name with
  | none => exact Family.erb.compiled
  | some d => exact hr.compiled_of_get? hd

theorem Opened.allCompiled {r : Registry} {given : List Request} {s : Session}
    (h : Opened r given s) :
    s.AllCompiled := by
  cases h with
  | start hr => exact allCompiled_start hr
  | @configured settings _ _ hr hs =>
    unfold Settings.session at hs
    rw [hr] at hs
    cases hs
    exact ((allCompiled_start
      (Registry.Built.registerAll .builtin hr)).withInsertVariant _).select _

/-- An action keeps the line breaks, if it is done, if it is refused and if it
fails on the way. -/
theorem lineBreaks_cycle {s : Session} (hd : s.active.Compiled) (b : Buffer) :
    (s.cycle b).1.text.lineBreaks = b.text.lineBreaks := by
  have hedits : ∀ e ∈ (s.plan b.text b.selections).edits, e.KeepsBreaks b.text :=
    Plan.keepsBreaks hd
  unfold cycle
  split
  next => rfl
  next =>
    have happlied :
        (b.applyEdits (s.plan b.text b.selections).edits).1.text.lineBreaks =
          b.text.lineBreaks :=
      Edit.lineBreaks_applyAll hedits
    revert happlied
    simp only
    generalize b.applyEdits (s.plan b.text b.selections).edits = applied
    obtain ⟨edited, error⟩ := applied
    cases error with
    | none => exact id
    | some error => exact id

end Session

namespace Editing

/-- What can be done with a session and its buffer: ask for something, or put
other selections in without a check. -/
inductive Move where
  | request (asked : Request)
  | setSelections (selections : List Span)
deriving DecidableEq, Repr

/-- The state after a move, whether what was asked for could be done or not. -/
def move (state : Editing) : Move → Editing
  | .request asked => (state.step asked).1
  | .setSelections selections =>
    { state with buffer := { state.buffer with selections } }

/-- A move leaves the line breaks alone, and the dialects stay compiled. -/
theorem lineBreaks_move {state : Editing} (h : state.session.AllCompiled)
    (m : Move) :
    (state.move m).session.AllCompiled ∧
      (state.move m).buffer.text.lineBreaks = state.buffer.text.lineBreaks := by
  cases m with
  | setSelections selections => exact ⟨h, rfl⟩
  | request asked =>
    cases asked with
    | select name => exact ⟨h.select name, rfl⟩
    | detect syntaxName fileName => exact ⟨h.select _, rfl⟩
    | chooseInsert index => exact ⟨h.withInsertVariant index, rfl⟩
    | cycle => exact ⟨h, Session.lineBreaks_cycle h.active state.buffer⟩

/-- Whatever is done with a session on a text, and whatever of it fails, no line
break of the text is added, removed or moved past another one. -/
theorem lineBreaks_moves {r : Registry} {given : List Request} {s : Session}
    (h : Session.Opened r given s) (buffer : Buffer) (moves : List Move) :
    (moves.foldl move ⟨s, buffer⟩).buffer.text.lineBreaks =
      buffer.text.lineBreaks := by
  have hrun (state : Editing) (hstate : state.session.AllCompiled) :
      (moves.foldl move state).buffer.text.lineBreaks =
        state.buffer.text.lineBreaks := by
    induction moves generalizing state with
    | nil => rfl
    | cons m rest ih =>
      obtain ⟨hnext, hsame⟩ := lineBreaks_move hstate m
      exact (ih (state.move m) hnext).trans hsame
  exact hrun ⟨s, buffer⟩ h.allCompiled

/-- One selection is inside of a character, one is reversed in a tag, and a later
one lies behind the end of the text. The first action has edited the tag when it
fails, and the second one fails at once. -/
theorem lineBreaks_moves_half_done :
    let moves : List Move := [.setSelections [⟨1, 1⟩, ⟨8, 7⟩], .request .cycle,
      .request (.select "PHP".toList),
      .setSelections [⟨99, 70⟩], .request .cycle]
    let buffer := Buffer.ofText "é\r\n<% x %>\nü".toList
    (moves.foldl move ⟨.start .builtin, buffer⟩).buffer.text =
      "é\r\n<%= x %>\nü".toList ∧
      (moves.foldl move ⟨.start .builtin, buffer⟩).buffer.text.lineBreaks =
        buffer.text.lineBreaks := by
  intro moves buffer
  exact ⟨by decide +kernel, lineBreaks_moves (.start .builtin) buffer moves⟩

end Editing

end TemplateTags
