import Mathlib.Data.List.Nodup
import Mathlib.Data.List.Pairwise
import TemplateTags.Proofs.Cycle.Following
import TemplateTags.Proofs.Cycle.Planned
import TemplateTags.Proofs.Document.Checked
/-!
# Tags that are put in

Each selection that gets a new tag asks for two insertions. A plan has each edit
once, so two selections that ask for the same edit get it only once. For
replacements that is wanted: they replace the same delimiter
(`TagEdit.shared_of_on_eq`). Insertions of two selections are the same if a cursor
stands at an end of the other selection, and then one of the two tags is left half
open (`Plan.whole_iff`).
-/

namespace TemplateTags

open Text

namespace TagEdit

/-- The edit of one delimiter. -/
def on (t : TagEdit) : Delimiter → Edit
  | .opener => t.opener
  | .closer => t.closer

end TagEdit

namespace Action

/-- The delimiter that an action replaces on a side. An insertion replaces none. -/
def replaced? : Action → Delimiter → Option Block
  | .insert, _ => none
  | .cycle opener _, .opener => some opener
  | .cycle _ closer, .closer => some closer

end Action

/-- The end of a selection where a new tag's delimiter is put. -/
def Span.place (s : Span) : Delimiter → Nat
  | .opener => s.start
  | .closer => s.stop

/-- Two blocks that are pieces of a text at one span are the same. -/
theorem Block.eq_of_span_eq {text : Text} {a b : Block}
    (ha : text.slice? a.span = some a.text)
    (hb : text.slice? b.span = some b.text) (h : a.span = b.span) : a = b := by
  obtain ⟨span, written⟩ := a
  obtain ⟨span', written'⟩ := b
  obtain rfl : span = span' := h
  obtain rfl : written = written' := Option.some.inj (ha.symm.trans hb)
  rfl

section Replaced

variable {d : Dialect} {text : Text} {s t : Span} {side : Delimiter}

/-- A delimiter that is replaced is a piece of the text, and not an empty one. -/
theorem Action.replaced?_choose (hd : d.Compiled) {block : Block}
    (h : (choose d text s).replaced? side = some block) :
    text.slice? block.span = some block.text ∧ block.text ≠ [] := by
  unfold choose at h
  split at h
  next opener closer hpair =>
    obtain ⟨hopener, hcloser, -⟩ := Surroundings.find_pair hpair
    obtain ⟨left, _, _, right, -, -, -, -, hleft, hright⟩ :=
      Surroundings.pair?_find_eq_some_iff.1 hpair
    cases side with
    | opener =>
      obtain rfl : opener = block := Option.some.inj h
      obtain ⟨o, ho, rfl⟩ := Option.map_eq_some_iff.1 hleft
      obtain ⟨_, _, _, _, _, ⟨symbol, -, hwritten⟩, -⟩ := hd.of_findLast? ho
      refine ⟨hopener, ?_⟩
      show o.text ≠ []
      simp [hwritten, hd.opener_ne_nil]
    | closer =>
      obtain rfl : closer = block := Option.some.inj h
      obtain ⟨c, hc, rfl⟩ := Option.map_eq_some_iff.1 hright
      obtain ⟨symbol, -, hwritten⟩ := hd.of_findFirst? hc
      refine ⟨hcloser, ?_⟩
      show c.text ≠ []
      simp [hwritten, hd.closer_ne_nil]
  next => cases h

namespace TagEdit

/-- An action that replaces nothing on a side inserts there. -/
theorem on_of_insert (side : Delimiter) (h : Action.choose d text s = .insert) :
    (ofSelection d text s).on side = (inserting d s).on side := by
  unfold ofSelection
  rw [h]
  rfl

theorem span_on_inserting (d : Dialect) (s : Span) (side : Delimiter) :
    ((inserting d s).on side).span = .point (s.place side) := by
  cases side <;> rfl

theorem on_inserting_eq_iff :
    (inserting d s).on side = (inserting d t).on side ↔
      s.place side = t.place side := by
  cases side <;> simp [inserting, on, Span.place, Edit.insertion, Span.point]

@[simp] theorem delimiter_on_ofSelection (d : Dialect) (text : Text) (s : Span)
    (side : Delimiter) :
    ((ofSelection d text s).on side).delimiter = side := by
  cases side
  · exact opener_delimiter_ofSelection d text s
  · exact closer_delimiter_ofSelection d text s

/-- The edits of a selection put in a new tag or replace a delimiter on each side. -/
theorem insert_or_replaced (d : Dialect) (text : Text) (s : Span)
    (side : Delimiter) :
    Action.choose d text s = .insert ∨
      ∃ block, (Action.choose d text s).replaced? side = some block ∧
        ((ofSelection d text s).on side).span = block.span := by
  unfold ofSelection
  cases h : Action.choose d text s with
  | insert => exact .inl rfl
  | cycle opener closer =>
    right
    cases side
    · exact ⟨opener, rfl, rfl⟩
    · exact ⟨closer, rfl, rfl⟩

/-- Of the edits of selections those that insert are the ones that put in a new
tag. -/
theorem isInsertion_on_iff (hd : d.Compiled) (side : Delimiter) :
    ((ofSelection d text s).on side).isInsertion ↔
      Action.choose d text s = .insert := by
  unfold Edit.isInsertion Span.isEmpty
  rw [decide_eq_true_iff]
  constructor
  · intro h
    rcases insert_or_replaced d text s side with hinsert | ⟨block, hblock, hspan⟩
    · exact hinsert
    · obtain ⟨hslice, hne⟩ := Action.replaced?_choose hd hblock
      obtain ⟨_, _, _, hstart, hstop⟩ := slice?_eq_some_iff.1 hslice
      have := size_pos_iff.2 hne
      rw [hspan] at h
      omega
  · intro h
    rw [on_of_insert side h, span_on_inserting]
    exact Nat.le_refl _

/-- Two selections that ask for the same edit replace the same delimiter, or both
get a new tag at one place. -/
theorem shared_of_on_eq (hd : d.Compiled)
    (h : (ofSelection d text s).on side = (ofSelection d text t).on side) :
    (Action.choose d text s = .insert ∧ Action.choose d text t = .insert ∧
        s.place side = t.place side) ∨
      ∃ block, (Action.choose d text s).replaced? side = some block ∧
        (Action.choose d text t).replaced? side = some block := by
  have hinsertion : Action.choose d text s = .insert ↔
      Action.choose d text t = .insert := by
    rw [← isInsertion_on_iff hd side, h, isInsertion_on_iff hd side]
  rcases insert_or_replaced d text s side with hs | ⟨block, hblock, hspan⟩
  · left
    have ht := hinsertion.1 hs
    rw [on_of_insert side hs, on_of_insert side ht] at h
    exact ⟨hs, ht, on_inserting_eq_iff.1 h⟩
  · right
    rcases insert_or_replaced d text t side with ht | ⟨block', hblock', hspan'⟩
    · rw [hinsertion.2 ht] at hblock
      cases hblock
    · have hsame : block' = block := by
        refine Block.eq_of_span_eq (Action.replaced?_choose hd hblock').1
          (Action.replaced?_choose hd hblock).1 ?_
        rw [← hspan', ← h, hspan]
      exact ⟨block, hblock, hsame ▸ hblock'⟩

end TagEdit

end Replaced

namespace Plan

/-- The selections that get a new tag. -/
def inserting (d : Dialect) (text : Text) (selections : List Span) : List Span :=
  selections.filter fun s => Action.choose d text s = .insert

/-- The insertions on one side of the tags. -/
def insertions (side : Delimiter) (edits : List Edit) : List Edit :=
  edits.filter fun e => e.isInsertion && e.delimiter = side

/-- Each selection that gets a new tag has both of its delimiters put in for
itself, and the only edits that several selections have in common replace a
delimiter that all of them have. -/
structure Whole (d : Dialect) (text : Text) (selections : List Span)
    (edits : List Edit) : Prop where
  insertions : ∀ side, (insertions side edits).Perm
    ((inserting d text selections).map fun s =>
      (TagEdit.ofSelection d text s).on side)
  length_insertions : ∀ side, (Plan.insertions side edits).length =
    (inserting d text selections).length
  nodup : edits.Nodup
  mem_iff : ∀ e, e ∈ edits ↔ ∃ s ∈ selections, ∃ side,
    e = (TagEdit.ofSelection d text s).on side
  shared : ∀ s ∈ selections, ∀ t ∈ selections, s ≠ t → ∀ side,
    (TagEdit.ofSelection d text s).on side = (TagEdit.ofSelection d text t).on side →
      ∃ block, (Action.choose d text s).replaced? side = some block ∧
        (Action.choose d text t).replaced? side = some block

/-- No cursor that gets a new tag stands at an end of another selection that gets
one. -/
def NoCursorAtEnd (selections : List Span) : Prop :=
  ∀ s ∈ selections, ∀ t ∈ selections, s ≠ t → s.start = s.stop →
    s.start ≠ t.start ∧ s.start ≠ t.stop

instance (selections : List Span) : Decidable (NoCursorAtEnd selections) :=
  inferInstanceAs (Decidable (∀ s ∈ selections, ∀ t ∈ selections,
    s ≠ t → s.start = s.stop → s.start ≠ t.start ∧ s.start ≠ t.stop))

variable {d : Dialect} {text : Text} {selections : List Span}

theorem mem_inserting_iff {s : Span} :
    s ∈ inserting d text selections ↔ s ∈ selections ∧
      Action.choose d text s = .insert := by
  simp [inserting]

theorem mem_editsFor_iff_on {e : Edit} :
    e ∈ editsFor d text selections ↔ ∃ s ∈ selections, ∃ side,
      e = (TagEdit.ofSelection d text s).on side := by
  rw [mem_editsFor]
  constructor
  · rintro ⟨s, hs, he | he⟩
    · exact ⟨s, hs, .opener, he⟩
    · exact ⟨s, hs, .closer, he⟩
  · rintro ⟨s, hs, side, he⟩
    cases side
    · exact ⟨s, hs, .inl he⟩
    · exact ⟨s, hs, .inr he⟩

/-- The insertions on a side are those of the selections that get a new tag. -/
theorem mem_insertions_iff (hd : d.Compiled) {side : Delimiter} {e : Edit} :
    e ∈ insertions side (editsFor d text selections) ↔
      ∃ s ∈ inserting d text selections,
        (TagEdit.ofSelection d text s).on side = e := by
  simp only [insertions, List.mem_filter, Bool.and_eq_true, decide_eq_true_eq,
    mem_editsFor_iff_on, mem_inserting_iff]
  constructor
  · intro ⟨⟨s, hs, side', he⟩, hinsertion, hside⟩
    subst he
    rw [TagEdit.delimiter_on_ofSelection] at hside
    subst hside
    exact ⟨s, ⟨hs, (TagEdit.isInsertion_on_iff hd side').1 hinsertion⟩, rfl⟩
  · rintro ⟨s, ⟨hs, hinsert⟩, rfl⟩
    exact ⟨⟨s, hs, side, rfl⟩, (TagEdit.isInsertion_on_iff hd side).2 hinsert,
      TagEdit.delimiter_on_ofSelection d text s side⟩

/-- Selections that lie apart have an end in common only with a cursor there. -/
theorem NoCursorAtEnd.place_ne (h : NoCursorAtEnd selections) {s t : Span}
    (hs : s ∈ selections) (ht : t ∈ selections) (hne : s ≠ t)
    (hspan : s.start ≤ s.stop) (hspan' : t.start ≤ t.stop)
    (hapart : s.stop ≤ t.start ∨ t.stop ≤ s.start) (side : Delimiter) :
    s.place side ≠ t.place side := by
  intro heq
  have hst := h s hs t ht hne
  have hts := h t ht s hs (Ne.symm hne)
  cases side with
  | opener =>
    have : s.start = t.start := heq
    omega
  | closer =>
    have : s.stop = t.stop := heq
    omega

/-- Each selection of several that lie apart gets a whole tag of its own, or takes
part in a tag that is there, if and only if no cursor that gets a new tag stands
at an end of another selection that gets one. -/
theorem whole_iff {opener closer : Text} {addons : List Addon} {made : Dialect}
    (hmade : Dialect.compile opener closer addons = .ok made) (insertIndex : Nat)
    (b : Buffer) (hb : b.Checked) (hnodup : b.selections.Nodup)
    (hapart : b.selections.Pairwise fun s t => s.stop ≤ t.start ∨ t.stop ≤ s.start) :
    let d := made.withInsertVariant insertIndex
    Whole d b.text b.selections (make d b.text b.selections).edits ↔
      NoCursorAtEnd (inserting d b.text b.selections) := by
  intro d
  have hd : d.Compiled :=
    (Dialect.compiled_of_compile hmade).1.withInsertVariant insertIndex
  have hsymm : Std.Symm fun s t : Span => s.stop ≤ t.start ∨ t.stop ≤ s.start :=
    ⟨fun _ _ h => h.symm⟩
  have hmem : ∀ s ∈ inserting d b.text b.selections, s ∈ b.selections :=
    fun s hs => (mem_inserting_iff.1 hs).1
  constructor
  · intro h s hs t ht hne hcursor
    -- Two selections of which none replaces a delimiter have no edit in common.
    have hplace : ∀ side, s.place side ≠ t.place side := by
      intro side heq
      have hsinsert := (mem_inserting_iff.1 hs).2
      have htinsert := (mem_inserting_iff.1 ht).2
      obtain ⟨block, hblock, -⟩ := h.shared s (hmem s hs) t (hmem t ht) hne side (by
        rw [TagEdit.on_of_insert side hsinsert, TagEdit.on_of_insert side htinsert]
        exact TagEdit.on_inserting_eq_iff.2 heq)
      rw [hsinsert] at hblock
      cases hblock
    exact ⟨hplace .opener, hcursor ▸ hplace .closer⟩
  · intro h
    have hplace : ∀ s ∈ inserting d b.text b.selections,
        ∀ t ∈ inserting d b.text b.selections, s ≠ t →
        ∀ side, s.place side ≠ t.place side := by
      intro s hs t ht hne
      exact h.place_ne hs ht hne (hb s (hmem s hs)).ordered
        (hb t (hmem t ht)).ordered
        (hapart.forall (hmem s hs) (hmem t ht) hne)
    have hperm : ∀ side, (insertions side (make d b.text b.selections).edits).Perm
        ((inserting d b.text b.selections).map fun s =>
          (TagEdit.ofSelection d b.text s).on side) := by
      intro side
      refine (List.perm_ext_iff_of_nodup ((nodup_editsFor d _ _).filter _) ?_).2 ?_
      · refine List.Nodup.map_on ?_ (hnodup.filter _)
        intro s hs t ht heq
        by_contra hne
        rw [TagEdit.on_of_insert side (mem_inserting_iff.1 hs).2,
          TagEdit.on_of_insert side (mem_inserting_iff.1 ht).2] at heq
        exact hplace s hs t ht hne side (TagEdit.on_inserting_eq_iff.1 heq)
      · intro e
        rw [List.mem_map]
        exact mem_insertions_iff hd
    refine ⟨hperm, ?_, nodup_editsFor d _ _, fun e => mem_editsFor_iff_on, ?_⟩
    · intro side
      rw [(hperm side).length_eq, List.length_map]
    · intro s hs t ht hne side heq
      rcases TagEdit.shared_of_on_eq hd heq with ⟨hsinsert, htinsert, hsame⟩ | hblock
      · have hs' := mem_inserting_iff.2 ⟨hs, hsinsert⟩
        have ht' := mem_inserting_iff.2 ⟨ht, htinsert⟩
        exact absurd hsame (hplace s hs' t ht' hne side)
      · exact hblock

/-- Two selections share a tag, two others touch, and a cursor stands alone:
three tags are put in. -/
theorem whole_touching :
    let b : Buffer :=
      ⟨"<% a b %>\nx y".toList, [⟨3, 4⟩, ⟨5, 6⟩, ⟨10, 11⟩, ⟨11, 12⟩, ⟨13, 13⟩]⟩
    b.Checked ∧ b.selections.Nodup ∧
      b.selections.Pairwise (fun s t => s.stop ≤ t.start ∨ t.stop ≤ s.start) ∧
      (inserting Family.erb.dialect b.text b.selections).length = 3 ∧
      Whole (Family.erb.dialect.withInsertVariant 0) b.text b.selections
        (make (Family.erb.dialect.withInsertVariant 0) b.text
          b.selections).edits := by
  have hmade : Dialect.compile ['<', '%'] ['%', '>'] Family.erb.table.addons =
      .ok Family.erb.dialect := rfl
  refine ⟨by decide, by decide, by decide, by decide, ?_⟩
  exact (whole_iff hmade 0 _ (by decide) (by decide) (by decide)).2 (by decide)

/-- A cursor in front of a selected word: both would be given an opener
at one place, and they get one for both. The second closer that is put
in closes nothing. -/
theorem not_whole_cursor :
    let b : Buffer := ⟨"x".toList, [⟨0, 0⟩, ⟨0, 1⟩]⟩
    let d := Family.erb.dialect
    let plan := make d b.text b.selections
    b.Checked ∧ b.selections.Nodup ∧
      b.selections.Pairwise (fun s t => s.stop ≤ t.start ∨ t.stop ≤ s.start) ∧
      inserting d b.text b.selections = [⟨0, 0⟩, ⟨0, 1⟩] ∧
      (insertions .opener plan.edits).length = 1 ∧
        (insertions .closer plan.edits).length = 2 ∧
      b.applyEdits plan.edits = (⟨"<%  %>x %>".toList, b.selections⟩, none) ∧
      ¬ Whole d b.text b.selections plan.edits := by
  refine ⟨by decide, by decide, by decide, by decide, by decide, by
    decide, by decide, ?_⟩
  intro h
  have := h.length_insertions .opener
  revert this
  decide

end Plan

end TemplateTags
