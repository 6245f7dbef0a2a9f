import TemplateTags.Proofs.Cycle.Planned
import TemplateTags.Proofs.Dialect.Rotation
import TemplateTags.Proofs.Document.Checked
/-!
# Selections that follow their text

`Plan.Follows` says that a moved selection covers the text it covered before,
behind its own opener and before its own closer. A plan's selections follow
their text where the edits between a selection's own opener and its own
closer all end behind it (`Plan.Undisturbed.follows`), and in no other case
(`Plan.Follows.undisturbed`). The start of a selection is moved by the edits
up to its own opener alone, and its end by those up to its own closer, so
what another selection puts between its own opener and its start moves the
one and not the other.
-/

namespace TemplateTags

open Text

/-! ## What stands between an opener and its selection -/

namespace TagEdit

/-- No block of the dialect stands between the opener that was found for a
selection and the selection. -/
theorem not_block_between {d : Dialect} (hd : d.Compiled) {text : Text}
    {s span : Span} {block : Text} (hblock : text.slice? span = some block)
    (hwritten : (∃ t ∈ Addon.ranked .left d.addons, block = d.opener ++ t) ∨
      ∃ t ∈ Addon.ranked .right d.addons, block = t ++ d.closer)
    (hbehind : (ofSelection d text s).opener.span.stop ≤ span.start) :
    ¬ span.stop ≤ s.start := by
  intro hbefore
  obtain ⟨x, y, htext, hstart, hstop⟩ := slice?_eq_some_iff.1 hblock
  rcases ofSelection_cases d text s with heq | ⟨opener, closer, hpair, heq⟩
  · -- A new tag begins where its selection does, and a block is not empty.
    rw [heq] at hbehind
    have hle : s.start ≤ span.start := hbehind
    have hnil : block = [] := size_eq_zero_iff.1 (by omega)
    have hopener := hd.opener_ne_nil
    have hcloser := hd.closer_ne_nil
    rcases hwritten with ⟨t, -, ht⟩ | ⟨t, -, ht⟩ <;> simp_all
  · rw [heq] at hbehind
    have hopen : opener.span.stop ≤ span.start := hbehind
    obtain ⟨left, inner, outer, right, hleft, hsize, -, -, hopener, -⟩ :=
      Surroundings.pair?_find_eq_some_iff.1 hpair
    obtain ⟨front, tail, hregion, hfront, -⟩ :=
      slice?_eq_some_iff.1 (slice?_region text s)
    obtain ⟨o, ho, rfl⟩ := Option.map_eq_some_iff.1 hopener
    obtain ⟨before, behind, rfl, hostart, hostop, -, hguard, hlast⟩ :=
      hd.of_findLast? ho
    have hopen' : o.span.stop + (text.region s).span.start ≤ span.start := hopen
    have happ : front ++ before ++ o.text ++ (behind ++ inner ++ tail) =
        x ++ (block ++ y) := by
      rw [← List.append_assoc x, ← htext, hregion, hleft]
      simp
    obtain ⟨gap, rfl, hrest⟩ :=
      exists_append_of_size_le happ (by simp only [size_append]; omega)
    have happ' : gap ++ block ++ y = behind ++ (inner ++ tail) := by
      rw [List.append_assoc, ← hrest, List.append_assoc]
    simp only [size_append] at hstart hstop hsize
    obtain ⟨rest, rfl, -⟩ :=
      exists_append_of_size_le happ' (by simp only [size_append]; omega)
    rcases hwritten with ⟨t, ht, rfl⟩ | ⟨t, -, rfl⟩
    · have := hlast (before ++ o.text ++ gap) rest t ht (by simp)
      simp only [size_append] at this
      omega
    · have hcontains : contains d.closer (gap ++ (t ++ d.closer) ++ rest) = true :=
        contains_iff.2 ⟨gap ++ t, rest, by simp⟩
      rw [hguard] at hcontains
      cases hcontains

end TagEdit

namespace Dialect

theorem Compiled.variantAt_ne_nil {d : Dialect} (hd : d.Compiled) (index : Nat) :
    (d.variantAt index).opener ≠ [] ∧ (d.variantAt index).closer ≠ [] := by
  have hmem := d.variantAt_mem index
  unfold variants at hmem
  split at hmem
  next =>
    rw [List.mem_singleton.1 hmem]
    exact ⟨hd.opener_ne_nil, hd.closer_ne_nil⟩
  next =>
    obtain ⟨a, -, heq⟩ := List.mem_map.1 hmem
    rw [← heq]
    simp [variantOf, hd.opener_ne_nil, hd.closer_ne_nil]

end Dialect

namespace Plan

/-- An edit of a plan inserts at a place or replaces a block of the dialect, and
never by nothing. -/
theorem edit_cases {d : Dialect} (hd : d.Compiled) {text : Text}
    {selections : List Span} {e : Edit} (he : e ∈ editsFor d text selections) :
    e.text ≠ [] ∧ (e.span.start = e.span.stop ∨ ∃ block,
      text.slice? e.span = some block ∧
      ((∃ t ∈ Addon.ranked .left d.addons, block = d.opener ++ t) ∨
        ∃ t ∈ Addon.ranked .right d.addons, block = t ++ d.closer)) := by
  obtain ⟨s, -, he⟩ := (mem_editsFor d text selections).1 he
  rcases TagEdit.ofSelection_cases d text s with heq | ⟨opener, closer, hpair, heq⟩
  · rw [heq] at he
    rcases he with rfl | rfl
    · exact ⟨by simp [TagEdit.inserting, Edit.insertion], .inl rfl⟩
    · exact ⟨by simp [TagEdit.inserting, Edit.insertion], .inl rfl⟩
  · obtain ⟨hopener, hcloser, -⟩ := Surroundings.find_pair hpair
    obtain ⟨left, _, _, right, -, -, -, -, hleft, hright⟩ :=
      Surroundings.pair?_find_eq_some_iff.1 hpair
    obtain ⟨o, ho, rfl⟩ := Option.map_eq_some_iff.1 hleft
    obtain ⟨c, hc, rfl⟩ := Option.map_eq_some_iff.1 hright
    obtain ⟨_, _, _, _, _, hopened, -⟩ := hd.of_findLast? ho
    have hclosed := hd.of_findFirst? hc
    obtain ⟨index, hindex⟩ := d.next_eq_variantAt o.text c.text
    have hnext : (d.next o.text c.text).opener ≠ [] ∧
        (d.next o.text c.text).closer ≠ [] := by
      rw [hindex]
      exact hd.variantAt_ne_nil index
    rw [heq] at he
    rcases he with rfl | rfl
    · exact ⟨hnext.1, .inr ⟨_, hopener, .inl hopened⟩⟩
    · exact ⟨hnext.2, .inr ⟨_, hcloser, .inr hclosed⟩⟩

/-! ## Moving selections -/

/-- No edit reaches inside of a selection. -/
def Untouched (edits : List Edit) (s : Span) : Prop :=
  ∀ e ∈ edits, e.span.stop ≤ s.start ∨ s.stop ≤ e.span.start

instance (edits : List Edit) (s : Span) : Decidable (Untouched edits s) :=
  List.decidableBAll _ _

/-- A moved selection covers what it covered before, behind its own opener and
before its own closer. -/
structure Follows (text result : Text) (edits : List Edit) (own : TagEdit)
    (moved : Span) : Prop where
  content : result.slice? moved = text.slice? own.origin
  behind_opener : (landing edits own.opener).stop ≤ moved.start
  before_closer : moved.stop ≤ (landing edits own.closer).start

/-- All edits between a selection's own opener and its own closer end
behind the selection. -/
def Undisturbed (edits : List Edit) (own : TagEdit) : Prop :=
  ∃ front between behind, edits = front ++ own.opener :: between
    ++ own.closer :: behind ∧
    ∀ e ∈ between, own.origin.stop < e.span.stop

variable {text result : Text} {edits : List Edit} {own : TagEdit}

section Positions

variable {front between behind : List Edit}

/-- What comes after the own opener of an undisturbed selection begins
behind the selection. -/
theorem stop_le_of_head? (hbetween : ∀ e ∈ between, own.origin.stop < e.span.stop)
    (huntouched : Untouched
      (front ++ own.opener :: between ++ own.closer :: behind) own.origin)
    (hordered : own.origin.start ≤ own.origin.stop)
    (hcloser : own.origin.stop ≤ own.closer.span.start) :
    ∀ e ∈ (between ++ own.closer :: behind).head?,
      own.origin.stop ≤ e.span.start := by
  intro e he
  cases between with
  | nil =>
    obtain rfl : own.closer = e := by simpa using he
    exact hcloser
  | cons first between =>
    obtain rfl : first = e := by simpa using he
    have hlt := hbetween first List.mem_cons_self
    rcases huntouched first (by simp) with hle | hle <;> omega

/-- With its own closer before its own opener a selection cannot lie between what
these have become. -/
theorem not_follows_of_closer_first
    (hnodup : (front ++ own.closer :: between ++ own.opener :: behind).Nodup)
    (hrewrites : Edit.Rewrites 0 text
      (front ++ own.closer :: between ++ own.opener :: behind) result)
    (htext : own.opener.text ≠ []) :
    ¬ Follows text result (front ++ own.closer :: between
      ++ own.opener :: behind) own
      (moveSelection (front ++ own.closer :: between ++ own.opener :: behind)
        own) := by
  intro h
  have hform : front ++ own.closer :: between ++ own.opener :: behind =
      front ++ own.closer :: (between ++ own.opener :: behind) := by simp
  -- The opener lands behind the closer, and nothing lies both behind the one and
  -- in front of the other.
  have hclosed := coe_landing_start (hform ▸ hnodup) (hform ▸ hrewrites)
  have hopened := coe_landing_start hnodup hrewrites
  have hlength := size_pos_iff.2 htext
  have hbehind := h.behind_opener
  have hbefore := h.before_closer
  have hordered := moveSelection_ordered
    (front ++ own.closer :: between ++ own.opener :: behind) own
  have hsplit := hform ▸ hrewrites
  have hle := (hsplit.ascending.le own.closer (by simp)).2
  rw [List.append_cons] at hsplit
  obtain ⟨_, _, _, _, _, _, _, _, hrest⟩ := hsplit.split
  rw [Edit.endOf_append_singleton] at hrest
  have hafter := hrest.le_start
  have hstop : (landing (front ++ own.closer :: between ++ own.opener :: behind)
      own.opener).stop =
      (landing (front ++ own.closer :: between ++ own.opener :: behind)
        own.opener).start +
        own.opener.text.size := rfl
  rw [← hform] at hclosed
  simp only [Edit.totalDelta_append, Edit.totalDelta_cons, Edit.delta,
    Span.length] at hopened
  omega

end Positions

/-- Where no edit disturbs a selection, its start and its end are moved by the
edits up to its own opener, and the text from there to its own closer is kept. -/
theorem Undisturbed.follows (h : Undisturbed edits own) (hnodup : edits.Nodup)
    (hrewrites : Edit.Rewrites 0 text edits result)
    (horigin : text.HasSpan own.origin) (hplaced : own.Placed text)
    (huntouched : Untouched edits own.origin) :
    Follows text result edits own (moveSelection edits own) := by
  obtain ⟨front, between, behind, rfl, hbetween⟩ := h
  obtain ⟨before, piece, tail, htext, hbefore, hpiece⟩ := horigin.exists_append
  have hopener := hplaced.opener_le
  have hordered := horigin.ordered
  have hform : front ++ own.opener :: between ++ own.closer :: behind =
      front ++ own.opener :: (between ++ own.closer :: behind) := by simp
  have hnodup' := hform ▸ hnodup
  have hrewrites' := hform ▸ hrewrites
  have hsplit := hrewrites'
  rw [List.append_cons] at hsplit
  obtain ⟨pre, rest, preResult, restResult, hpreText, rfl, hpreSize, hpre, hrest⟩ :=
    hsplit.split
  rw [Edit.endOf_append_singleton, Nat.zero_add] at hpreSize
  rw [Edit.endOf_append_singleton] at hrest
  -- The selection and what stands between its own opener and it are kept.
  have happ : pre ++ rest = before ++ (piece ++ tail) := by
    rw [← hpreText, htext, List.append_assoc]
  obtain ⟨kept, rfl, rfl⟩ := exists_append_of_size_le happ (by omega)
  rw [size_append] at hbefore hpiece
  have hkeep : own.opener.span.stop + (kept ++ piece).size = own.origin.stop := by
    rw [size_append]
    omega
  have hfirst := stop_le_of_head? hbetween huntouched hordered hplaced.le_closer
  rw [← List.append_assoc] at hrest
  obtain ⟨tailResult, rfl, htail⟩ := hrest.keep (by rwa [hkeep])
  rw [hkeep] at htail
  have hstart : (moveSelection
      (front ++ own.opener :: between ++ own.closer :: behind) own).start =
      preResult.size + kept.size := by
    rw [hform, moveSelection_start hnodup' hrewrites' hopener, ← hbefore,
      hpre.shiftOffset_eq]
  have hstop : (moveSelection
      (front ++ own.opener :: between ++ own.closer :: behind) own).stop =
      preResult.size + kept.size + piece.size := by
    have hshift : own.origin.stop = pre.size + (kept.size + piece.size) := by omega
    rw [moveSelection_stop_between hnodup hrewrites (Nat.le_trans hopener hordered),
      hstart, deltaBefore_eq_zero hbetween, Int.add_zero, hshift,
      hpre.shiftOffset_eq]
    omega
  refine ⟨?_, ?_, ?_⟩
  · rw [slice?_eq_some_iff.2 ⟨_, _, htext, by rw [size_append]; exact hbefore, by
      rw [size_append]; omega⟩]
    exact slice?_eq_some_iff.2 ⟨preResult ++ kept, tailResult, by simp, by
      rw [size_append, hstart],
      by rw [size_append, hstop]⟩
  · have hlanding := coe_landing_stop hnodup' hrewrites'
    have hsize := hpre.size_eq
    rw [← hform] at hlanding
    omega
  · have hlanding := coe_landing_start hnodup hrewrites
    have hsize := hpre.size_eq
    have hle := htail.le_start
    simp only [Edit.totalDelta_append, Edit.totalDelta_cons,
      Edit.totalDelta_nil] at hlanding hsize
    omega

/-- A selection that follows its text has its own opener and closer around it, and
what stands between them was put behind the selection. -/
theorem Follows.undisturbed
    (h : Follows text result edits own (moveSelection edits own))
    (hnodup : edits.Nodup) (hrewrites : Edit.Rewrites 0 text edits result)
    (horigin : text.HasSpan own.origin) (hplaced : own.Placed text)
    (hopener : own.opener ∈ edits) (hcloser : own.closer ∈ edits)
    (hne : own.opener ≠ own.closer) (htext : own.opener.text ≠ [])
    (hgrows : ∀ e ∈ edits, own.opener.span.stop ≤ e.span.start →
      e.span.stop ≤ own.origin.stop → 0 < e.delta) :
    Undisturbed edits own := by
  rcases exists_append_of_mem_of_mem hopener hcloser hne with
    ⟨front, between, behind, rfl⟩ | ⟨front, between, behind, rfl⟩
  · refine ⟨front, between, behind, rfl, fun e he => Nat.lt_of_not_le fun hle => ?_⟩
    have hform : front ++ own.opener :: between ++ own.closer :: behind =
        front ++ own.opener :: (between ++ own.closer :: behind) := by simp
    have hrewrites' := hform ▸ hrewrites
    have hsplit := hrewrites'
    rw [List.append_cons] at hsplit
    have hopen := hplaced.opener_le
    have hordered := horigin.ordered
    -- Each edit that moves the end and not the start makes the text longer.
    have hpositive : ∀ f ∈ between, f.span.stop ≤ own.origin.stop →
        0 < f.delta := fun f hf =>
      hgrows f (by simp [hf])
        (hsplit.ascending.right own.opener (by simp) f (by simp [hf]))
    have hcount := (deltaBefore_pos hpositive).2 ⟨e, he, hle⟩
    have hstart := moveSelection_start (hform ▸ hnodup) hrewrites' hopen
    have hstop :=
      moveSelection_stop_between hnodup hrewrites (Nat.le_trans hopen hordered)
    have hend : Edit.endOf 0 (front ++ [own.opener]) ≤ own.origin.start := by
      rw [Edit.endOf_append_singleton]
      exact hopen
    have hcoe := hsplit.coe_shiftOffset hend
    rw [← hform] at hstart
    -- The moved selection is as long as the selection was.
    obtain ⟨piece, hpiece⟩ :=
      Option.isSome_iff_exists.1 (hasSpan_iff_isSome.1 horigin)
    have hmoved := h.content.trans hpiece
    obtain ⟨_, _, -, hfrom, hto⟩ := slice?_eq_some_iff.1 hpiece
    obtain ⟨_, _, -, hfrom', hto'⟩ := slice?_eq_some_iff.1 hmoved
    unfold Span.shiftOffset at hstop hstart hcoe
    omega
  · exact absurd h (not_follows_of_closer_first hnodup hrewrites htext)

/-- In a plan, an edit between an opener and its selection makes the text longer:
it is an insertion, for no block stands there. -/
theorem delta_pos_between {d : Dialect} (hd : d.Compiled) {selections : List Span}
    {s : Span} {e : Edit} (he : e ∈ editsFor d text selections)
    (huntouched : e.span.stop ≤ s.start ∨ s.stop ≤ e.span.start)
    (hordered : e.span.start ≤ e.span.stop)
    (hbehind : (TagEdit.ofSelection d text s).opener.span.stop ≤ e.span.start)
    (hle : e.span.stop ≤ s.stop) :
    0 < e.delta := by
  obtain ⟨htext, hcases⟩ := edit_cases hd he
  have hlength := size_pos_iff.2 htext
  have hpoint : e.span.start = e.span.stop := by
    rcases huntouched with hbefore | hafter
    · rcases hcases with hpoint | ⟨block, hblock, hwritten⟩
      · exact hpoint
      · exact absurd hbefore (TagEdit.not_block_between hd hblock hwritten hbehind)
    · omega
  unfold Edit.delta Span.length
  omega

/-- Every selection that no edit reaches inside of follows its text if and only if
all edits between its own opener and its own closer end behind it. -/
theorem follows_iff {opener closer : Text} {addons : List Addon} {base : Dialect}
    (hbase : Dialect.compile opener closer addons = .ok base) (insertIndex : Nat)
    (b : Buffer) (hb : b.Checked) {result : Text}
    (happly : b.applyEdits (make (base.withInsertVariant insertIndex) b.text
      b.selections).edits = (⟨result, b.selections⟩, none)) :
    let d := base.withInsertVariant insertIndex
    let plan := make d b.text b.selections
    ∀ (i : Nat) (s : Span), b.selections[i]? = some s → ∃ moved,
      plan.selections[i]? = some moved ∧
      (Untouched plan.edits s →
        (Follows b.text result plan.edits (TagEdit.ofSelection d b.text s) moved ↔
          Undisturbed plan.edits (TagEdit.ofSelection d b.text s))) := by
  intro d plan i s hs
  have hd : d.Compiled :=
    (Dialect.compiled_of_compile hbase).1.withInsertVariant insertIndex
  have hmem : s ∈ b.selections := List.mem_of_getElem? hs
  refine ⟨moveSelection plan.edits (TagEdit.ofSelection d b.text s), ?_,
    fun huntouched => ?_⟩
  · show (b.selections.map _)[i]? = _
    rw [List.getElem?_map, hs]
    rfl
  · have hrewrites : Edit.Rewrites 0 b.text plan.edits result := by
      have happlied : Edit.applyAll plan.edits b.text = (result, none) := by
        simpa [Buffer.applyEdits, Prod.ext_iff] using happly
      exact rewrites_of_applyAll d hb happlied
    have hnodup : plan.edits.Nodup := nodup_editsFor d b.text b.selections
    have horigin : (TagEdit.ofSelection d b.text s).origin = s :=
      TagEdit.origin_ofSelection d b.text s
    have hplaced := TagEdit.placed_ofSelection d (hb s hmem)
    have hspan : b.text.HasSpan (TagEdit.ofSelection d b.text s).origin :=
      horigin.symm ▸ hb s hmem
    rw [← horigin] at huntouched
    constructor
    · intro h
      have hopener := opener_mem_editsFor d b.text hmem
      have hcloser := closer_mem_editsFor d b.text hmem
      refine h.undisturbed hnodup hrewrites hspan hplaced hopener hcloser ?_ ?_ ?_
      · intro heq
        have := congrArg Edit.delimiter heq
        simp at this
      · exact (edit_cases hd hopener).1
      · intro e he hbehind hle
        rw [horigin] at huntouched hle
        exact delta_pos_between hd he (huntouched e he)
          (hrewrites.ascending.le e he).2 hbehind hle
    · exact fun h => h.follows hnodup hrewrites hspan hplaced huntouched

/-- Two words of a line get tags, and the second one stays selected. -/
theorem follows_second_word :
    Follows "a b".toList "<%= a %> <%= b %>".toList
      (make (Family.erb.dialect.withInsertVariant 1) "a b".toList
        [⟨0, 1⟩, ⟨2, 3⟩]).edits
      (TagEdit.ofSelection (Family.erb.dialect.withInsertVariant 1) "a b".toList
        ⟨2, 3⟩) ⟨13, 14⟩ := by
  have hbase : Dialect.compile ['<', '%'] ['%', '>'] Family.erb.table.addons =
      .ok Family.erb.dialect := rfl
  have happly : (Buffer.mk "a b".toList [⟨0, 1⟩, ⟨2, 3⟩]).applyEdits
      (make (Family.erb.dialect.withInsertVariant 1) "a b".toList
        [⟨0, 1⟩, ⟨2, 3⟩]).edits =
        (⟨"<%= a %> <%= b %>".toList, [⟨0, 1⟩, ⟨2, 3⟩]⟩, none) := by decide
  obtain ⟨moved, hmoved, h⟩ := follows_iff hbase 1 _ (by decide) happly 1 ⟨2, 3⟩ rfl
  obtain rfl : ⟨13, 14⟩ = moved := Option.some.inj hmoved
  refine (h (by decide)).2 ⟨[_, _], [], [], rfl, ?_⟩
  simp

/-- A selection over two lines is cycled while a tag is inserted in front of it,
in the same line. Its start is moved by its own opener only and so comes to stand
inside of the tag that was inserted. -/
theorem not_follows_across_lines :
    let b : Buffer := ⟨"<% a b\nc %>".toList, [⟨3, 4⟩, ⟨5, 8⟩]⟩
    let plan := make Family.erb.dialect b.text b.selections
    b.Checked ∧ b.selections.Pairwise (fun s t => s.stop ≤ t.start) ∧
      b.applyEdits plan.edits =
        (⟨"<%= <% a %> b\nc %>".toList, b.selections⟩, none) ∧
      Untouched plan.edits ⟨5, 8⟩ ∧ plan.selections = [⟨7, 8⟩, ⟨6, 15⟩] ∧
      ¬ Follows b.text "<%= <% a %> b\nc %>".toList plan.edits
        (TagEdit.ofSelection Family.erb.dialect b.text ⟨5, 8⟩) ⟨6, 15⟩ := by
  refine ⟨by decide, by decide, by decide, by decide, by decide, fun h => ?_⟩
  have := h.content
  revert this
  decide

end Plan

end TemplateTags
