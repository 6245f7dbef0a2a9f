import Mathlib.Data.List.Pairwise
import TemplateTags.Proofs.Cycle.Batch
import TemplateTags.Proofs.Cycle.Layout
import TemplateTags.Proofs.Document.Checked
/-!
# Actions one by one

`Buffer.cycleAt` is the action for one of the selections of a buffer alone, after
which the selections below it are moved by the change of length. In a text in
stretches it changes one stretch (`Stretch.Shows.cycleAt`), so after several such
actions those stretches have changed whose selections have had their action, in
whatever order (`Stretch.Shows.foldlM`). The plan for all selections changes all
stretches at once (`Stretch.Shows.batch`). If no line is touched by two
selections, the text is in stretches, and both come to the same
(`Buffer.batch_eq_one_by_one`).
-/

namespace TemplateTags

open Text

/-- The second span begins in a line below the one in which the first one ends. -/
def Text.Below (text : Text) (s t : Span) : Prop :=
  (text.line s.stop).span.start < (text.line t.start).span.start

instance (text : Text) (s t : Span) : Decidable (text.Below s t) :=
  inferInstanceAs (Decidable (_ < _))

/-- The action for one selection alone. The other selections stay what they are,
but those that lie below are moved by the change of the text's length. -/
def Buffer.cycleAt (d : Dialect) (b : Buffer) (i : Nat) : Except EditError Buffer :=
  match b.selections[i]? with
  | none => .ok b
  | some s =>
    let plan := Plan.make d b.text [s]
    match b.applyEdits plan.edits with
    | (_, some error) => .error error
    | (edited, none) =>
      .ok ⟨edited.text, b.selections.mapIdx fun j t =>
        if j = i then plan.selections.headD t
        else if b.text.Below s t then t.shift (Edit.totalDelta plan.edits) else t⟩

theorem Buffer.cycleAt_eq {d : Dialect} {b : Buffer} {i : Nat} {s moved : Span}
    {edits : List Edit} {result : Text} (hs : b.selections[i]? = some s)
    (hplan : Plan.make d b.text [s] = ⟨edits, [moved]⟩)
    (hrewrites : Edit.Rewrites 0 b.text edits result) :
    b.cycleAt d i = .ok ⟨result, b.selections.mapIdx fun j t =>
      if j = i then moved else if b.text.Below s t then
        t.shift (Edit.totalDelta edits)
      else t⟩ := by
  unfold Buffer.cycleAt
  simp only [hs, hplan, Buffer.applyEdits, hrewrites.applyAll_eq, List.headD_cons]

/-! ## Lists with their places -/

theorem zipIdx_mapIdx {α β : Type} (f : Nat → α → β) (xs : List α) :
    (xs.mapIdx f).zipIdx = xs.zipIdx.map fun p => (f p.2 p.1, p.2) := by
  apply List.ext_getElem?
  intro i
  simp [Function.comp_def]

/-- A list is known by its elements with their places. -/
theorem eq_of_zipIdx_perm {α : Type} {xs ys : List α}
    (h : xs.zipIdx.Perm ys.zipIdx) : xs = ys := by
  apply List.ext_getElem?
  intro i
  apply Option.ext
  intro x
  rw [← List.mk_mem_zipIdx_iff_getElem?, h.mem_iff, List.mk_mem_zipIdx_iff_getElem?]

namespace Stretch

variable {d : Dialect} {tail : Text} {front behind xs : List Stretch}
  {x : Stretch} {b : Buffer}

/-- The buffer holds the text of the stretches and their selections. -/
structure Shows (tail : Text) (xs : List Stretch) (b : Buffer) : Prop where
  text : b.text = written xs ++ tail
  selections : (spread placed 0 xs).Perm b.selections.zipIdx

theorem Shows.eq {b' : Buffer} (h : Shows tail xs b) (h' : Shows tail xs b') :
    b = b' := by
  obtain ⟨text, selections⟩ := b
  obtain ⟨text', selections'⟩ := b'
  have htext : text = text' := h.text.trans h'.text.symm
  have hselections : selections = selections' :=
    eq_of_zipIdx_perm (h.selections.symm.trans h'.selections)
  rw [htext, hselections]

/-- The stretches have the places of the list of selections. -/
theorem Shows.map_index (h : Shows tail xs b) :
    (xs.map index).Perm (List.range b.selections.length) := by
  have hindex := h.selections.map Prod.snd
  rw [map_spread, List.zipIdx_map_snd, ← List.range_eq_range'] at hindex
  exact spread_const index 0 xs ▸ hindex

theorem Shows.length_eq (h : Shows tail xs b) : xs.length = b.selections.length := by
  simpa using h.map_index.length_eq

/-! ## One action -/

/-- The selections of stretches in front of a block are not below its selection. -/
theorem Laid.not_below (h : Laid tail (front ++ x :: behind)) {p : Span × Nat}
    (hp : p ∈ spread placed 0 front) :
    ¬ (written (front ++ x :: behind) ++ tail).Below
      (x.selection.moveRight (written front ++ x.front).size) p.1 := by
  obtain ⟨first, y, between, rfl, rfl⟩ := mem_spread_iff.1 hp
  obtain ⟨-, hspan, -⟩ := h.block
  have hform : first ++ y :: between ++ x :: behind =
      first ++ y :: (between ++ x :: behind) := by simp
  obtain ⟨-, hy, -⟩ := (hform ▸ h).block
  have hline := h.line_placed hspan.stop
  have hle := line_start_le (written (first ++ y :: between ++ x :: behind) ++ tail)
    (y.selection.start + (0 + (written first ++ y.front).size))
  have hsize := hy.stop.le_size
  have hordered := hy.ordered
  unfold Below
  show ¬ (Text.line _ (x.selection.stop + _)).span.start <
      (Text.line _ (y.selection.start + _)).span.start
  rw [hline]
  simp only [Region.moveRight, Span.moveRight, written_append, written_cons,
    Stretch.text, size_append] at hle ⊢
  omega

/-- The selections of stretches behind a block are below its selection. -/
theorem Laid.below (h : Laid tail (front ++ x :: behind)) {p : Span × Nat}
    (hp : p ∈ spread placed (0 + (written front).size + x.text.size) behind) :
    (written (front ++ x :: behind) ++ tail).Below
      (x.selection.moveRight (written front ++ x.front).size) p.1 := by
  obtain ⟨between, y, last, rfl, rfl⟩ := mem_spread_iff.1 hp
  obtain ⟨-, hspan, -, hbreaks⟩ := h.block
  have hform : front ++ x :: (between ++ y :: last) = (front ++ x :: between)
      ++ y :: last := by simp
  obtain ⟨-, hy, -⟩ := (hform ▸ h).block
  have hline := (hform ▸ h).line_placed hy.start
  have hle := line_start_le (written (front ++ x :: (between ++ y :: last)) ++ tail)
    (x.selection.stop + (written front ++ x.front).size)
  have hsize := hspan.stop.le_size
  have hpos := hbreaks.size_pos
  have hplace :
      0 + (written front).size + x.text.size + (written between ++ y.front).size =
      (written (front ++ x :: between) ++ y.front).size := by
    simp only [written_append, written_cons, size_append]
    omega
  unfold Below
  show (Text.line _ (x.selection.stop + _)).span.start <
      (Text.line _ (y.selection.start + _)).span.start
  rw [hplace, hform, hline, ← hform]
  simp only [Region.moveRight, Span.moveRight, written_append, written_cons,
    Stretch.text, size_append] at hle hpos ⊢
  omega

/-- Stretches that stand further left or right have their selections
further left or right. -/
theorem spread_placed_shift {offset offset' : Nat} {delta : Int}
    (h : (offset' : Int) = offset + delta) (xs : List Stretch) :
    spread placed offset' xs = (spread placed offset xs).map fun p =>
      (p.1.shift delta, p.2) := by
  rw [map_spread]
  apply spread_congr
  intro front x behind _
  simp only [placed, Span.moveRight, Span.shift, Span.shiftOffset, Prod.mk.injEq,
    Span.mk.injEq, and_true]
  omega

/-- With a change of one stretch, the selections behind it are moved by the
change of length. -/
theorem spread_placed_change {move : Span × Nat → Span × Nat} {y : Stretch}
    (delta : Int) (hsize : (y.text.size : Int) = x.text.size + delta)
    (hfront : ∀ p ∈ spread placed 0 front, move p = p)
    (hhere : move (placed (written front ++ x.front).size x) =
      placed (written front ++ y.front).size y)
    (hbehind : ∀ p ∈ spread placed (0 + (written front).size + x.text.size) behind,
      move p = (p.1.shift delta, p.2)) :
    (spread placed 0 (front ++ x :: behind)).map move = spread placed 0
      (front ++ y :: behind) := by
  have hshift : ((0 + (written front).size + y.text.size : Nat) : Int) =
      (0 + (written front).size + x.text.size : Nat) + delta := by
    omega
  rw [size_append, size_append] at hhere
  rw [spread_append, spread_append, spread, spread, List.map_append,
    List.map_cons, spread_placed_shift hshift, List.map_congr_left hbehind,
    List.map_congr_left hfront, List.map_id', Nat.zero_add, hhere]

/-- No other stretch has the place of a selection in the list of selections. -/
theorem Shows.index_ne (h : Shows tail (front ++ x :: behind) b) :
    (∀ y ∈ front, y.index ≠ x.index) ∧ ∀ y ∈ behind, y.index ≠ x.index := by
  have hnodup : ((front ++ x :: behind).map index).Nodup :=
    h.map_index.nodup_iff.2 List.nodup_range
  rw [List.map_append, List.map_cons, List.nodup_append, List.nodup_cons] at hnodup
  obtain ⟨-, ⟨hindex, -⟩, hapart⟩ := hnodup
  constructor
  · intro y hy
    exact hapart _ (List.mem_map_of_mem hy) _ List.mem_cons_self
  · intro y hy heq
    exact hindex (heq ▸ List.mem_map_of_mem hy)

/-- A change by the place in the list of selections is a change of one stretch. -/
theorem Shows.map_change (h : Shows tail (front ++ x :: behind) b)
    (change : Stretch → Stretch) :
    ((front ++ x :: behind).map fun y => if y.index = x.index then change y else y) =
      front ++ change x :: behind := by
  obtain ⟨hfront, hbehind⟩ := h.index_ne
  have hsame : ∀ ys : List Stretch, (∀ y ∈ ys, y.index ≠ x.index) →
      ys.map (fun y => if y.index = x.index then change y else y) = ys := by
    intro ys hys
    exact (List.map_congr_left fun y hy => if_neg (hys y hy)).trans (List.map_id' ys)
  rw [List.map_append, List.map_cons, if_pos rfl, hsame front hfront,
    hsame behind hbehind]

/-- An action changes the stretch of its selection. -/
theorem Shows.cycleAt (h : Shows tail xs b) (hlaid : Laid tail xs) {i : Nat}
    (hi : i < b.selections.length) :
    ∃ b', b.cycleAt d i = .ok b' ∧
      Shows tail (xs.map fun x => if x.index = i then x.act d else x) b' := by
  obtain ⟨s, hs⟩ : ∃ s, b.selections[i]? = some s := ⟨_, List.getElem?_eq_getElem hi⟩
  have hmem := h.selections.mem_iff.2 (List.mk_mem_zipIdx_iff_getElem?.2 hs)
  obtain ⟨front, x, behind, rfl, heq⟩ := mem_spread_iff.1 hmem
  obtain ⟨rfl, rfl⟩ := Prod.mk.inj heq
  obtain ⟨hfront, hbehind⟩ := h.index_ne
  have hplan := hlaid.plan_placed (d := d)
  have hrewrites := hlaid.rewrites_placed (d := d)
  rw [Nat.zero_add] at hs
  rw [← h.text] at hplan hrewrites
  refine ⟨_, Buffer.cycleAt_eq hs hplan hrewrites, ?_⟩
  rw [h.map_change]
  refine ⟨rfl, ?_⟩
  rw [zipIdx_mapIdx]
  refine (List.Perm.of_eq (spread_placed_change
    (Edit.totalDelta (x.edits d (written front ++ x.front).size))
    ?_ ?_ ?_ ?_).symm).trans (h.selections.map _)
  · obtain ⟨-, hspan, -⟩ := hlaid.block
    have hlines := (rewrites_act d hspan).size_eq
    show ((x.front ++ (x.act d).lines).size : Int) = (x.front ++ x.lines).size + _
    simp only [size_append, edits, Edit.totalDelta_cons, Edit.totalDelta_nil,
      Edit.delta_moveRight] at hlines ⊢
    omega
  · intro p hp
    have hother : p.2 ≠ x.index := by
      obtain ⟨first, y, between, rfl, rfl⟩ := mem_spread_iff.1 hp
      exact hfront y (List.mem_append_right _ List.mem_cons_self)
    have hbelow := h.text ▸ hlaid.not_below hp
    exact Prod.ext ((if_neg hother).trans (if_neg hbelow)) rfl
  · exact Prod.ext (if_pos rfl) rfl
  · intro p hp
    have hother : p.2 ≠ x.index := by
      obtain ⟨between, y, last, rfl, rfl⟩ := mem_spread_iff.1 hp
      exact hbehind y (List.mem_append_right _ List.mem_cons_self)
    have hbelow := h.text ▸ hlaid.below hp
    exact Prod.ext ((if_neg hother).trans (if_pos hbelow)) rfl

/-- Actions one after another change the stretches of their selections, in
whatever order they are done. -/
theorem Shows.foldlM (h : Shows tail xs b) (hlaid : Laid tail xs)
    {order : List Nat} (hnodup : order.Nodup)
    (hlt : ∀ i ∈ order, i < b.selections.length) :
    ∃ b', order.foldlM (Buffer.cycleAt d) b = .ok b' ∧
      Shows tail (xs.map fun x => if x.index ∈ order then x.act d else x) b' := by
  induction order generalizing xs b with
  | nil => exact ⟨b, rfl, by simpa using h⟩
  | cons i order ih =>
    obtain ⟨hi, hrest⟩ := List.nodup_cons.1 hnodup
    obtain ⟨b₁, hcycle, hshows⟩ :=
      h.cycleAt (d := d) hlaid (hlt i List.mem_cons_self)
    have hlaid₁ :
        Laid tail (xs.map fun x => if x.index = i then x.act d else x) := by
      apply hlaid.map
      · intro y
        split <;> rfl
      · intro y hy
        split
        · exact hasSpan_act d hy
        · exact hy
    have hlength : b₁.selections.length = b.selections.length := by
      rw [← hshows.length_eq, List.length_map, h.length_eq]
    obtain ⟨b', hfold, hshows'⟩ :=
      ih hshows hlaid₁ hrest fun j hj => hlength ▸ hlt j (List.mem_cons_of_mem _ hj)
    refine ⟨b', ?_, ?_⟩
    · rw [List.foldlM_cons, hcycle]
      exact hfold
    · have hboth : xs.map (fun x => if x.index ∈ i :: order then x.act d else x) =
          (xs.map fun x => if x.index = i then x.act d else x).map fun x =>
            if x.index ∈ order then x.act d else x := by
        rw [List.map_map]
        apply List.map_congr_left
        intro x _
        by_cases hx : x.index = i
        · have hdone : (x.act d).index ∉ order := fun hmem => hi (hx ▸ hmem)
          rw [Function.comp_apply, if_pos hx, if_neg hdone,
            if_pos (hx ▸ List.mem_cons_self)]
        · rw [Function.comp_apply, if_neg hx]
          simp only [List.mem_cons, hx, false_or]
      rw [hboth]
      exact hshows'

/-! ## All actions -/

/-- The plan for all selections changes all stretches. -/
theorem Shows.batch (h : Shows tail xs b) (hlaid : Laid tail xs) :
    let plan := Plan.make d b.text b.selections
    Edit.applyAll plan.edits b.text = (written (xs.map (act d)) ++ tail, none) ∧
      Shows tail (xs.map (act d)) ⟨written (xs.map (act d)) ++ tail,
        plan.selections⟩ := by
  intro plan
  have hedits : plan.edits = (spread (edits d) 0 xs).flatten := by
    show Plan.editsFor d b.text b.selections = _
    rw [h.text]
    exact hlaid.editsFor_eq h.selections
  refine ⟨?_, rfl, ?_⟩
  · rw [hedits, h.text]
    exact (rewrites_written hlaid.hasSpan tail 0).applyAll_eq
  · have hzipIdx := h.selections.map (Prod.map (fun s =>
      Plan.moveSelection plan.edits (TagEdit.ofSelection d b.text s)) id)
    rw [← List.zipIdx_map, map_spread] at hzipIdx
    refine (List.Perm.of_eq (spread_map_congr ?_)).trans hzipIdx
    intro front x behind hxs
    subst hxs
    rw [hedits, h.text, Nat.zero_add, Nat.zero_add]
    refine Prod.ext ?_ rfl
    show _ = Plan.moveSelection _ (TagEdit.ofSelection d _ _)
    rw [hlaid.ofSelection_placed, hlaid.moveSelection_placed]
    rfl

end Stretch

/-- If no line is touched by two selections, the plan for all of them does what
actions one by one do, in any order. -/
theorem Buffer.batch_eq_one_by_one (d : Dialect) (b : Buffer) (hchecked : b.Checked)
    (hapart : b.selections.Pairwise b.text.Apart) :
    let plan := Plan.make d b.text b.selections
    ∃ result, b.applyEdits plan.edits = (⟨result, b.selections⟩, none) ∧
      ∀ order : List Nat, order.Perm (List.range b.selections.length) →
        order.foldlM (Buffer.cycleAt d) b = .ok ⟨result, plan.selections⟩ := by
  intro plan
  obtain ⟨xs, tail, hlaid, htext, hselections⟩ := Stretch.exists_laid hchecked hapart
  have hshows : Stretch.Shows tail xs b := ⟨htext, hselections⟩
  obtain ⟨happly, hbatch⟩ := hshows.batch (d := d) hlaid
  refine ⟨_, by rw [Buffer.applyEdits, happly], ?_⟩
  intro order horder
  have hlt : ∀ i ∈ order, i < b.selections.length :=
    fun i hi => List.mem_range.1 (horder.mem_iff.1 hi)
  obtain ⟨b', hfold, hdone⟩ :=
    hshows.foldlM (d := d) hlaid (horder.nodup_iff.2 List.nodup_range) hlt
  -- Each stretch has had its action.
  have hall : xs.map (fun x => if x.index ∈ order then x.act d else x) =
      xs.map (Stretch.act d) := by
    apply List.map_congr_left
    intro x hx
    have hindex := hshows.map_index.mem_iff.1 (List.mem_map_of_mem hx)
    exact if_pos (horder.mem_iff.2 hindex)
  rw [hall] at hdone
  rw [hfold, hdone.eq hbatch]

/-- Two tags, a selection across lines and a cursor in an empty line, done neither
downwards nor upwards. -/
theorem Buffer.batch_eq_one_by_one_across_lines :
    let d := Family.erb.dialect
    let b : Buffer :=
      ⟨"<% é %>\r\nb\nc\n\n<%= d %>".toList, [⟨10, 13⟩, ⟨3, 5⟩, ⟨19, 20⟩, ⟨14, 14⟩]⟩
    let text : Text := "<%= é %>\r\n<% b\nc %>\n<%  %>\n<%# d %>".toList
    b.Checked ∧ b.selections.Pairwise b.text.Apart ∧
      [2, 0, 3, 1].Perm (List.range b.selections.length) ∧
      b.applyEdits (Plan.make d b.text b.selections).edits =
        (⟨text, b.selections⟩, none) ∧
      [2, 0, 3, 1].foldlM (Buffer.cycleAt d) b =
        .ok ⟨text, [⟨14, 17⟩, ⟨4, 6⟩, ⟨32, 33⟩, ⟨24, 24⟩]⟩ := by
  intro d b text
  have hchecked : b.Checked := by decide
  have hapart : b.selections.Pairwise b.text.Apart := by decide
  have horder : [2, 0, 3, 1].Perm (List.range b.selections.length) := by decide
  obtain ⟨result, happly, horders⟩ := Buffer.batch_eq_one_by_one d b hchecked hapart
  have htext : b.applyEdits (Plan.make d b.text b.selections).edits =
      (⟨text, b.selections⟩, none) := by decide
  have hselections : (Plan.make d b.text b.selections).selections =
      [⟨14, 17⟩, ⟨4, 6⟩, ⟨32, 33⟩, ⟨24, 24⟩] := by decide
  have hresult : result = text :=
    congrArg (fun p => p.1.text) (happly.symm.trans htext)
  refine ⟨hchecked, hapart, horder, htext, ?_⟩
  rw [horders _ horder, hresult, hselections]

end TemplateTags
