import Mathlib.Data.List.Pairwise
import TemplateTags.Proofs.Cycle.Insertions
import TemplateTags.Proofs.Document.Simultaneous
/-!
# A plan depends on what is selected

A plan sorts its selections, then their edits, and drops edits that are there
already. All of that may depend on the order of the selections only where edits
compare as equal, and of edits that do not overlap only an opener and a closer
that are put in at one place do (`Plan.delimiter_of_tied`). Which of the two comes
first is settled by the selections as a set: the closer does if a selection that
gets a new tag ends there and begins before (`Plan.EndsTagAt`).

So selections that ask for the same edits and put in the same tags have the same
plan (`Plan.Alike.edits_eq`), and that is what permuting selections, repeating
them, and selecting once more in a tag that is edited already come to
(`Plan.Reselected.alike`).
-/

namespace TemplateTags

open Text

namespace Edit

/-- Edits that stand in document order are in order if and only if no two of them
overlap, whichever comes first. -/
theorem inOrder_iff_pairwise {edits : List Edit}
    (hsorted : edits.Pairwise (Plan.precedes · ·))
    (hordered : ∀ e ∈ edits, e.span.start ≤ e.span.stop) :
    InOrder edits ↔ edits.Pairwise fun e f =>
      e.span.stop ≤ f.span.start ∨ f.span.stop ≤ e.span.start := by
  constructor
  · intro h
    exact h.imp .inl
  · intro h
    refine (h.and hsorted).imp_of_mem ?_
    intro e f he hf hef
    obtain ⟨hapart, hprecedes⟩ := hef
    have hestop := hordered e he
    have hfstop := hordered f hf
    rw [Plan.precedes_iff] at hprecedes
    omega

end Edit

namespace Plan

/-! ## First occurrences -/

theorem filter_eraseDups {α : Type} [BEq α] [LawfulBEq α] (kept : α → Bool) :
    ∀ xs : List α, xs.eraseDups.filter kept = (xs.filter kept).eraseDups
  | [] => by simp
  | x :: xs => by
    have hlength : (xs.filter fun y => !y == x).length < xs.length + 1 :=
      Nat.lt_succ_of_le (List.length_filter_le _ _)
    have hothers := filter_eraseDups kept (xs.filter fun y => !y == x)
    rw [List.eraseDups_cons, List.filter_cons, List.filter_cons, hothers,
      List.filter_filter]
    by_cases hx : kept x
    · rw [if_pos hx, if_pos hx, List.eraseDups_cons, List.filter_filter]
      simp only [Bool.and_comm]
    · rw [if_neg hx, if_neg hx]
      -- What is equal to an element that is not kept is not kept either.
      congr 1
      apply List.filter_congr
      intro y _
      by_cases hy : y = x
      · subst hy
        simp [hx]
      · simp [hy]
termination_by xs => xs.length

variable {d : Dialect} {text : Text} {selections others : List Span} {p : Nat}

/-! ## Edits at one place -/

/-- The edits of both delimiters of each selection. -/
def requested (d : Dialect) (text : Text) (selections : List Span) : List Edit :=
  selections.flatMap fun s =>
    [(TagEdit.ofSelection d text s).opener, (TagEdit.ofSelection d text s).closer]

theorem editsFor_eq_requested (d : Dialect) (text : Text) (selections : List Span) :
    editsFor d text selections =
      (sortBy precedes (requested d text
        (sortBy startsBefore selections))).eraseDups := by
  show (sortBy precedes (List.flatMap _ (List.map _ _))).eraseDups = _
  rw [List.flatMap_map]
  rfl

/-- The edit puts text in at a place. -/
def insertsAt (p : Nat) (e : Edit) : Bool := decide (e.span = .point p)

/-- Some selection that gets a new tag ends at a place and begins before it. -/
def EndsTagAt (d : Dialect) (text : Text) (selections : List Span) (p : Nat) :
    Prop :=
  ∃ s ∈ inserting d text selections, s.start < p ∧ s.stop = p

/-- Insertions at one place stand in a plan as their selections ask for them. -/
theorem filter_editsFor (d : Dialect) (text : Text) (selections : List Span)
    (p : Nat) :
    (editsFor d text selections).filter (insertsAt p) =
      ((requested d text (sortBy startsBefore selections)).filter
        (insertsAt p)).eraseDups := by
  have htied : ∀ e f, insertsAt p e → insertsAt p f → precedes e f := by
    intro e f he hf
    have hestart : e.span = .point p := of_decide_eq_true he
    have hfstart : f.span = .point p := of_decide_eq_true hf
    unfold precedes
    rw [hestart, hfstart]
    simp
  rw [editsFor_eq_requested, filter_eraseDups, filter_sortBy htied]

/-- A selection asks for an insertion only if it gets a new tag, and at its ends. -/
theorem insertsAt_on_iff (hd : d.Compiled) {s : Span} (side : Delimiter) :
    insertsAt p ((TagEdit.ofSelection d text s).on side) ↔
      Action.choose d text s = .insert ∧ s.place side = p := by
  unfold insertsAt
  rw [decide_eq_true_iff]
  constructor
  · intro h
    have hinsertion : ((TagEdit.ofSelection d text s).on side).isInsertion := by
      unfold Edit.isInsertion
      rw [h]
      exact decide_eq_true (Nat.le_refl p)
    have hinsert := (TagEdit.isInsertion_on_iff hd side).1 hinsertion
    rw [TagEdit.on_of_insert side hinsert, TagEdit.span_on_inserting] at h
    exact ⟨hinsert, congrArg Span.start h⟩
  · intro h
    rw [TagEdit.on_of_insert side h.1, TagEdit.span_on_inserting, h.2]

/-- There is one insertion only for each delimiter and place. -/
theorem eq_of_insertsAt (hd : d.Compiled) {e f : Edit}
    (he : e ∈ (editsFor d text selections).filter (insertsAt p))
    (hf : f ∈ (editsFor d text selections).filter (insertsAt p))
    (hside : e.delimiter = f.delimiter) : e = f := by
  obtain ⟨hemem, hep⟩ := List.mem_filter.1 he
  obtain ⟨hfmem, hfp⟩ := List.mem_filter.1 hf
  obtain ⟨s, -, side, hs⟩ := mem_editsFor_iff_on.1 hemem
  obtain ⟨t, -, side', ht⟩ := mem_editsFor_iff_on.1 hfmem
  subst hs
  subst ht
  rw [TagEdit.delimiter_on_ofSelection, TagEdit.delimiter_on_ofSelection] at hside
  subst hside
  obtain ⟨hsinsert, hsplace⟩ := (insertsAt_on_iff hd _).1 hep
  obtain ⟨htinsert, htplace⟩ := (insertsAt_on_iff hd _).1 hfp
  rw [TagEdit.on_of_insert side hsinsert, TagEdit.on_of_insert side htinsert,
    TagEdit.on_inserting_eq_iff, hsplace, htplace]

/-- There are at most two insertions at a place. -/
theorem eq_of_insertsAt_ne (hd : d.Compiled) {e f g : Edit}
    (he : e ∈ (editsFor d text selections).filter (insertsAt p))
    (hf : f ∈ (editsFor d text selections).filter (insertsAt p))
    (hg : g ∈ (editsFor d text selections).filter (insertsAt p)) (heg : e ≠ g)
    (hfg : f ≠ g) : e = f := by
  have hside : e.delimiter ≠ g.delimiter := fun h => heg (eq_of_insertsAt hd he hg h)
  have hside' : f.delimiter ≠ g.delimiter :=
    fun h => hfg (eq_of_insertsAt hd hf hg h)
  refine eq_of_insertsAt hd he hf ?_
  cases hes : e.delimiter <;> cases hfs : f.delimiter <;> cases hgs :
    g.delimiter <;> simp_all

/-- The first insertion that sorted selections ask for at a place is a closer's if
and only if a tag is to end there that begins before. -/
theorem delimiter_of_requested (hd : d.Compiled)
    (hspan : ∀ s ∈ selections, s.start ≤ s.stop)
    (hsorted : selections.Pairwise (startsBefore · ·)) {e : Edit}
    {rest : List Edit}
    (h : (requested d text selections).filter (insertsAt p) = e :: rest) :
    e.delimiter = .closer ↔ EndsTagAt d text selections p := by
  induction selections with
  | nil => cases h
  | cons s behind ih =>
    obtain ⟨hfirst, hbehind⟩ := List.pairwise_cons.1 hsorted
    have hordered := hspan s List.mem_cons_self
    have hopener : insertsAt p (TagEdit.ofSelection d text s).opener ↔
        Action.choose d text s = .insert ∧ s.start = p := insertsAt_on_iff hd .opener
    have hcloser : insertsAt p (TagEdit.ofSelection d text s).closer ↔
        Action.choose d text s = .insert ∧ s.stop = p := insertsAt_on_iff hd .closer
    have hrequested :
        requested d text (s :: behind) = (TagEdit.ofSelection d text s).opener ::
        (TagEdit.ofSelection d text s).closer :: requested d text behind := rfl
    rw [hrequested, List.filter_cons, List.filter_cons] at h
    by_cases ho : insertsAt p (TagEdit.ofSelection d text s).opener
    · -- All selections begin here or behind, so none ends here and begins before.
      rw [if_pos ho] at h
      obtain ⟨rfl, -⟩ := List.cons.inj h
      obtain ⟨-, hstart⟩ := hopener.1 ho
      constructor
      · intro hdelimiter
        rw [TagEdit.opener_delimiter_ofSelection] at hdelimiter
        cases hdelimiter
      · intro hends
        obtain ⟨t, ht, hlt, -⟩ := hends
        have hge : s.start ≤ t.start := by
          rcases List.mem_cons.1 (mem_inserting_iff.1 ht).1 with heq | ht
          · exact heq ▸ Nat.le_refl _
          · exact of_decide_eq_true (hfirst t ht)
        omega
    · rw [if_neg ho] at h
      by_cases hc : insertsAt p (TagEdit.ofSelection d text s).closer
      · rw [if_pos hc] at h
        obtain ⟨rfl, -⟩ := List.cons.inj h
        obtain ⟨hinsert, hstop⟩ := hcloser.1 hc
        have hne : s.start ≠ p := fun hstart => ho (hopener.2 ⟨hinsert, hstart⟩)
        refine ⟨fun _ => ⟨s, ?_, by omega, hstop⟩, fun _ =>
          TagEdit.closer_delimiter_ofSelection d text s⟩
        exact mem_inserting_iff.2 ⟨List.mem_cons_self, hinsert⟩
      · rw [if_neg hc] at h
        rw [ih (fun t ht => hspan t (List.mem_cons_of_mem s ht)) hbehind h]
        constructor
        · intro hends
          obtain ⟨t, ht, hplace⟩ := hends
          obtain ⟨htmem, htinsert⟩ := mem_inserting_iff.1 ht
          exact ⟨t, mem_inserting_iff.2 ⟨List.mem_cons_of_mem s htmem, htinsert⟩,
            hplace⟩
        · intro hends
          obtain ⟨t, ht, hlt, hstop⟩ := hends
          obtain ⟨htmem, htinsert⟩ := mem_inserting_iff.1 ht
          rcases List.mem_cons.1 htmem with heq | htmem
          · subst heq
            exact absurd (hcloser.2 ⟨htinsert, hstop⟩) hc
          · exact ⟨t, mem_inserting_iff.2 ⟨htmem, htinsert⟩, hlt, hstop⟩

theorem endsTagAt_sortBy :
    EndsTagAt d text (sortBy startsBefore selections) p ↔
      EndsTagAt d text selections p := by
  unfold EndsTagAt
  simp only [mem_inserting_iff, (perm_sortBy _ _).mem_iff]

/-- Of two edits that a plan puts in at one place, the closer stands first if and
only if a tag is to end there that begins before. -/
theorem delimiter_of_tied (hd : d.Compiled)
    (hspan : ∀ s ∈ selections, s.start ≤ s.stop) {e f : Edit}
    (h : [e, f].Sublist (editsFor d text selections)) (he : insertsAt p e)
    (hf : insertsAt p f) :
    e.delimiter = .closer ↔ EndsTagAt d text selections p := by
  have hsub :
      [e, f].Sublist ((editsFor d text selections).filter (insertsAt p)) := by
    have hfilter := h.filter (insertsAt p)
    rwa [List.filter_cons_of_pos he, List.filter_cons_of_pos hf] at hfilter
  have hnodup : ((editsFor d text selections).filter (insertsAt p)).Nodup :=
    (nodup_editsFor d text selections).filter _
  have hne : e ≠ f := by
    intro heq
    exact (List.nodup_cons.1 (hnodup.sublist hsub)).1 (List.mem_singleton.2 heq)
  have hemem := hsub.subset List.mem_cons_self
  have hfmem := hsub.subset (List.mem_cons_of_mem e List.mem_cons_self)
  have htied := filter_editsFor d text selections p
  cases hrequested :
    (requested d text (sortBy startsBefore selections)).filter (insertsAt p) with
  | nil =>
    rw [htied, hrequested, List.eraseDups_nil] at hsub
    cases hsub
  | cons g rest =>
    rw [hrequested, List.eraseDups_cons] at htied
    have hgmem : g ∈ (editsFor d text selections).filter (insertsAt p) := by
      rw [htied]
      exact List.mem_cons_self
    have hfirst : e = g := by
      rw [htied] at hsub hnodup
      cases hsub with
      | cons_cons _ _ => rfl
      | cons _ hbehind =>
        -- Both stand behind the first one, but there is only one more.
        have hg := (List.nodup_cons.1 hnodup).1
        have heg : e ≠ g := fun heq => hg (heq ▸ hbehind.subset List.mem_cons_self)
        have hfg : f ≠ g := fun heq =>
          hg (heq ▸ hbehind.subset (List.mem_cons_of_mem e List.mem_cons_self))
        exact absurd (eq_of_insertsAt_ne hd hemem hfmem hgmem heg hfg) hne
    rw [hfirst, ← endsTagAt_sortBy]
    have hordered : ∀ s ∈ sortBy startsBefore selections, s.start ≤ s.stop := by
      intro s hs
      exact hspan s ((perm_sortBy _ _).mem_iff.1 hs)
    exact delimiter_of_requested hd hordered
      (pairwise_sortBy startsBefore_total startsBefore_trans _) hrequested

/-! ## Selections that ask for the same -/

/-- Two lists of selections of a text ask for the same edits and put in the same
tags. -/
structure Alike (d : Dialect) (text : Text) (selections others : List Span) :
    Prop where
  hasSpan : (∀ s ∈ selections, text.HasSpan s) → ∀ s ∈ others, text.HasSpan s
  mem_edits : ∀ e, e ∈ editsFor d text selections ↔ e ∈ editsFor d text others
  mem_inserting : ∀ s, s ∈ inserting d text selections ↔ s ∈ inserting d text others

theorem Alike.endsTagAt_iff (h : Alike d text selections others) :
    EndsTagAt d text selections p ↔ EndsTagAt d text others p := by
  unfold EndsTagAt
  simp only [h.mem_inserting]

theorem Alike.perm (h : Alike d text selections others) :
    (editsFor d text selections).Perm (editsFor d text others) :=
  (List.perm_ext_iff_of_nodup (nodup_editsFor _ _ _) (nodup_editsFor _ _ _)).2
    h.mem_edits

theorem inOrder_editsFor_iff (hspan : ∀ s ∈ selections, text.HasSpan s) :
    Edit.InOrder (editsFor d text selections) ↔
      (editsFor d text selections).Pairwise fun e f =>
        e.span.stop ≤ f.span.start ∨ f.span.stop ≤ e.span.start :=
  Edit.inOrder_iff_pairwise (pairwise_editsFor d text selections)
    fun _ he => (hasSpan_of_mem_editsFor d hspan he).ordered

/-- The edits overlap for both lists or for neither. -/
theorem Alike.inOrder_iff (h : Alike d text selections others)
    (hspan : ∀ s ∈ selections, text.HasSpan s) :
    Edit.InOrder (editsFor d text selections) ↔
      Edit.InOrder (editsFor d text others) := by
  rw [inOrder_editsFor_iff hspan, inOrder_editsFor_iff (h.hasSpan hspan)]
  exact h.perm.pairwise_iff Or.symm

/-- The order of a plan's edits, as far as the set of selections settles it: edits
that are put in at one place stand as `delimiter_of_tied` says. -/
def StandsBefore (d : Dialect) (text : Text) (selections : List Span)
    (e f : Edit) : Prop :=
  precedes e f ∧ ∀ p, insertsAt p e → insertsAt p f →
    (e.delimiter = .closer ↔ EndsTagAt d text selections p)

theorem pairwise_standsBefore (hd : d.Compiled)
    (hspan : ∀ s ∈ selections, text.HasSpan s) :
    (editsFor d text selections).Pairwise (StandsBefore d text selections) := by
  rw [List.pairwise_iff_forall_sublist]
  intro e f h
  have hprecedes :=
    List.pairwise_iff_forall_sublist.1 (pairwise_editsFor d text selections) h
  exact ⟨hprecedes, fun p =>
    delimiter_of_tied hd (fun s hs => (hspan s hs).ordered) h⟩

/-- Two edits that could each stand before the other are the same,
unless they overlap. -/
theorem StandsBefore.antisymm (hd : d.Compiled)
    (hspan : ∀ s ∈ selections, text.HasSpan s)
    (horder : Edit.InOrder (editsFor d text selections)) {e f : Edit}
    (he : e ∈ editsFor d text selections) (hf : f ∈ editsFor d text selections)
    (hef : StandsBefore d text selections e f)
    (hfe : StandsBefore d text selections f e) : e = f := by
  by_cases heq : e = f
  · exact heq
  · have hsymm : Std.Symm fun e f : Edit =>
      e.span.stop ≤ f.span.start ∨ f.span.stop ≤ e.span.start :=
      ⟨fun _ _ h => h.symm⟩
    have hapart := ((inOrder_editsFor_iff hspan).1 horder).forall he hf heq
    have heordered := (hasSpan_of_mem_editsFor d hspan he).ordered
    have hfordered := (hasSpan_of_mem_editsFor d hspan hf).ordered
    obtain ⟨hprecedes, hside⟩ := hef
    obtain ⟨hprecedes', hside'⟩ := hfe
    rw [precedes_iff] at hprecedes hprecedes'
    have hep : insertsAt e.span.start e := by
      have hstop : e.span.stop = e.span.start := by omega
      exact decide_eq_true (congrArg (Span.mk e.span.start) hstop)
    have hfp : insertsAt e.span.start f := by
      have hstart : f.span.start = e.span.start := by omega
      have hstop : f.span.stop = e.span.start := by omega
      exact decide_eq_true (congr (congrArg Span.mk hstart) hstop)
    have hdelimiter : e.delimiter = .closer ↔ f.delimiter = .closer :=
      (hside _ hep hfp).trans (hside' _ hfp hep).symm
    refine eq_of_insertsAt hd (List.mem_filter.2 ⟨he, hep⟩)
      (List.mem_filter.2 ⟨hf, hfp⟩) ?_
    cases hes : e.delimiter <;> cases hfs : f.delimiter <;> simp_all

/-- Lists of selections that ask for the same edits get them in the same order,
unless the edits overlap. -/
theorem Alike.edits_eq (hd : d.Compiled) (h : Alike d text selections others)
    (hspan : ∀ s ∈ selections, text.HasSpan s)
    (horder : Edit.InOrder (editsFor d text selections)) :
    editsFor d text selections = editsFor d text others := by
  have hothers :
      (editsFor d text others).Pairwise (StandsBefore d text selections) := by
    refine (pairwise_standsBefore hd (h.hasSpan hspan)).imp ?_
    intro e f hef
    obtain ⟨hprecedes, hside⟩ := hef
    exact ⟨hprecedes, fun p he hf => (hside p he hf).trans h.endsTagAt_iff.symm⟩
  refine h.perm.eq_of_pairwise ?_ (pairwise_standsBefore hd hspan) hothers
  intro e f he hf
  exact StandsBefore.antisymm hd hspan horder he ((h.mem_edits f).2 hf)

/-! ## Selecting otherwise -/

/-- Selections that are made from others by permuting them, repeating one, or
selecting in a tag for which both replacements are planned. -/
inductive Reselected (d : Dialect) (text : Text) : List Span → List Span → Prop where
  | permuted {selections others : List Span} (h : selections.Perm others) :
      Reselected d text selections others
  | repeated {selections : List Span} {s : Span} (h : s ∈ selections) :
      Reselected d text selections (s :: selections)
  | inTag {selections : List Span} {s : Span} (opener closer : Block)
      (hspan : text.HasSpan s)
      (hchoose : Action.choose d text s = .cycle opener closer)
      (hopener : (TagEdit.cycling d opener closer s).opener ∈
        (make d text selections).edits)
      (hcloser : (TagEdit.cycling d opener closer s).closer ∈
        (make d text selections).edits) :
      Reselected d text selections (s :: selections)
  | trans {selections between others : List Span}
      (h : Reselected d text selections between)
      (h' : Reselected d text between others) : Reselected d text selections others

theorem Alike.of_mem_iff (h : ∀ s, s ∈ selections ↔ s ∈ others) :
    Alike d text selections others where
  hasSpan hspan s hs := hspan s ((h s).2 hs)
  mem_edits e := by simp only [mem_editsFor_iff_on, h]
  mem_inserting s := by simp only [mem_inserting_iff, h]

/-- A selection in a tag that is edited already adds nothing. -/
theorem Alike.inTag {s : Span} {opener closer : Block} (hspan : text.HasSpan s)
    (hchoose : Action.choose d text s = .cycle opener closer)
    (hopener : (TagEdit.cycling d opener closer s).opener ∈
      (make d text selections).edits)
    (hcloser : (TagEdit.cycling d opener closer s).closer ∈
      (make d text selections).edits) :
    Alike d text selections (s :: selections) := by
  have hown : TagEdit.ofSelection d text s = TagEdit.cycling d opener closer s := by
    unfold TagEdit.ofSelection
    rw [hchoose]
    rfl
  refine ⟨fun hspans => List.forall_mem_cons.2 ⟨hspan, hspans⟩, ?_, ?_⟩
  · intro e
    constructor
    · intro he
      obtain ⟨t, ht, hside⟩ := mem_editsFor_iff_on.1 he
      exact mem_editsFor_iff_on.2 ⟨t, List.mem_cons_of_mem s ht, hside⟩
    · intro he
      obtain ⟨t, ht, side, hside⟩ := mem_editsFor_iff_on.1 he
      rcases List.mem_cons.1 ht with rfl | ht
      · rw [hside, hown]
        cases side with
        | opener => exact hopener
        | closer => exact hcloser
      · exact mem_editsFor_iff_on.2 ⟨t, ht, side, hside⟩
  · intro t
    rw [mem_inserting_iff, mem_inserting_iff, List.mem_cons]
    constructor
    · intro ht
      exact ⟨.inr ht.1, ht.2⟩
    · intro ht
      obtain ⟨rfl | ht, hinsert⟩ := ht
      · rw [hchoose] at hinsert
        cases hinsert
      · exact ⟨ht, hinsert⟩

theorem Reselected.alike (h : Reselected d text selections others) :
    Alike d text selections others := by
  induction h with
  | permuted h => exact .of_mem_iff fun s => h.mem_iff
  | repeated h =>
    apply Alike.of_mem_iff
    intro t
    rw [List.mem_cons]
    exact ⟨.inr, fun ht => ht.elim (· ▸ h) id⟩
  | inTag _ _ hspan hchoose hopener hcloser =>
    exact .inTag hspan hchoose hopener hcloser
  | trans _ _ ih ih' =>
    exact ⟨fun hspan => ih'.hasSpan (ih.hasSpan hspan), fun e =>
      (ih.mem_edits e).trans (ih'.mem_edits e),
      fun s => (ih.mem_inserting s).trans (ih'.mem_inserting s)⟩

/-- If selections are permuted, repeated or added in tags that are edited
already, then the edits of both plans overlap, or those of neither do; and then
both plans have the same edits, and each selection that is in both lists goes
to the same place. -/
theorem make_reselected {opener closer : Text} {addons : List Addon}
    {made : Dialect} (hmade : Dialect.compile opener closer addons = .ok made)
    (insertIndex : Nat) (b : Buffer) (hb : b.Checked) {others : List Span}
    (h : Reselected (made.withInsertVariant insertIndex) b.text
      b.selections others) :
    let d := made.withInsertVariant insertIndex
    let plan := make d b.text b.selections
    let plan' := make d b.text others
    ((Edit.overlap? plan.edits).isSome ∧ (Edit.overlap? plan'.edits).isSome) ∨
      (Edit.overlap? plan.edits = none ∧ Edit.overlap? plan'.edits = none ∧
        plan.edits = plan'.edits ∧
        ∀ (i j : Nat) (s : Span), b.selections[i]? = some s → others[j]? = some s →
          plan.selections[i]?.isSome ∧ plan.selections[i]? =
            plan'.selections[j]?) := by
  intro d plan plan'
  have hd : d.Compiled :=
    (Dialect.compiled_of_compile hmade).1.withInsertVariant insertIndex
  have halike := h.alike
  have hnone : Edit.overlap? plan.edits = none ↔ Edit.InOrder plan.edits :=
    Edit.overlap?_eq_none_iff fun e he => (hasSpan_of_mem_editsFor d hb he).ordered
  have hnone' : Edit.overlap? plan'.edits = none ↔ Edit.InOrder plan'.edits :=
    Edit.overlap?_eq_none_iff fun e he =>
      (hasSpan_of_mem_editsFor d (halike.hasSpan hb) he).ordered
  have hiff : Edit.InOrder plan.edits ↔ Edit.InOrder plan'.edits :=
    halike.inOrder_iff hb
  by_cases horder : Edit.InOrder plan.edits
  · right
    have hedits : plan.edits = plan'.edits := halike.edits_eq hd hb horder
    refine ⟨hnone.2 horder, hnone'.2 (hiff.1 horder), hedits, ?_⟩
    intro i j s hi hj
    have hmoved : plan.selections[i]? =
        some (moveSelection plan.edits (TagEdit.ofSelection d b.text s)) := by
      show (b.selections.map _)[i]? = _
      rw [List.getElem?_map, hi]
      rfl
    have hmoved' : plan'.selections[j]? =
        some (moveSelection plan'.edits (TagEdit.ofSelection d b.text s)) := by
      show (others.map _)[j]? = _
      rw [List.getElem?_map, hj]
      rfl
    rw [hmoved, hmoved', hedits]
    exact ⟨rfl, rfl⟩
  · left
    rw [Option.isSome_iff_ne_none, Option.isSome_iff_ne_none]
    exact ⟨fun hoverlap => horder (hnone.1 hoverlap), fun hoverlap =>
      horder (hiff.2 (hnone'.1 hoverlap))⟩

/-- Two selected words touch, and one is selected twice. Of the word in a tag,
both letters are selected. -/
theorem make_reselected_touching :
    let d := Family.erb.dialect.withInsertVariant 0
    let b : Buffer := ⟨"<% a b %>\nxy".toList, [⟨3, 4⟩, ⟨10, 11⟩, ⟨11, 12⟩]⟩
    let others : List Span := [⟨11, 12⟩, ⟨5, 6⟩, ⟨11, 12⟩, ⟨10, 11⟩, ⟨3, 4⟩]
    b.Checked ∧ Reselected d b.text b.selections others ∧
      (make d b.text b.selections).edits.length = 6 ∧
      (make d b.text b.selections).edits = (make d b.text others).edits := by
  intro d b others
  have hmade : Dialect.compile ['<', '%'] ['%', '>'] Family.erb.table.addons =
      .ok Family.erb.dialect := rfl
  have hb : b.Checked := by decide
  have htwice : Reselected d b.text b.selections (⟨11, 12⟩ :: b.selections) :=
    .repeated (by decide)
  have htag : Reselected d b.text (⟨11, 12⟩ :: b.selections)
      (⟨5, 6⟩ :: ⟨11, 12⟩ :: b.selections) :=
    .inTag ⟨⟨0, 2⟩, "<%".toList⟩ ⟨⟨7, 9⟩, "%>".toList⟩ (by decide) (by decide)
      (by decide) (by decide)
  have hpermuted : Reselected d b.text (⟨5, 6⟩ :: ⟨11, 12⟩ :: b.selections) others :=
    .permuted (by decide)
  have hothers := (htwice.trans htag).trans hpermuted
  refine ⟨hb, hothers, by decide, ?_⟩
  rcases make_reselected hmade 0 b hb hothers with hoverlap | hsame
  · have hfree : Edit.overlap? (make d b.text b.selections).edits = none := by decide
    have hsome := hoverlap.1
    rw [hfree] at hsome
    cases hsome
  · exact hsame.2.2.1

end Plan

end TemplateTags
