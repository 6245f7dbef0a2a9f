import TemplateTags.Proofs.Cycle.Shifting
import TemplateTags.Proofs.Document.Region
import TemplateTags.Proofs.Pattern.Reach
/-!
# Planned edits

The delimiters that are found around a selection are pieces of the text, the
opener ends where the selection begins or before, and the closer begins where it
ends or behind (`Surroundings.find_pair`). So do the spans of the edits that are
made for it (`TagEdit.Placed`, `TagEdit.placed_ofSelection`).

A plan's edits are those of its selections (`Plan.mem_editsFor`), each once
(`Plan.nodup_editsFor`), and if no neighbours overlap they rewrite the text
(`Plan.exists_rewrites_editsFor`). A plan for one selection is the edit of its tag
(`Plan.make_singleton`). None of this asks anything of the dialect.
-/

namespace TemplateTags

open Text

/-! ## What is found around a selection -/

namespace Surroundings

theorem cutRegion?_eq_some_iff {region : Region} {offset : Nat} {cut : Text × Text} :
    cutRegion? region offset = some cut ↔
      region.text = cut.1 ++ cut.2 ∧ region.span.start + cut.1.size = offset := by
  unfold cutRegion?
  constructor
  · intro h
    split at h
    next => cases h
    next hle =>
      obtain ⟨happ, hsize⟩ := splitAt?_eq_some_iff.1 h
      exact ⟨happ, by omega⟩
  · rintro ⟨happ, hsize⟩
    rw [if_neg (by omega), splitAt?_eq_some_iff]
    exact ⟨happ, by omega⟩

/-- A pair is found where the selection cuts the region and each side
has its delimiter. -/
theorem pair?_find_eq_some_iff {d : Dialect} {region : Region} {s : Span}
    {opener closer : Block} :
    (find d region s).pair? = some (opener, closer) ↔
      ∃ left inner outer right, region.text = left ++ inner ∧
        region.span.start + left.size = s.start ∧
        region.text = outer ++ right ∧ region.span.start + outer.size = s.stop ∧
        (d.openerMatcher.findLast? left).map (·.moveRight region.span.start) =
          some opener ∧
        (d.closerMatcher.findFirst? right).map (·.moveRight s.stop) =
          some closer := by
  unfold find
  constructor
  · intro h
    split at h
    next left inner outer right hstart hstop =>
      obtain ⟨hleft, hsize⟩ := cutRegion?_eq_some_iff.1 hstart
      obtain ⟨hright, hsize'⟩ := cutRegion?_eq_some_iff.1 hstop
      obtain ⟨o, ho, h⟩ := Option.bind_eq_some_iff.1 h
      obtain ⟨c, hc, h⟩ := Option.map_eq_some_iff.1 h
      cases h
      exact ⟨left, inner, outer, right, hleft, hsize, hright, hsize', ho, hc⟩
    next => cases h
  · rintro ⟨left, inner, outer, right, hleft, hsize, hright, hsize', ho, hc⟩
    have hstart : cutRegion? region s.start = some (left, inner) :=
      cutRegion?_eq_some_iff.2 ⟨hleft, hsize⟩
    have hstop : cutRegion? region s.stop = some (outer, right) :=
      cutRegion?_eq_some_iff.2 ⟨hright, hsize'⟩
    rw [hstart, hstop]
    simp only [pair?, ho, hc, Option.bind_some, Option.map_some]

end Surroundings

/-- A block that is found in a part of the text is a piece of the text, at
the part's offset. -/
theorem Block.slice?_moveRight {text front part behind : Text} {b : Block}
    (h : text = front ++ part ++ behind) (hb : part.slice? b.span = some b.text) :
    text.slice? (b.moveRight front.size).span = some b.text := by
  obtain ⟨before, after, rfl, hstart, hstop⟩ := slice?_eq_some_iff.1 hb
  subst h
  refine slice?_eq_some_iff.2 ⟨front ++ before, after ++ behind, by simp, ?_, ?_⟩
  · show _ = b.span.start + front.size
    rw [size_append]
    omega
  · show _ = b.span.stop + front.size
    rw [size_append]
    omega

namespace Surroundings

/-- The delimiters of a pair are pieces of the text on both sides of the
selection. -/
theorem find_pair {d : Dialect} {text : Text} {s : Span} {opener closer : Block}
    (h : (find d (text.region s) s).pair? = some (opener, closer)) :
    text.slice? opener.span = some opener.text ∧ text.slice? closer.span =
      some closer.text ∧
      (text.region s).span.start ≤ opener.span.start ∧ opener.span.stop ≤ s.start ∧
      s.stop ≤ closer.span.start := by
  obtain ⟨left, inner, outer, right, hleft, hsize, hright, hsize',
      hopener, hcloser⟩ :=
    pair?_find_eq_some_iff.1 h
  obtain ⟨front, behind, htext, hfront, -⟩ :=
    slice?_eq_some_iff.1 (slice?_region text s)
  obtain ⟨o, ho, rfl⟩ := Option.map_eq_some_iff.1 hopener
  obtain ⟨c, hc, rfl⟩ := Option.map_eq_some_iff.1 hcloser
  have hoslice := Matcher.slice?_of_mem_findAll (List.mem_of_getLast? ho)
  have hcslice := Matcher.slice?_of_mem_findAll (List.mem_of_mem_head? hc)
  have hostop := (hasSpan_iff_isSome.2 (by rw [hoslice]; rfl)).stop.le_size
  rw [← hfront] at hsize hsize' ⊢
  have hbefore : text = front ++ left ++ (inner ++ behind) := by
    rw [htext, hleft]; simp
  have hafter : text = front ++ outer ++ right ++ behind := by
    rw [htext, hright]; simp
  refine ⟨Block.slice?_moveRight hbefore hoslice, ?_, ?_, ?_, ?_⟩
  · rw [← hsize', ← size_append]
    exact Block.slice?_moveRight hafter hcslice
  · exact Nat.le_add_left _ _
  · show o.span.stop + front.size ≤ s.start
    omega
  · exact Nat.le_add_left _ _

end Surroundings

/-! ## The edits for one selection -/

namespace TagEdit

/-- The edits replace spans of the text, the opener's not behind the selection's
start and the closer's not before its end. -/
structure Placed (text : Text) (t : TagEdit) : Prop where
  opener : text.HasSpan t.opener.span
  closer : text.HasSpan t.closer.span
  opener_le : t.opener.span.stop ≤ t.origin.start
  le_closer : t.origin.stop ≤ t.closer.span.start

@[simp] theorem origin_ofSelection (d : Dialect) (text : Text) (s : Span) :
    (ofSelection d text s).origin = s := by
  unfold ofSelection ofAction
  split <;> rfl

@[simp] theorem opener_delimiter_ofSelection (d : Dialect) (text : Text) (s : Span) :
    (ofSelection d text s).opener.delimiter = .opener := by
  unfold ofSelection ofAction
  split <;> rfl

@[simp] theorem closer_delimiter_ofSelection (d : Dialect) (text : Text) (s : Span) :
    (ofSelection d text s).closer.delimiter = .closer := by
  unfold ofSelection ofAction
  split <;> rfl

theorem opener_ne_closer (d : Dialect) (text : Text) (s : Span) :
    (ofSelection d text s).opener ≠ (ofSelection d text s).closer := fun heq => by
  have := congrArg Edit.delimiter heq
  simp at this

/-- The edits for a selection insert at its ends or replace a pair that
is found around it. -/
theorem ofSelection_cases (d : Dialect) (text : Text) (s : Span) :
    ofSelection d text s = inserting d s ∨
      ∃ opener closer, (Surroundings.find d (text.region s) s).pair? =
        some (opener, closer) ∧
        ofSelection d text s = cycling d opener closer s := by
  unfold ofSelection Action.choose
  split
  next opener closer h => exact .inr ⟨opener, closer, h, rfl⟩
  next => exact .inl rfl

theorem placed_ofSelection (d : Dialect) {text : Text} {s : Span}
    (h : text.HasSpan s) :
    (ofSelection d text s).Placed text := by
  rcases ofSelection_cases d text s with heq | ⟨opener, closer, hpair, heq⟩
  · rw [heq]
    exact ⟨⟨Nat.le_refl _, h.start, h.start⟩, ⟨Nat.le_refl _, h.stop, h.stop⟩,
      Nat.le_refl _, Nat.le_refl _⟩
  · obtain ⟨hopener, hcloser, -, hle, hge⟩ := Surroundings.find_pair hpair
    rw [heq]
    exact ⟨hasSpan_iff_isSome.2 (by rw [cycling, hopener]; rfl),
      hasSpan_iff_isSome.2 (by rw [cycling, hcloser]; rfl), hle, hge⟩

end TagEdit

/-! ## The edits of a plan -/

namespace Plan

private theorem eraseDups_sublist {α : Type} [BEq α] :
    ∀ xs : List α, xs.eraseDups.Sublist xs
  | [] => by simp
  | x :: xs => by
    have : (xs.filter fun y => !y == x).length < xs.length + 1 :=
      Nat.lt_succ_of_le (List.length_filter_le _ _)
    rw [List.eraseDups_cons]
    exact .cons_cons x ((eraseDups_sublist _).trans List.filter_sublist)
termination_by xs => xs.length

private theorem nodup_eraseDups {α : Type} [BEq α] [LawfulBEq α] :
    ∀ xs : List α, xs.eraseDups.Nodup
  | [] => by simp
  | x :: xs => by
    have : (xs.filter fun y => !y == x).length < xs.length + 1 :=
      Nat.lt_succ_of_le (List.length_filter_le _ _)
    rw [List.eraseDups_cons, List.nodup_cons]
    exact ⟨by simp, nodup_eraseDups _⟩
termination_by xs => xs.length

theorem eraseDups_eq_self {α : Type} [BEq α] [LawfulBEq α] {xs : List α}
    (h : xs.Nodup) : xs.eraseDups = xs := by
  induction xs with
  | nil => exact List.eraseDups_nil
  | cons x xs ih =>
    obtain ⟨hx, hxs⟩ := List.nodup_cons.1 h
    have hothers : (xs.filter fun y => !y == x) = xs := by
      apply List.filter_eq_self.2
      intro y hy
      have hne : y ≠ x := fun heq => hx (heq ▸ hy)
      simpa using hne
    rw [List.eraseDups_cons, hothers, ih hxs]

theorem precedes_iff {e f : Edit} :
    precedes e f ↔ e.span.start < f.span.start ∨
      (e.span.start = f.span.start ∧ e.span.stop ≤ f.span.stop) := by
  simp only [precedes, Bool.or_eq_true, Bool.and_eq_true, decide_eq_true_eq,
    beq_iff_eq]

theorem startsBefore_total (s t : Span) : startsBefore s t || startsBefore t s := by
  simp only [startsBefore, Bool.or_eq_true, decide_eq_true_eq]
  omega

theorem startsBefore_trans (s t u : Span) :
    startsBefore s t → startsBefore t u → startsBefore s u := by
  simp only [startsBefore, decide_eq_true_eq]
  omega

variable (d : Dialect) (text : Text) (selections : List Span)

theorem mem_editsFor {e : Edit} :
    e ∈ editsFor d text selections ↔
      ∃ s ∈ selections, e = (TagEdit.ofSelection d text s).opener ∨
        e = (TagEdit.ofSelection d text s).closer := by
  unfold editsFor
  simp only [List.mem_eraseDups, (perm_sortBy _ _).mem_iff, List.mem_flatMap,
    List.mem_map, List.mem_cons, List.not_mem_nil, or_false]
  constructor
  · rintro ⟨t, ⟨s, hs, rfl⟩, he⟩
    exact ⟨s, hs, he⟩
  · rintro ⟨s, hs, he⟩
    exact ⟨_, ⟨s, hs, rfl⟩, he⟩

variable {selections} in
theorem opener_mem_editsFor {s : Span} (hs : s ∈ selections) :
    (TagEdit.ofSelection d text s).opener ∈ editsFor d text selections :=
  (mem_editsFor d text selections).2 ⟨s, hs, .inl rfl⟩

variable {selections} in
theorem closer_mem_editsFor {s : Span} (hs : s ∈ selections) :
    (TagEdit.ofSelection d text s).closer ∈ editsFor d text selections :=
  (mem_editsFor d text selections).2 ⟨s, hs, .inr rfl⟩

theorem nodup_editsFor : (editsFor d text selections).Nodup := nodup_eraseDups _

/-- The edits stand in document order. -/
theorem pairwise_editsFor :
    (editsFor d text selections).Pairwise (precedes · ·) := by
  refine (pairwise_sortBy ?_ ?_ _).sublist (eraseDups_sublist _)
  · intro a b
    rw [Bool.or_eq_true, precedes_iff, precedes_iff]
    omega
  · intro a b c
    rw [precedes_iff, precedes_iff, precedes_iff]
    omega

variable {text selections}

theorem hasSpan_of_mem_editsFor (hspan : ∀ s ∈ selections, text.HasSpan s) {e : Edit}
    (he : e ∈ editsFor d text selections) : text.HasSpan e.span := by
  obtain ⟨s, hs, rfl | rfl⟩ := (mem_editsFor d text selections).1 he
  · exact (TagEdit.placed_ofSelection d (hspan s hs)).opener
  · exact (TagEdit.placed_ofSelection d (hspan s hs)).closer

/-- The edits for one selection are those of its tag. -/
theorem editsFor_singleton {s : Span} (hspan : text.HasSpan s) :
    editsFor d text [s] = [(TagEdit.ofSelection d text s).opener,
      (TagEdit.ofSelection d text s).closer] := by
  have hplaced := TagEdit.placed_ofSelection d hspan
  have hopener := hplaced.opener.ordered
  have hcloser := hplaced.closer.ordered
  have hle := hplaced.opener_le
  have hge := hplaced.le_closer
  have hordered := hspan.ordered
  rw [TagEdit.origin_ofSelection] at hle hge
  have hprecedes : precedes (TagEdit.ofSelection d text s).opener
      (TagEdit.ofSelection d text s).closer = true := by
    rw [precedes_iff]
    omega
  have hne := (TagEdit.opener_ne_closer d text s).symm
  unfold editsFor
  simp [sortBy, insertBy, hprecedes, List.eraseDups_cons, hne]

/-- A plan for one selection has both edits of its tag, and the selection as the
tag's edit moves it. -/
theorem make_singleton {s : Span} (hspan : text.HasSpan s) :
    make d text [s] = ⟨[(TagEdit.ofSelection d text s).opener,
      (TagEdit.ofSelection d text s).closer],
      [(TagEdit.ofSelection d text s).selection]⟩ := by
  have hordered : (TagEdit.ofSelection d text s).origin.start ≤
      (TagEdit.ofSelection d text s).origin.stop := by
    rw [TagEdit.origin_ofSelection]
    exact hspan.ordered
  have hmoved := moveSelection_pair (TagEdit.opener_ne_closer d text s)
    (TagEdit.placed_ofSelection d hspan).opener_le
    hordered
  rw [← hmoved, ← editsFor_singleton d hspan]
  rfl

/-- The two edits for one selection stand on both sides of it. -/
theorem overlap?_editsFor_singleton {s : Span} (hspan : text.HasSpan s) :
    Edit.overlap? (editsFor d text [s]) = none := by
  have hplaced := TagEdit.placed_ofSelection d hspan
  have hopener := hplaced.opener_le
  have hcloser := hplaced.le_closer
  have hordered := hspan.ordered
  rw [TagEdit.origin_ofSelection] at hopener hcloser
  rw [editsFor_singleton d hspan, Edit.overlap?, if_neg (by omega)]
  rfl

/-- Unless neighbours overlap, the edits planned for spans of a text rewrite it. -/
theorem exists_rewrites_editsFor (hspan : ∀ s ∈ selections, text.HasSpan s)
    (h : Edit.overlap? (editsFor d text selections) = none) :
    ∃ result, Edit.Rewrites 0 text (editsFor d text selections) result := by
  have hspans : ∀ e ∈ editsFor d text selections, text.HasSpan e.span :=
    fun e he => hasSpan_of_mem_editsFor d hspan he
  have hasc : Edit.Ascending 0 (editsFor d text selections) :=
    Edit.ascending_of_overlap?_eq_none h (fun e he => (hspans e he).ordered)
      fun e _ => Nat.zero_le _
  exact Edit.exists_rewrites [] hasc hspans

/-- Applying a plan without an error is rewriting the text by its edits. -/
theorem rewrites_of_applyAll {result : Text}
    (hspan : ∀ s ∈ selections, text.HasSpan s)
    (h : Edit.applyAll (editsFor d text selections) text = (result, none)) :
    Edit.Rewrites 0 text (editsFor d text selections) result := by
  unfold Edit.applyAll at h
  split at h
  next => cases h
  next hoverlap =>
    obtain ⟨rewritten, hrewritten⟩ := exists_rewrites_editsFor d hspan hoverlap
    have happly := hrewritten.applyBackward size_nil
    simp only [List.nil_append] at happly
    rw [h] at happly
    cases happly
    exact hrewritten

end Plan

end TemplateTags
