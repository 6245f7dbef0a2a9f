import TemplateTags.Proofs.Cycle.Planned
import TemplateTags.Proofs.Dialect.Reading
import TemplateTags.Proofs.Session.Atomic
/-!
# A tag in its context

A `TagContext` is what stands around a tag and inside of it, and
`TagContext.write` puts a variant's delimiters there. Every buffer with one
selection around which a pair is found is written like this
(`TagContext.exists_write`). Cycling such a buffer writes the next variant in the
same context (`TagContext.Reads.cycle`), as long as the written variant is the one
that is found (`TagContext.Reads`). Whether it is depends on the text between the
delimiters and the selection and on the lines around (`TagContext.reads_iff`).
-/

namespace TemplateTags

open Text

/-! ## Finding a pair in a divided text -/

/-- A pair is looked for in the last line before the selection and in the
first line behind it. -/
theorem Surroundings.pair?_find_append_iff {d : Dialect}
    (before piece behind : Text) {opener closer : Block}
    (hnil : d.closerMatcher.findFirst? [] = none) :
    (find d ((before ++ piece ++ behind).region
      ⟨before.size, before.size + piece.size⟩)
        ⟨before.size, before.size + piece.size⟩).pair? = some (opener, closer) ↔
      (d.openerMatcher.findLast? (lastLine before)).map
          (·.moveRight (before.size - (lastLine before).size)) = some opener ∧
        (d.closerMatcher.findFirst? (dropReturn (firstLine behind))).map
          (·.moveRight (before.size + piece.size)) = some closer := by
  by_cases hbehind : firstLine behind = []
  · -- Nothing of the line is left behind the selection, so no closer is found there.
    rw [hbehind, show dropReturn [] = [] from rfl, hnil]
    simp only [Option.map_none, reduceCtorEq, and_false, iff_false]
    rw [pair?_find_eq_some_iff]
    rintro ⟨left, inner, outer, right, -, -, hright, hsize, -, hcloser⟩
    have hle := region_stop_le before piece hbehind
    obtain ⟨_, _, -, hstart, hstop⟩ := slice?_eq_some_iff.1
      (slice?_region (before ++ piece ++ behind)
        ⟨before.size, before.size + piece.size⟩)
    rw [hright, size_append] at hstop
    simp only at hsize hstop
    have hempty : right = [] := size_eq_zero_iff.1 (by omega)
    rw [hempty, hnil] at hcloser
    cases hcloser
  · have hle := size_lastLine_le before
    rw [pair?_find_eq_some_iff, region_append hbehind]
    constructor
    · rintro ⟨left, inner, outer, right, hleft, hsize, hright, hsize',
        hopener, hcloser⟩
      simp only at hleft hsize hright hsize' hopener hcloser
      rw [List.append_assoc] at hleft
      obtain ⟨rfl, -⟩ := append_inj_of_size hleft (by omega)
      obtain ⟨-, rfl⟩ := append_inj_of_size hright (by rw [size_append]; omega)
      exact ⟨hopener, hcloser⟩
    · rintro ⟨hopener, hcloser⟩
      exact ⟨lastLine before, piece ++ dropReturn (firstLine behind),
        lastLine before ++ piece,
        dropReturn (firstLine behind), by simp, by simp only; omega, rfl, by
          simp only [size_append]; omega,
        hopener, hcloser⟩

/-! ## Writing a variant -/

/-- A text with a tag in it, without the tag's delimiters: what stands before the
opener, between opener and selection, in the selection, between selection and
closer, and behind the closer. -/
structure TagContext where
  before : Text
  left : Text
  selected : Text
  right : Text
  behind : Text
deriving DecidableEq, Repr

namespace TagContext

/-- The selection in the text with a variant's delimiters. -/
def selection (t : TagContext) (v : Variant) : Span :=
  ⟨(t.before ++ v.opener ++ t.left).size,
    (t.before ++ v.opener ++ t.left).size + t.selected.size⟩

/-- The text with a variant's delimiters. -/
def text (t : TagContext) (v : Variant) : Text :=
  t.before ++ v.opener ++ t.left ++ t.selected ++ (t.right ++ v.closer ++ t.behind)

/-- The buffer with a variant's delimiters. -/
def write (t : TagContext) (v : Variant) : Buffer := ⟨t.text v, [t.selection v]⟩

/-- The opener where it is written. -/
def openerBlock (t : TagContext) (v : Variant) : Block :=
  ⟨⟨t.before.size, t.before.size + v.opener.size⟩, v.opener⟩

/-- The closer where it is written. -/
def closerBlock (t : TagContext) (v : Variant) : Block :=
  let start := (t.before ++ v.opener ++ t.left ++ t.selected ++ t.right).size
  ⟨⟨start, start + v.closer.size⟩, v.closer⟩

/-- The written delimiters are those that are found around the selection. -/
def Reads (d : Dialect) (t : TagContext) (v : Variant) : Prop :=
  (Surroundings.find d ((t.text v).region (t.selection v)) (t.selection v)).pair? =
    some (t.openerBlock v, t.closerBlock v)

theorem hasSpan_selection (t : TagContext) (v : Variant) :
    (t.text v).HasSpan (t.selection v) :=
  hasSpan_of_append rfl rfl

/-- Every text with a selection and a pair around it is a context with the
delimiters written in it. -/
theorem exists_write {d : Dialect} {text : Text} {s : Span}
    {opener closer : Block} (hs : text.HasSpan s)
    (hpair : (Surroundings.find d (text.region s) s).pair? = some (opener, closer)) :
    ∃ t : TagContext, t.write ⟨opener.text, closer.text⟩ = ⟨text, [s]⟩ ∧
      t.openerBlock ⟨opener.text, closer.text⟩ = opener ∧
      t.closerBlock ⟨opener.text, closer.text⟩ = closer := by
  obtain ⟨hopener, hcloser, -, hle, hge⟩ := Surroundings.find_pair hpair
  obtain ⟨piece, hpiece⟩ := Option.isSome_iff_exists.1 (hasSpan_iff_isSome.1 hs)
  obtain ⟨front, behind, htext, hstart, hstop⟩ := slice?_eq_some_iff.1 hpiece
  obtain ⟨before, rest, htext', hostart, hostop⟩ := slice?_eq_some_iff.1 hopener
  obtain ⟨outer, after, htext'', hcstart, hcstop⟩ := slice?_eq_some_iff.1 hcloser
  -- The opener stands in front of the selection, and the closer behind it.
  have hfront : before ++ opener.text ++ rest = front ++ (piece ++ behind) := by
    rw [← htext', htext, List.append_assoc]
  obtain ⟨left, rfl, -⟩ :=
    exists_append_of_size_le hfront (by rw [size_append]; omega)
  have hbehind : before ++ opener.text ++ left ++ piece ++ behind =
      outer ++ (closer.text ++ after) := by
    rw [← htext, htext'', List.append_assoc]
  obtain ⟨right, rfl, rfl⟩ :=
    exists_append_of_size_le hbehind (by rw [size_append]; omega)
  refine ⟨⟨before, left, piece, right, after⟩, ?_, ?_, ?_⟩
  · obtain ⟨start, stop⟩ := s
    simp only at hstart hstop
    simp [write, TagContext.text, selection, htext, ← hstart, ← hstop]
  · obtain ⟨⟨start, stop⟩, written⟩ := opener
    simp_all [openerBlock]
  · obtain ⟨⟨start, stop⟩, written⟩ := closer
    simp_all [closerBlock]

section Reading

variable {d : Dialect} {t : TagContext} {v : Variant}

/-- The opener that is found stands in the line of the selection. -/
theorem newline_notMem_left {o : Block}
    (hfound : d.openerMatcher.findLast?
      (lastLine (t.before ++ v.opener ++ t.left)) = some o)
    (ho : o.moveRight ((t.before ++ v.opener ++ t.left).size
      - (lastLine (t.before ++ v.opener ++ t.left)).size) = t.openerBlock v) :
    '\n' ∉ t.left := by
  obtain ⟨x, y, hline, -, hstop⟩ :=
    slice?_eq_some_iff.1 (Matcher.slice?_of_mem_findAll
      (List.mem_of_getLast? hfound))
  obtain ⟨front, hfront⟩ := exists_append_lastLine (t.before ++ v.opener ++ t.left)
  have hspan := congrArg (fun b => b.span.stop) ho
  simp only [Block.moveRight, Span.moveRight, openerBlock] at hspan
  have hsize := congrArg size hfront
  have happ : t.before ++ v.opener ++ t.left = (front ++ x ++ o.text) ++ y := by
    rw [hfront, hline]
    simp
  obtain ⟨-, rfl⟩ :=
    append_inj_of_size happ (by simp only [size_append] at hsize hspan ⊢; omega)
  intro hmem
  exact newline_notMem_lastLine _ (hline ▸ List.mem_append_right _ hmem)

/-- The closer that is found stands in the line of the selection. -/
theorem newline_notMem_right {c : Block}
    (hfound : d.closerMatcher.findFirst?
      (dropReturn (firstLine (t.right ++ v.closer ++ t.behind))) = some c)
    (hc : c.moveRight ((t.before ++ v.opener ++ t.left).size + t.selected.size) =
      t.closerBlock v) :
    '\n' ∉ t.right := by
  obtain ⟨x, y, hline, hstart, -⟩ :=
    slice?_eq_some_iff.1 (Matcher.slice?_of_mem_findAll
      (List.mem_of_mem_head? hfound))
  obtain ⟨rest, hrest⟩ := exists_append_firstLine (t.right ++ v.closer ++ t.behind)
  obtain ⟨dropped, hdropped⟩ :=
    exists_append_dropReturn (firstLine (t.right ++ v.closer ++ t.behind))
  have hspan := congrArg (fun b => b.span.start) hc
  simp only [Block.moveRight, Span.moveRight, closerBlock, size_append] at hspan
  have hx : x <+: firstLine (t.right ++ v.closer ++ t.behind) := by
    rw [hdropped, hline]
    exact ⟨c.text ++ y ++ dropped, by simp⟩
  obtain ⟨later, hlater⟩ := hx
  have happ : t.right ++ (v.closer ++ t.behind) = x ++ (later ++ rest) := by
    rw [← List.append_assoc, ← List.append_assoc, hlater, ← hrest]
  obtain ⟨rfl, -⟩ := append_inj_of_size happ (by omega)
  intro hmem
  exact newline_notMem_firstLine _ (hlater ▸ List.mem_append_left _ hmem)

/-- With the opener in the line of the selection, that line goes on in
front of the opener. -/
theorem lastLine_opener (hd : d.Compiled) (hv : d.Written v) (h : '\n' ∉ t.left) :
    lastLine (t.before ++ v.opener ++ t.left) = lastLine t.before
      ++ v.opener ++ t.left := by
  rw [lastLine_append h, lastLine_append (hd.newline_notMem hv)]

/-- With the closer in the line of the selection, that line goes on
behind the closer. -/
theorem firstLine_closer (hd : d.Compiled) (hv : d.Written v) (h : '\n' ∉ t.right) :
    dropReturn (firstLine (t.right ++ v.closer ++ t.behind)) =
      t.right ++ v.closer ++ dropReturn (firstLine t.behind) := by
  have hcloser : '\n' ∉ v.closer := fun hmem => (hd.ne_of_mem_closer hv hmem).1 rfl
  rw [firstLine_append (by simp [h, hcloser]),
    dropReturn_append_of_getLast? (hd.getLast?_append_closer_ne hv _)]

/-- The written delimiters are found if they stand in the lines of the selection
and are read back there. -/
theorem reads_iff (hd : d.Compiled) (hv : d.Written v) : t.Reads d v ↔
    '\n' ∉ t.left ∧ '\n' ∉ t.right ∧
      Dialect.ReadsOpener d (lastLine t.before) v.opener t.left ∧
      Dialect.ReadsCloser d t.right v.closer (dropReturn (firstLine t.behind)) := by
  have hsplit : t.Reads d v ↔ _ :=
    Surroundings.pair?_find_append_iff (t.before ++ v.opener ++ t.left) t.selected
      (t.right ++ v.closer ++ t.behind)
      hd.findFirst?_nil
  have hle := size_lastLine_le t.before
  rw [hsplit]
  constructor
  · rintro ⟨ho, hc⟩
    obtain ⟨o, hfound, ho⟩ := Option.map_eq_some_iff.1 ho
    obtain ⟨c, hfound', hc⟩ := Option.map_eq_some_iff.1 hc
    have hnoleft : '\n' ∉ t.left := newline_notMem_left hfound ho
    have hnoright : '\n' ∉ t.right := newline_notMem_right hfound' hc
    rw [lastLine_opener hd hv hnoleft] at hfound ho
    rw [firstLine_closer hd hv hnoright] at hfound'
    refine ⟨hnoleft, hnoright, hd.findLast?_eq_some_iff.1 ?_,
      hd.findFirst?_eq_some_iff.1 ?_⟩
    · obtain ⟨⟨start, stop⟩, written⟩ := o
      simp only [openerBlock, Block.moveRight, Span.moveRight, size_append,
        Block.mk.injEq, Span.mk.injEq] at ho
      rw [hfound, ho.2]
      simp only [Option.some.injEq, Block.mk.injEq, Span.mk.injEq, and_true]
      omega
    · obtain ⟨⟨start, stop⟩, written⟩ := c
      simp only [closerBlock, Block.moveRight, Span.moveRight, size_append,
        Block.mk.injEq, Span.mk.injEq] at hc
      rw [hfound', hc.2]
      simp only [Option.some.injEq, Block.mk.injEq, Span.mk.injEq, and_true]
      omega
  · rintro ⟨hnoleft, hnoright, ho, hc⟩
    rw [lastLine_opener hd hv hnoleft, firstLine_closer hd hv hnoright,
      hd.findLast?_eq_some_iff.2 ho, hd.findFirst?_eq_some_iff.2 hc]
    simp only [Option.map_some, Option.some.injEq, openerBlock, closerBlock,
      Block.moveRight, Span.moveRight, size_append, Block.mk.injEq, Span.mk.injEq,
      and_true]
    omega

end Reading

/-- The context of a pair and a selection in a text. -/
def around (text : Text) (s : Span) (opener closer : Block) : TagContext :=
  ⟨text.slice ⟨0, opener.span.start⟩, text.slice ⟨opener.span.stop, s.start⟩,
    text.slice s,
    text.slice ⟨s.stop, closer.span.start⟩, text.slice ⟨closer.span.stop, text.size⟩⟩

theorem around_write (t : TagContext) (v : Variant) :
    around (t.text v) (t.selection v) (t.openerBlock v) (t.closerBlock v) = t := by
  have hslice (before behind : Text) {piece : Text} {span : Span}
      (htext : t.text v = before ++ piece ++ behind)
      (hstart : before.size = span.start)
        (hstop : before.size + piece.size = span.stop) :
      (t.text v).slice span = piece := by
    rw [slice, slice?_eq_some_iff.2 ⟨before, behind, htext, hstart, hstop⟩]
    rfl
  have hbefore : (t.text v).slice ⟨0, t.before.size⟩ = t.before :=
    hslice [] _ (by simp only [TagContext.text, List.append_assoc,
      List.nil_append]; rfl) rfl
      (Nat.zero_add _)
  have hleft : (t.text v).slice ⟨(t.openerBlock v).span.stop,
      (t.selection v).start⟩ = t.left :=
    hslice (t.before ++ v.opener) (t.selected ++ (t.right ++ v.closer ++ t.behind))
      (by simp [TagContext.text]) (size_append _ _) (size_append _ _).symm
  have hselected : (t.text v).slice (t.selection v) = t.selected :=
    hslice _ _ rfl rfl rfl
  have hright : (t.text v).slice ⟨(t.selection v).stop,
      (t.closerBlock v).span.start⟩ = t.right :=
    hslice (t.before ++ v.opener ++ t.left ++ t.selected) (v.closer ++ t.behind)
      (by simp [TagContext.text]) (size_append _ _) (size_append _ _).symm
  have hbehind :
      (t.text v).slice ⟨(t.closerBlock v).span.stop, (t.text v).size⟩ = t.behind :=
    hslice (t.before ++ v.opener ++ t.left ++ t.selected ++ t.right ++ v.closer) []
      (by simp [TagContext.text]) (size_append _ _)
      (by simp only [TagContext.text, size_append]; omega)
  rw [around, hleft, hselected, hright, hbehind]
  exact congrArg (TagContext.mk · t.left t.selected t.right t.behind) hbefore

/-- A text with a pair around a selection is the pair's delimiters
written around it. -/
theorem write_around {d : Dialect} {text : Text} {s : Span}
    {opener closer : Block} (hs : text.HasSpan s)
    (hpair : (Surroundings.find d (text.region s) s).pair? = some (opener, closer)) :
    (around text s opener closer).write ⟨opener.text, closer.text⟩ = ⟨text, [s]⟩ ∧
      (around text s opener closer).Reads d ⟨opener.text, closer.text⟩ := by
  obtain ⟨t, hwrite, hopener, hcloser⟩ := exists_write hs hpair
  have htext : t.text ⟨opener.text, closer.text⟩ = text :=
    congrArg Buffer.text hwrite
  have hspan : t.selection ⟨opener.text, closer.text⟩ = s :=
    List.head_eq_of_cons_eq (congrArg Buffer.selections hwrite)
  have haround : around text s opener closer = t := by
    rw [← t.around_write ⟨opener.text, closer.text⟩, hopener, hcloser, htext, hspan]
  rw [haround, Reads, htext, hspan, hopener, hcloser]
  exact ⟨hwrite, hpair⟩

/-! ## Cycling what is written -/

/-- The edits that write another variant over one that is there. -/
def replacing (t : TagContext) (v w : Variant) : TagEdit :=
  ⟨⟨(t.openerBlock v).span, w.opener, .opener⟩,
    ⟨(t.closerBlock v).span, w.closer, .closer⟩, t.selection v⟩

theorem selection_replacing (t : TagContext) (v w : Variant) :
    (t.replacing v w).selection = t.selection w := by
  simp only [replacing, TagEdit.selection, Span.shift, Span.shiftOffset,
    Edit.delta, Span.length, selection, openerBlock, size_append, Span.mk.injEq]
  omega

theorem rewrites_replacing (t : TagContext) (v w : Variant) :
    Edit.Rewrites 0 (t.text v) [(t.replacing v w).opener, (t.replacing v w).closer]
      (t.text w) := by
  have hcloser : Edit.Rewrites (t.before.size + v.opener.size)
      (t.left ++ t.selected ++ t.right ++ v.closer ++ t.behind)
        [(t.replacing v w).closer]
      (t.left ++ t.selected ++ t.right ++ w.closer ++ t.behind) :=
    .edit (by simp only [replacing, closerBlock, size_append]; omega) rfl (.done _ _)
  have hopener : Edit.Rewrites 0
      (t.before ++ v.opener ++
        (t.left ++ t.selected ++ t.right ++ v.closer ++ t.behind))
      [(t.replacing v w).opener, (t.replacing v w).closer]
      (t.before ++ w.opener ++ (t.left ++ t.selected ++ t.right ++ w.closer
        ++ t.behind)) :=
    .edit (Nat.zero_add _) rfl hcloser
  simpa [TagContext.text] using hopener

/-- For a tag that is found the variant after it is written over the
one that is there. -/
theorem Reads.ofSelection_eq {d : Dialect} {t : TagContext} {v : Variant}
    (h : t.Reads d v) :
    TagEdit.ofSelection d (t.text v) (t.selection v) =
      t.replacing v (d.next v.opener v.closer) := by
  unfold TagEdit.ofSelection Action.choose
  rw [h]
  rfl

/-- Cycling the tag that was written writes the variant after it in the same
context. -/
theorem Reads.cycle {s : Session} {t : TagContext} {v : Variant}
    (h : t.Reads s.active v) :
    s.cycle (t.write v) = (t.write (s.active.next v.opener v.closer), none) := by
  obtain ⟨next, hnext⟩ : ∃ next, next = s.active.next v.opener v.closer := ⟨_, rfl⟩
  have hplan : s.plan (t.write v).text (t.write v).selections =
      ⟨[(t.replacing v next).opener, (t.replacing v next).closer],
        [t.selection next]⟩ := by
    refine (Plan.make_singleton s.active (t.hasSpan_selection v)).trans ?_
    rw [h.ofSelection_eq, ← hnext, selection_replacing]
  have hrewrites : Edit.Rewrites 0 (t.write v).text
      (s.plan (t.write v).text (t.write v).selections).edits
      (t.text next) := by
    rw [hplan]
    exact t.rewrites_replacing v next
  rw [Session.cycle_of_rewrites hrewrites, hplan, ← hnext]
  rfl

end TagContext

end TemplateTags
