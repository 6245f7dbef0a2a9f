import TemplateTags.Proofs.Cycle.Stretch
/-!
# Laying out a text

Selections have no line in common if no line is touched by two of them
(`Text.Apart`). In the order of their starts each of them then begins behind the
line in which the one before ends (`Text.Apart.stop_lt`). The lines that a
selection touches are a block, and a selection on a later line begins behind the
block (`Text.exists_block`), so the text can be cut into blocks of whole lines
with one selection in each (`Stretch.exists_laid`).
-/

namespace TemplateTags

open Text

namespace Text

/-- The line is that of some offset of the span. -/
def Touches (text : Text) (s : Span) (line : Region) : Prop :=
  ∃ offset, s.start ≤ offset ∧ offset ≤ s.stop ∧ text.line offset = line

/-- The lines that a span touches. -/
def touched (text : Text) (s : Span) : List Region :=
  (List.range' s.start (s.stop + 1 - s.start)).map text.line

theorem mem_touched_iff {text : Text} {s : Span} {line : Region} :
    line ∈ text.touched s ↔ text.Touches s line := by
  unfold touched Touches
  simp only [List.mem_map, List.mem_range'_1]
  constructor
  · intro ⟨offset, hoffset, hline⟩
    exact ⟨offset, hoffset.1, by omega, hline⟩
  · intro ⟨offset, hstart, hstop, hline⟩
    exact ⟨offset, ⟨hstart, by omega⟩, hline⟩

/-- No line is touched by both spans. -/
def Apart (text : Text) (s t : Span) : Prop :=
  ∀ line, ¬ (text.Touches s line ∧ text.Touches t line)

instance (text : Text) (s t : Span) : Decidable (text.Apart s t) :=
  decidable_of_iff (∀ line ∈ text.touched s, line ∉ text.touched t) <| by
    simp only [Apart, mem_touched_iff, not_and]

theorem Apart.symm {text : Text} {s t : Span} (h : text.Apart s t) :
    text.Apart t s :=
  fun line hline => h line hline.symm

/-- A span that does not begin before another one without a common line begins
behind it, and on another line than the one where that ends. -/
theorem Apart.stop_lt {text : Text} {s t : Span} (h : text.Apart s t)
    (hs : s.start ≤ s.stop) (ht : t.start ≤ t.stop) (hle : s.start ≤ t.start) :
    s.stop < t.start ∧ text.line s.stop ≠ text.line t.start := by
  have hstart : text.Touches t (text.line t.start) :=
    ⟨t.start, Nat.le_refl _, ht, rfl⟩
  constructor
  · apply Nat.lt_of_not_le
    intro hinside
    exact h _ ⟨⟨t.start, hle, hinside, rfl⟩, hstart⟩
  · intro hline
    exact h _ ⟨⟨s.stop, hs, Nat.le_refl _, hline⟩, hstart⟩

/-- Two cuts with no end of a line between them are in one line. -/
theorem line_eq_of_append {before between behind : Text} (h : '\n' ∉ between) :
    (before ++ between ++ behind).line (before ++ between).size =
      (before ++ between ++ behind).line before.size := by
  have hle := size_lastLine_le before
  rw [line_append, lastLine_append h]
  rw [List.append_assoc before, line_append, firstLine_append h,
    ← List.append_assoc (lastLine before)]
  simp only [size_append, Region.mk.injEq, Span.mk.injEq, and_true]
  omega

/-- Behind the end of a line the next line begins. -/
theorem lt_line_start {before foot later : Text} (hfoot : '\n' ∉ foot)
    (hlater : firstLine later = []) {offset : Nat}
    (hcut : (before ++ foot ++ later).IsCut offset) (hlt : before.size < offset)
    (hline : (before ++ foot ++ later).line before.size ≠
      (before ++ foot ++ later).line offset) :
    (before ++ foot).size < ((before ++ foot ++ later).line offset).span.start := by
  obtain ⟨front, rest, happ, rfl⟩ := hcut
  by_cases hle : front.size ≤ (before ++ foot).size
  · -- No line ends before the offset.
    obtain ⟨foot', hfoot', hrest⟩ := exists_append_of_size_le happ.symm hle
    obtain ⟨between, rfl, rfl⟩ := exists_append_of_size_le hfoot' (Nat.le_of_lt hlt)
    have hnone : '\n' ∉ between := fun h => hfoot (List.mem_append_left _ h)
    have hsplit : before ++ (between ++ foot') ++ later = before ++ between
        ++ (foot' ++ later) := by simp
    rw [hsplit] at hline
    exact absurd (line_eq_of_append hnone).symm hline
  · obtain ⟨behind, rfl, rfl⟩ := exists_append_of_size_le happ (by omega)
    cases behind with
    | nil => simp at hle
    | cons c behind =>
      have hc : c = '\n' := by simpa [firstLine_eq_nil_iff] using hlater
      subst hc
      have hend : lastLine (before ++ foot ++ ['\n']) = [] := by
        simp [lastLine_eq_nil_iff]
      have hlast :
          lastLine (before ++ foot ++ '\n' :: behind) = lastLine behind := by
        rw [List.append_cons, lastLine_append_left hend]
      have hsize := size_lastLine_le behind
      have hnewline : Char.utf8Size '\n' = 1 := rfl
      rw [happ, line_append, hlast]
      simp only [size_append, size_cons, hnewline]
      omega

/-- What stands in front of the last line ends with the end of a line. -/
theorem lastLine_front {front before : Text}
    (h : before = front ++ lastLine before) : lastLine front = [] := by
  have hlast := congrArg lastLine h
  rw [lastLine_append (newline_notMem_lastLine before)] at hlast
  exact List.self_eq_append_left.1 hlast

theorem firstLine_rest {text rest : Text} (h : text = firstLine text ++ rest) :
    firstLine rest = [] := by
  have hfirst := congrArg firstLine h
  rw [firstLine_append (newline_notMem_firstLine text)] at hfirst
  exact List.self_eq_append_right.1 hfirst

theorem lastLine_right {front behind : Text}
    (h : lastLine (front ++ behind) = []) : lastLine behind = [] := by
  rw [lastLine_eq_nil_iff] at h ⊢
  cases hlast : behind.getLast? with
  | none => exact .inl (List.getLast?_eq_none_iff.1 hlast)
  | some c =>
    right
    rw [List.getLast?_append, hlast, Option.some_or] at h
    apply h.resolve_left
    intro hnil
    rw [(List.append_eq_nil_iff.1 hnil).2] at hlast
    cases hlast

/-- The lines that a span touches are a block, and what begins on a later line
begins behind the block. -/
theorem exists_block {text : Text} {s : Span} (hs : text.HasSpan s) :
    ∃ head lines later own, text = head ++ lines ++ later ∧ lastLine head = [] ∧
      firstLine later = [] ∧
      lines.HasSpan own ∧ own.moveRight head.size = s ∧
        (text.line s.start).span.start = head.size ∧
      ∀ offset, text.IsCut offset → s.stop < offset →
        text.line s.stop ≠ text.line offset →
        (head ++ lines).size < (text.line offset).span.start := by
  obtain ⟨before, piece, after, rfl, hstart, hstop⟩ := hs.exists_append
  obtain ⟨start, stop⟩ := s
  simp only at hstart hstop
  subst hstart hstop
  -- The block runs from the beginning of the first line to the end of the last one.
  obtain ⟨head, hhead⟩ := exists_append_lastLine before
  obtain ⟨later, hlater⟩ := exists_append_firstLine after
  have hheadLine := lastLine_front hhead
  have hlaterLine := firstLine_rest hlater
  have hright := newline_notMem_firstLine after
  have hlinestart :
      ((before ++ piece ++ after).line before.size).span.start = head.size := by
    have hsize := congrArg size hhead
    rw [size_append] at hsize
    rw [List.append_assoc, line_append]
    simp only
    omega
  generalize lastLine before = left at hhead
  generalize firstLine after = right at hlater hright
  subst hhead hlater
  refine ⟨head, left ++ piece ++ right, later,
    ⟨left.size, left.size + piece.size⟩, by simp, hheadLine, hlaterLine,
    hasSpan_of_append rfl rfl, ?_, hlinestart, ?_⟩
  · simp only [Span.moveRight, size_append, Span.mk.injEq]
    omega
  · have hsplit : head ++ left ++ piece ++ (right ++ later) =
        head ++ left ++ piece ++ right ++ later := by simp
    have hlines :
        head ++ (left ++ piece ++ right) = head ++ left ++ piece ++ right := by simp
    rw [hsplit, hlines, ← size_append]
    intro offset hcut hlt hline
    exact lt_line_start hright hlaterLine hcut hlt hline

end Text

namespace Stretch

variable {text : Text}

/-- The rest of a text can be laid out for selections that begin in later lines. -/
theorem exists_laid_behind {ys : List (Span × Nat)} (done : Text) {rest : Text}
    (htext : text = done ++ rest) (hspan : ∀ y ∈ ys, text.HasSpan y.1)
    (hdone : ∀ y ∈ ys, done.size ≤ (text.line y.1.start).span.start)
    (hapart : ys.Pairwise fun y z => y.1.stop < z.1.start ∧ text.line y.1.stop ≠
      text.line z.1.start) :
    ∃ xs tail, Laid tail xs ∧ rest = written xs ++ tail ∧
      spread placed done.size xs = ys ∧
      (firstLine rest = [] → (∀ y ∈ ys,
        done.size < (text.line y.1.start).span.start) → Breaks tail xs) := by
  induction ys generalizing done rest with
  | nil => exact ⟨[], rest, trivial, rfl, rfl, fun h _ => h⟩
  | cons y ys ih =>
    obtain ⟨hy, hys⟩ := List.forall_mem_cons.1 hspan
    obtain ⟨hydone, -⟩ := List.forall_mem_cons.1 hdone
    obtain ⟨hypair, hpair⟩ := List.pairwise_cons.1 hapart
    obtain ⟨s, index⟩ := y
    obtain ⟨head, lines, later, own, hblock, hhead, hlater, hown, hplace, hstart,
        hbelow⟩ := exists_block hy
    rw [hstart] at hydone
    have hbehind :
        ∀ z ∈ ys, (head ++ lines).size < (text.line z.1.start).span.start := by
      intro z hz
      obtain ⟨hlt, hline⟩ := hypair z hz
      exact hbelow z.1.start (hys z hz).start hlt hline
    obtain ⟨xs, tail, hlaid, hwritten, hplaced, hbreaks⟩ :=
      ih (head ++ lines) hblock hys
      (fun z hz => Nat.le_of_lt (hbehind z hz)) hpair
    -- Between what is done and the block there is the text in front of the block.
    have hsplit := hblock.symm.trans htext
    rw [List.append_assoc] at hsplit
    obtain ⟨front, rfl, hrest⟩ := exists_append_of_size_le hsplit.symm hydone
    rw [size_append] at hplace
    refine ⟨⟨front, lines, own, index⟩ :: xs, tail,
      ⟨lastLine_right hhead, hown, hbreaks hlater hbehind, hlaid⟩, ?_, ?_, ?_⟩
    · rw [hrest, hwritten, written_cons]
      simp [Stretch.text]
    · rw [List.append_assoc, size_append] at hplaced
      show (own.moveRight (done.size + front.size), index) :: spread placed
          (done.size + (front ++ lines).size) xs = _
      rw [hplaced, hplace]
    · intro hfirst hlt
      have hstrict := (List.forall_mem_cons.1 hlt).1
      rw [hstart] at hstrict
      have hne : front ≠ [] := by
        rintro rfl
        rw [List.append_nil] at hstrict
        exact absurd hstrict (Nat.lt_irrefl _)
      obtain ⟨c, front', rfl⟩ := List.exists_cons_of_ne_nil hne
      rw [hrest, firstLine_eq_nil_iff] at hfirst
      simpa [Breaks] using hfirst

/-- A text can be laid out for selections that have no line in common. -/
theorem exists_laid {selections : List Span}
    (hspan : ∀ s ∈ selections, text.HasSpan s)
    (hapart : selections.Pairwise text.Apart) :
    ∃ xs tail, Laid tail xs ∧ text = written xs ++ tail ∧
      (spread placed 0 xs).Perm selections.zipIdx := by
  obtain ⟨ys, hys⟩ : ∃ ys, ys =
      sortBy (fun y z => Plan.startsBefore y.1 z.1) selections.zipIdx := ⟨_, rfl⟩
  have hperm : ys.Perm selections.zipIdx := hys ▸ perm_sortBy _ _
  have hsorted : ys.Pairwise fun y z => y.1.start ≤ z.1.start := by
    subst hys
    refine (pairwise_sortBy ?_ ?_ _).imp of_decide_eq_true
    · intro y z
      simp only [Bool.or_eq_true, decide_eq_true_eq]
      omega
    · intro y z w
      simp only [decide_eq_true_eq]
      omega
  have hspans : ∀ y ∈ ys, text.HasSpan y.1 :=
    fun y hy => hspan y.1 (List.fst_mem_of_mem_zipIdx (hperm.mem_iff.1 hy))
  have hlines : ys.Pairwise fun y z => text.Apart y.1 z.1 := by
    refine (hperm.pairwise_iff Apart.symm).2 ?_
    rw [← List.zipIdx_map_fst 0 selections, List.pairwise_map] at hapart
    exact hapart
  have hpair : ys.Pairwise fun y z =>
      y.1.stop < z.1.start ∧ text.line y.1.stop ≠ text.line z.1.start := by
    refine (hsorted.and hlines).imp_of_mem ?_
    intro y z hy hz ⟨hle, hyz⟩
    exact hyz.stop_lt (hspans y hy).ordered (hspans z hz).ordered hle
  obtain ⟨xs, tail, hlaid, hwritten, hplaced, -⟩ :=
    exists_laid_behind [] rfl hspans (fun _ _ => Nat.zero_le _) hpair
  exact ⟨xs, tail, hlaid, hwritten, hplaced ▸ hperm⟩

end Stretch

end TemplateTags
