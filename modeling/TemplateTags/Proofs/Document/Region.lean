import TemplateTags.Document.Buffer
import TemplateTags.Proofs.Text.Cut
/-!
# The lines that a span touches

`Text.line` and `Text.region` are pieces of the text at the spans they come
with (`slice?_line`, `slice?_region`). For a text that is written as
`before ++ piece ++ behind`, the region of the piece is the last line of
`before`, the piece and the first line of `behind`, without a carriage
return at its end (`region_append`); only a `behind` that begins with a
line end can make it shorter.
-/

namespace TemplateTags.Text

/-! ## First and last lines -/

theorem exists_append_lastLine (text : Text) :
    ∃ front, text = front ++ lastLine text := by
  have h : lastLine text <:+ text := by
    have := List.reverse_suffix.2
      (List.takeWhile_prefix (fun c => decide (c ≠ '\n')) (l := text.reverse))
    rwa [List.reverse_reverse] at this
  obtain ⟨front, h⟩ := h
  exact ⟨front, h.symm⟩

theorem exists_append_firstLine (text : Text) :
    ∃ rest, text = firstLine text ++ rest :=
  ⟨_, (List.takeWhile_append_dropWhile).symm⟩

theorem exists_append_dropReturn (text : Text) :
    ∃ rest, text = dropReturn text ++ rest := by
  unfold dropReturn
  split
  · obtain ⟨rest, h⟩ := List.dropLast_prefix text
    exact ⟨rest, h.symm⟩
  · exact ⟨[], by simp⟩

theorem size_lastLine_le (text : Text) : (lastLine text).size ≤ text.size := by
  obtain ⟨front, h⟩ := exists_append_lastLine text
  have := congrArg size h
  rw [size_append] at this
  omega

/-- Only the end of a text decides whether a carriage return is dropped. -/
theorem dropReturn_append {a b : Text} (hb : b ≠ []) :
    dropReturn (a ++ b) = a ++ dropReturn b := by
  have hlast : (a ++ b).getLast? = b.getLast? := by
    obtain ⟨c, hc⟩ := Option.isSome_iff_exists.1 (List.getLast?_isSome.2 hb)
    rw [List.getLast?_append, hc, Option.some_or]
  unfold dropReturn
  rw [hlast]
  split
  · rw [List.dropLast_append_of_ne_nil hb]
  · rfl

theorem newline_notMem_firstLine (text : Text) : '\n' ∉ firstLine text := fun h => by
  simpa using List.all_eq_true.1 List.all_takeWhile _ h

theorem newline_notMem_lastLine (text : Text) : '\n' ∉ lastLine text := by
  unfold lastLine
  rw [List.mem_reverse]
  exact newline_notMem_firstLine text.reverse

theorem lastLine_append {a b : Text} (h : '\n' ∉ b) :
    lastLine (a ++ b) = lastLine a ++ b := by
  have hall : ∀ c ∈ b.reverse, decide (c ≠ '\n') = true := fun c hc => by
    simp only [decide_eq_true_eq]
    rintro rfl
    exact h (List.mem_reverse.1 hc)
  unfold lastLine
  rw [List.reverse_append, List.takeWhile_append_of_pos hall]
  simp

theorem firstLine_append {a b : Text} (h : '\n' ∉ a) :
    firstLine (a ++ b) = a ++ firstLine b := by
  unfold firstLine
  rw [List.takeWhile_append_of_pos]
  intro c hc
  simp only [decide_eq_true_eq]
  rintro rfl
  exact h hc

/-- Behind a text that does not end in a carriage return, one is dropped from
what follows only. -/
theorem dropReturn_append_of_getLast? {a : Text} (h : a.getLast? ≠ some '\r')
    (b : Text) :
    dropReturn (a ++ b) = a ++ dropReturn b := by
  cases b with
  | nil => simp [dropReturn, h]
  | cons c b => exact dropReturn_append (by simp)

theorem size_splitFloor_le (text : Text) (offset : Nat) :
    (splitFloor text offset).1.size ≤ offset := by
  induction text generalizing offset with
  | nil => simp [splitFloor]
  | cons c rest ih =>
    rw [splitFloor]
    split
    next h =>
      have := ih (offset - c.utf8Size)
      simp only [size_cons]
      omega
    next => simp

/-! ## Lines -/

theorem slice?_line (text : Text) (offset : Nat) :
    text.slice? (text.line offset).span = some (text.line offset).text := by
  have happ := splitFloor_append text offset
  unfold line
  generalize splitFloor text offset = cut at happ ⊢
  obtain ⟨front, hfront⟩ := exists_append_lastLine cut.1
  obtain ⟨after, hafter⟩ := exists_append_firstLine cut.2
  obtain ⟨dropped, hdropped⟩ :=
    exists_append_dropReturn (lastLine cut.1 ++ firstLine cut.2)
  have hsize := congrArg size hfront
  rw [size_append] at hsize
  refine slice?_eq_some_iff.2 ⟨front, dropped ++ after, ?_, by simp only; omega, by
    simp only; omega⟩
  show text = front ++ dropReturn (lastLine cut.1 ++ firstLine cut.2)
      ++ (dropped ++ after)
  generalize dropReturn (lastLine cut.1 ++ firstLine cut.2) = content at hdropped ⊢
  generalize lastLine cut.1 = head at hfront hdropped
  generalize firstLine cut.2 = foot at hafter hdropped
  calc
    text = front ++ (head ++ foot) ++ after := by rw [← happ, hfront, hafter]; simp
    _ = front ++ content ++ (dropped ++ after) := by rw [hdropped]; simp

theorem line_start_le (text : Text) (offset : Nat) :
    (text.line offset).span.start ≤ offset := by
  have := size_splitFloor_le text offset
  unfold line
  simp only
  omega

theorem line_append (before behind : Text) :
    (before ++ behind).line before.size =
      let content := dropReturn (lastLine before ++ firstLine behind)
      let start := before.size - (lastLine before).size
      ⟨⟨start, start + content.size⟩, content⟩ := by
  unfold line
  rw [splitFloor_append_size]

/-! ## Regions -/

theorem slice?_region (text : Text) (s : Span) :
    text.slice? (text.region s).span = some (text.region s).text := by
  have hstart := (hasSpan_iff_isSome.2 (by rw [slice?_line text s.start]; rfl)).start
  have hstop := (hasSpan_iff_isSome.2 (by rw [slice?_line text s.stop]; rfl)).stop
  have hspan : text.HasSpan (text.region s).span := by
    refine ⟨Nat.le_max_right _ _, hstart, ?_⟩
    show text.IsCut (max _ _)
    rcases Nat.le_total (text.line s.stop).span.stop
      (text.line s.start).span.start with h | h
    · rw [Nat.max_eq_right h]
      exact hstart
    · rw [Nat.max_eq_left h]
      exact hstop
  obtain ⟨piece, hpiece⟩ := Option.isSome_iff_exists.1 (hasSpan_iff_isSome.1 hspan)
  rw [hpiece]
  show some piece = some ((text.slice? (text.region s).span).getD [])
  rw [hpiece]
  rfl

/-- The region of a piece that the line ends with does not go past it. -/
theorem region_stop_le (before piece : Text) {behind : Text}
    (hbehind : firstLine behind = []) :
    ((before ++ piece ++ behind).region
      ⟨before.size, before.size + piece.size⟩).span.stop ≤
      before.size + piece.size := by
  have hstart := line_start_le (before ++ piece ++ behind) before.size
  have hstop :
      ((before ++ piece ++ behind).line (before.size + piece.size)).span.stop ≤
      before.size + piece.size := by
    have hle := size_lastLine_le (before ++ piece)
    obtain ⟨dropped, hdropped⟩ :=
      exists_append_dropReturn (lastLine (before ++ piece))
    have hsize := congrArg size hdropped
    rw [size_append] at hsize
    rw [← size_append, line_append, hbehind, List.append_nil]
    simp only
    omega
  exact Nat.max_le.2 ⟨hstop, Nat.le_trans hstart (Nat.le_add_right _ _)⟩

/-- The region of a piece, where more of its last line follows. -/
theorem region_append {before piece behind : Text}
    (hbehind : firstLine behind ≠ []) :
    (before ++ piece ++ behind).region ⟨before.size, before.size + piece.size⟩ =
      ⟨⟨before.size - (lastLine before).size,
          before.size + piece.size + (dropReturn (firstLine behind)).size⟩,
        lastLine before ++ piece ++ dropReturn (firstLine behind)⟩ := by
  have hstart : ((before ++ piece ++ behind).line before.size).span.start =
      before.size - (lastLine before).size := by
    rw [List.append_assoc, line_append]
  have hstop :
      ((before ++ piece ++ behind).line (before.size + piece.size)).span.stop =
      before.size + piece.size + (dropReturn (firstLine behind)).size := by
    have hle := size_lastLine_le (before ++ piece)
    rw [← size_append, line_append]
    simp only [dropReturn_append hbehind, size_append] at hle ⊢
    omega
  obtain ⟨front, hfront⟩ := exists_append_lastLine before
  obtain ⟨after, hafter⟩ := exists_append_firstLine behind
  obtain ⟨dropped, hdropped⟩ := exists_append_dropReturn (firstLine behind)
  have hsize := congrArg size hfront
  rw [size_append] at hsize
  have hslice : (before ++ piece ++ behind).slice?
      ⟨before.size - (lastLine before).size,
        before.size + piece.size + (dropReturn (firstLine behind)).size⟩ =
      some (lastLine before ++ piece ++ dropReturn (firstLine behind)) := by
    refine slice?_eq_some_iff.2 ⟨front, dropped ++ after, ?_, by
      simp only; omega, ?_⟩
    -- The three pieces of lines are names from here on, for what they were cut
    -- from does not matter.
    · generalize dropReturn (firstLine behind) = content at hdropped ⊢
      generalize lastLine before = head at hfront ⊢
      generalize firstLine behind = foot at hafter hdropped
      rw [hfront, hafter, hdropped]
      simp
    · simp only [size_append]
      omega
  unfold region
  simp only [hstart, hstop]
  rw [Nat.max_eq_left (by omega), slice, hslice]
  rfl

end TemplateTags.Text
