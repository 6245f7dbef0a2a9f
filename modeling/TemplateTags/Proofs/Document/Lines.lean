import TemplateTags.Proofs.Cycle.Layout
/-!
# One line in the place of another

Every line of a text is a piece of it behind which no more of the line follows
than the carriage return that does not count (`Text.exists_line`). Where a line is
replaced by another text of one line, that text is a line of the result and all
other lines are what they were, those below it moved by the change of length
(`Text.LineReplaced`).
-/

namespace TemplateTags

/-- The region after a change of `delta` bytes in front of it. -/
def Region.shift (r : Region) (delta : Int) : Region :=
  { r with span := r.span.shift delta }

namespace Text

/-! ## Lines that end inside of a piece -/

theorem firstLine_append_of_mem {a : Text} (h : '\n' ∈ a) (b : Text) :
    firstLine (a ++ b) = firstLine a := by
  induction a with
  | nil => cases h
  | cons c a ih =>
    by_cases hc : c = '\n'
    · simp [firstLine, hc]
    · have ha : '\n' ∈ a := (List.mem_cons.1 h).resolve_left (Ne.symm hc)
      have hfirst : ∀ rest : Text, firstLine (c :: rest) = c :: firstLine rest :=
        fun rest => by simp [firstLine, hc]
      rw [List.cons_append, hfirst, hfirst, ih ha]

theorem lastLine_append_of_mem (a : Text) {b : Text} (h : '\n' ∈ b) :
    lastLine (a ++ b) = lastLine b := by
  show (firstLine (a ++ b).reverse).reverse = (firstLine b.reverse).reverse
  rw [List.reverse_append, firstLine_append_of_mem (List.mem_reverse.2 h)]

/-- What is dropped from a text is the carriage return at its end. -/
theorem exists_dropped (text : Text) :
    ∃ dropped, text = dropReturn text ++ dropped ∧ dropReturn dropped = [] := by
  unfold dropReturn
  split
  next hlast =>
    have hne : text ≠ [] := fun h => by simp [h] at hlast
    have hend := List.getLast?_eq_some_getLast hne
    rw [hlast, Option.some.injEq] at hend
    refine ⟨['\r'], ?_, rfl⟩
    rw [hend, List.dropLast_concat_getLast]
  next => exact ⟨[], by simp, rfl⟩

/-- A line begins behind the end of another one, and nothing of it but a
carriage return follows. -/
theorem exists_line (text : Text) (offset : Nat) : ∃ front behind,
    text = front ++ (text.line offset).text ++ behind ∧
      front.size = (text.line offset).span.start ∧
      lastLine front = [] ∧ dropReturn (firstLine behind) = [] ∧
        '\n' ∉ (text.line offset).text ∧
      text.line front.size = text.line offset := by
  obtain ⟨before, after, rfl, hline⟩ : ∃ before after, text = before ++ after ∧
      text.line offset = (before ++ after).line before.size := by
    refine ⟨(splitFloor text offset).1, (splitFloor text offset).2,
      (splitFloor_append text offset).symm, ?_⟩
    unfold line
    rw [splitFloor_append_size]
  obtain ⟨front, hfront⟩ := exists_append_lastLine before
  obtain ⟨rest, hrest⟩ := exists_append_firstLine after
  have hfrontLine := lastLine_front hfront
  have hrestLine := firstLine_rest hrest
  have hbeforeSize := congrArg size hfront
  rw [size_append] at hbeforeSize
  obtain ⟨dropped, hdropped, hreturn⟩ :=
    exists_dropped (lastLine before ++ firstLine after)
  have hmem : '\n' ∉ lastLine before ++ firstLine after := by
    simp [newline_notMem_lastLine, newline_notMem_firstLine]
  have hcontent : '\n' ∉ dropReturn (lastLine before ++ firstLine after) := fun h =>
    hmem (hdropped ▸ List.mem_append_left _ h)
  have hnone : '\n' ∉ dropped := fun h => hmem (hdropped ▸ List.mem_append_right _ h)
  have htext :
      before ++ after = front ++ (lastLine before ++ firstLine after) ++ rest :=
    calc before ++ after = (front ++ lastLine before)
        ++ (firstLine after ++ rest) := by rw [← hfront, ← hrest]
      _ = front ++ (lastLine before ++ firstLine after) ++ rest := by simp
  refine ⟨front, dropped ++ rest, ?_, ?_, hfrontLine, ?_, ?_, ?_⟩
  · rw [hline, line_append, htext]
    calc front ++ (lastLine before ++ firstLine after) ++ rest
        = front ++ (dropReturn (lastLine before ++ firstLine after) ++ dropped)
          ++ rest := by rw [← hdropped]
      _ = front ++ dropReturn (lastLine before ++ firstLine after)
          ++ (dropped ++ rest) := by simp
  · rw [hline, line_append]
    simp only
    omega
  · rw [firstLine_append hnone, hrestLine, List.append_nil]
    exact hreturn
  · rw [hline, line_append]
    exact hcontent
  · rw [hline]
    have heq :
        (front ++ lastLine before ++ after).line (front ++ lastLine before).size =
        (front ++ lastLine before ++ after).line front.size :=
          line_eq_of_append (newline_notMem_lastLine before)
    rw [← hfront] at heq
    exact heq.symm

/-! ## Replacing a line -/

/-- The text with another text in the place of a piece. -/
def withPiece (text : Text) (span : Span) (piece : Text) : Text :=
  text.slice ⟨0, span.start⟩ ++ piece ++ text.slice ⟨span.stop, text.size⟩

theorem withPiece_append (before old behind piece : Text) :
    (before ++ old ++ behind).withPiece ⟨before.size, before.size + old.size⟩ piece =
      before ++ piece ++ behind := by
  have hbefore : (before ++ old ++ behind).slice? ⟨0, before.size⟩ = some before :=
    slice?_eq_some_iff.2 ⟨[], old ++ behind, by simp, rfl, by simp⟩
  have hbehind : (before ++ old ++ behind).slice? ⟨before.size + old.size,
      (before ++ old ++ behind).size⟩ =
      some behind :=
    slice?_eq_some_iff.2 ⟨before ++ old, [], by simp, by simp, by
      simp [Nat.add_assoc]⟩
  simp only [withPiece, slice, hbefore, hbehind, Option.getD_some]

/-- The result has the new text for a line where the old line begins. Lines that
begin at cuts of the text before that are the same lines, and all other lines are
those of the text, as far away as the length has changed. -/
structure LineReplaced (text : Text) (old : Region) (new result : Text) : Prop where
  text_eq : result = text.withPiece old.span new
  line_eq :
    result.line old.span.start = ⟨⟨old.span.start, old.span.start + new.size⟩, new⟩
  above : ∀ offset, text.IsCut offset → offset < old.span.start →
    result.line offset = text.line offset
  below : ∀ offset, text.IsCut offset → old.span.start ≤ offset →
    text.line offset ≠ old →
    result.line (Span.shiftOffset offset (new.size - old.span.length)) =
      (text.line offset).shift (new.size - old.span.length)

/-- A text of one line can stand in the place of any line. -/
theorem lineReplaced_withPiece (text : Text) (offset : Nat) {new : Text}
    (hnew : '\n' ∉ new) (hreturn : new.getLast? ≠ some '\r') :
    LineReplaced text (text.line offset) new
      (text.withPiece (text.line offset).span new) := by
  obtain ⟨front, behind, htext, hstart, hfront, hbehind, hold, hline⟩ :=
    exists_line text offset
  have hslice := slice?_line text offset
  generalize text.line offset = old at *
  obtain ⟨⟨start, stop⟩, content⟩ := old
  simp only at htext hstart hold hslice
  subst hstart
  obtain ⟨_, _, -, hfrom, hto⟩ := slice?_eq_some_iff.1 hslice
  simp only at hfrom hto
  rw [hfrom] at hto
  subst hto
  rw [htext] at hline ⊢
  rw [withPiece_append]
  refine ⟨(withPiece_append _ _ _ _).symm, ?_, ?_, ?_⟩
  · rw [List.append_assoc, line_append, hfront, List.nil_append,
      firstLine_append hnew, dropReturn_append_of_getLast? hreturn, hbehind]
    simp
  · rintro _ ⟨before, rest, happ, rfl⟩ hlt
    simp only at hlt
    rw [List.append_assoc] at happ
    obtain ⟨between, rfl, hrest⟩ :=
      exists_append_of_size_le happ.symm (Nat.le_of_lt hlt)
    -- The line that ends in front of the old one ends behind the offset.
    have hne : between ≠ [] := by
      rintro rfl
      simp at hlt
    have hend : between.getLast? = some '\n' := by
      rw [lastLine_eq_nil_iff, List.getLast?_append] at hfront
      obtain ⟨c, hc⟩ := Option.isSome_iff_exists.1 (List.getLast?_isSome.2 hne)
      simpa [hne, hc] using hfront
    have hmem : '\n' ∈ between := List.mem_of_getLast? hend
    simp only [List.append_assoc]
    rw [line_append, line_append, firstLine_append_of_mem hmem,
      firstLine_append_of_mem hmem]
  · rintro _ ⟨before, rest, happ, rfl⟩ hle hother
    simp only at hle
    rw [List.append_assoc] at happ
    obtain ⟨between, rfl, hrest⟩ := exists_append_of_size_le happ hle
    by_cases hmem : '\n' ∈ between
    · -- The old line ends in front of the offset.
      obtain ⟨below, rfl, rfl⟩ : ∃ below, between = content ++ below ∧
          behind = below ++ rest := by
        rcases List.append_eq_append_iff.1
          hrest with ⟨below, hbelow, hbehind⟩ | ⟨below, hbelow, -⟩
        · exact ⟨below, hbelow, hbehind⟩
        · exact absurd (hbelow ▸ List.mem_append_left _ hmem) hold
      have hbelow : '\n' ∈ below := (List.mem_append.1 hmem).resolve_left hold
      have hle' := size_lastLine_le below
      have hoffset : Span.shiftOffset (front ++ (content ++ below)).size
          (new.size - Span.length ⟨front.size, front.size + content.size⟩) =
            (front ++ (new ++ below)).size := by
        simp only [Span.shiftOffset, Span.length, size_append]
        omega
      have hsplit : ∀ piece : Text, front ++ piece ++ (below ++ rest) =
          (front ++ (piece ++ below)) ++ rest := by
        simp
      rw [hoffset, hsplit, hsplit, line_append, line_append]
      have hlast : ∀ piece : Text, lastLine (front ++ (piece ++ below)) =
          lastLine below := fun piece => by
        rw [lastLine_append_of_mem _ (List.mem_append_right _ hbelow),
          lastLine_append_of_mem _ hbelow]
      rw [hlast, hlast]
      simp only [Region.shift, Span.shift, Span.shiftOffset, Span.length,
        size_append, Region.mk.injEq, Span.mk.injEq, and_true]
      omega
    · -- Otherwise the offset is in the old line.
      have hsame : (front ++ between ++ rest).line (front ++ between).size =
          (front ++ between ++ rest).line front.size := line_eq_of_append hmem
      rw [List.append_assoc, ← hrest, ← List.append_assoc] at hsame
      exact absurd (hsame.trans hline) hother

end Text

end TemplateTags
