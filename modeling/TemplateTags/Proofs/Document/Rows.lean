import TemplateTags.Proofs.Document.Lines
/-!
# The lines of a text in order

A text is written as rows, each a line and what ends it (`Text.Rows`): a line
feed, with a carriage return in front of it if there is one, and nothing or a
single carriage return at the end of the text. A text has such rows
(`Text.exists_rows`), and every place of it is in a row, for what ends a row is
part of it (`Text.Rows.exists_inRow`).

`Text.line` gives the line of the row in which its offset lies, moved left to a
place of the text (`Text.Rows.line_eq`). Further right there is no line that
begins or ends further left (`Text.line_mono`), so the lines that a span touches
are those from its first line to its last (`Text.region_span`).
`Text.line_region_exact` puts together what is looked up.
-/

namespace TemplateTags

/-! ## Rows -/

/-- A line and what ends it. -/
structure Row where
  text : Text
  ending : Text
deriving DecidableEq, Repr

namespace Row

/-- The row as it stands in a text. -/
def written (r : Row) : Text := r.text ++ r.ending

/-- The line of a row that begins at an offset. -/
def region (r : Row) (start : Nat) : Region := ⟨⟨start, start + r.text.size⟩, r.text⟩

/-- A line that ends with a line feed. A carriage return in front of the line feed
is not part of the line. -/
structure IsEnded (r : Row) : Prop where
  single : '\n' ∉ r.text
  ending :
    r.ending = ['\r', '\n'] ∨ (r.ending = ['\n'] ∧ r.text.getLast? ≠ some '\r')

/-- A line that ends with the text. A carriage return at the end of the text is
not part of the line. -/
structure IsLast (r : Row) : Prop where
  single : '\n' ∉ r.text
  ending : r.ending = ['\r'] ∨ (r.ending = [] ∧ r.text.getLast? ≠ some '\r')

end Row

namespace Text

/-- The text is written as these rows, of which only the last one has no
line feed at its end. -/
inductive Rows : Text → List Row → Prop
  | last {r : Row} (last : r.IsLast) : Rows r.written [r]
  | cons {r : Row} {rest : Text} {rows : List Row} (ended : r.IsEnded)
      (later : Rows rest rows) :
      Rows (r.written ++ rest) (r :: rows)

/-- The row that begins at an offset holds a place: the place is in the row or in
what ends it. The end of the text is in the last row. -/
def InRow (rows : List Row) (place start : Nat) (r : Row) : Prop :=
  ∃ before after, rows = before ++ r :: after ∧
    start = size (before.flatMap Row.written) ∧ start ≤ place ∧
    (place < start + r.written.size ∨ (after = [] ∧ place = start + r.written.size))

/-- The last place of a text that is not behind an offset. -/
structure IsFloor (text : Text) (offset place : Nat) : Prop where
  isCut : text.IsCut place
  le : place ≤ offset
  greatest : ∀ other, text.IsCut other → other ≤ offset → other ≤ place

theorem IsFloor.mono {text : Text} {offset offset' place place' : Nat}
    (h : text.IsFloor offset place) (h' : text.IsFloor offset' place')
    (hle : offset ≤ offset') : place ≤ place' :=
  h'.greatest place h.isCut (Nat.le_trans h.le hle)

theorem isFloor_splitFloor (text : Text) (offset : Nat) :
    text.IsFloor offset (splitFloor text offset).1.size where
  isCut := ⟨_, _, (splitFloor_append text offset).symm, rfl⟩
  le := size_splitFloor_le text offset
  greatest other hcut hle := by
    induction text generalizing offset other with
    | nil => simpa [splitFloor] using hcut.le_size
    | cons c rest ih =>
      obtain ⟨before, behind, happ, rfl⟩ := hcut
      cases before with
      | nil => exact Nat.zero_le _
      | cons d before =>
        obtain ⟨rfl, rfl⟩ := List.cons.inj happ
        rw [size_cons] at hle
        have hrest := ih (offset - c.utf8Size) (size before)
          ⟨before, behind, rfl, rfl⟩ (by omega)
        rw [splitFloor, if_pos (by omega)]
        simp only [size_cons]
        omega

/-- The line around an offset is the line around the last place that is not behind
it. -/
theorem IsFloor.line_eq {text : Text} {offset place : Nat}
    (h : text.IsFloor offset place) :
    text.line offset = text.line place := by
  have hsplit := isFloor_splitFloor text offset
  have hplace : place = (splitFloor text offset).1.size :=
    Nat.le_antisymm (h.mono hsplit (Nat.le_refl _)) (hsplit.mono h (Nat.le_refl _))
  have happ := splitFloor_append text offset
  unfold line
  rw [hplace]
  generalize splitFloor text offset = cut at happ ⊢
  rw [← happ, splitFloor_append_size]

/-- A line of a text: it begins at the start of the text or behind a line feed,
has no line feed in it, and ends with the text or at a line feed, or at a carriage
return in front of either. -/
structure IsLine (text : Text) (line : Region) : Prop where
  single : '\n' ∉ line.text
  placed : ∃ front behind, text = front ++ line.text ++ behind ∧
    line.span = ⟨front.size, front.size + line.text.size⟩ ∧
      (front = [] ∨ front.getLast? = some '\n') ∧
    (behind = [] ∨ behind = ['\r'] ∨ ∃ later, behind = '\n' :: later ∨
      behind = '\r' :: '\n' :: later)

/-! ## A text has rows -/

theorem dropReturn_cases (text : Text) :
    (text = dropReturn text ∧ text.getLast? ≠ some '\r') ∨ text = dropReturn text ++
      ['\r'] := by
  unfold dropReturn
  split
  next hlast =>
    obtain ⟨front, rfl⟩ := List.getLast?_eq_some_iff.1 hlast
    exact .inr (by simp)
  next hlast => exact .inl ⟨rfl, hlast⟩

theorem newline_notMem_dropReturn {text : Text} (h : '\n' ∉ text) :
    '\n' ∉ dropReturn text := by
  obtain ⟨rest, hrest⟩ := exists_append_dropReturn text
  exact fun hmem => h (hrest ▸ List.mem_append_left _ hmem)

theorem exists_isEnded {line : Text} (h : '\n' ∉ line) :
    ∃ r : Row, r.IsEnded ∧ r.written = line ++ ['\n'] := by
  have hsingle := newline_notMem_dropReturn h
  rcases dropReturn_cases line with ⟨heq, hlast⟩ | heq
  · exact ⟨⟨dropReturn line, ['\n']⟩, ⟨hsingle, .inr ⟨rfl, heq ▸ hlast⟩⟩, by
      rw [Row.written, ← heq]⟩
  · refine ⟨⟨dropReturn line, ['\r', '\n']⟩, ⟨hsingle, .inl rfl⟩, ?_⟩
    rw [Row.written]
    conv => rhs; rw [heq]
    simp

theorem exists_isLast {line : Text} (h : '\n' ∉ line) :
    ∃ r : Row, r.IsLast ∧ r.written = line := by
  have hsingle := newline_notMem_dropReturn h
  rcases dropReturn_cases line with ⟨heq, hlast⟩ | heq
  · exact ⟨⟨dropReturn line, []⟩, ⟨hsingle, .inr ⟨rfl, heq ▸ hlast⟩⟩, by
      rw [Row.written, ← heq, List.append_nil]⟩
  · exact ⟨⟨dropReturn line, ['\r']⟩, ⟨hsingle, .inl rfl⟩, heq.symm⟩

/-- Every text is written as rows. -/
theorem exists_rows (text : Text) : ∃ rows, text.Rows rows := by
  -- The first line is cut off with its line feed, so what is left is shorter.
  induction hlength : text.length using Nat.strongRecOn generalizing text with
  | ind n ih =>
    obtain ⟨rest, hrest⟩ := exists_append_firstLine text
    have hsingle := newline_notMem_firstLine text
    rcases firstLine_eq_nil_iff.1 (firstLine_rest hrest) with rfl | hhead
    · obtain ⟨r, hlast, hwritten⟩ := exists_isLast hsingle
      rw [List.append_nil] at hrest
      exact ⟨[r], hrest ▸ hwritten ▸ .last hlast⟩
    · obtain ⟨later, rfl⟩ := List.head?_eq_some_iff.1 hhead
      have hshorter : later.length < n := by
        have := congrArg List.length hrest
        simp only [List.length_append, List.length_cons] at this
        omega
      obtain ⟨rows, hrows⟩ := ih later.length hshorter later rfl
      obtain ⟨r, hended, hwritten⟩ := exists_isEnded hsingle
      refine ⟨r :: rows, ?_⟩
      have htext : text = r.written ++ later := by
        rw [hwritten, List.append_assoc]; exact hrest
      rw [htext]
      exact .cons hended hrows

end Text

namespace Row

open Text

/-- Without its line feed a row is a single line. -/
theorem IsEnded.exists_line {r : Row} (h : r.IsEnded) :
    ∃ line, r.written = line ++ ['\n'] ∧ '\n' ∉ line ∧ dropReturn line = r.text := by
  have hsingle := h.single
  unfold written
  rcases h.ending with heq | ⟨heq, hlast⟩
  · exact ⟨r.text ++ ['\r'], by simp [heq], by simp [hsingle], by simp [dropReturn]⟩
  · exact ⟨r.text, by rw [heq], hsingle, by simp [dropReturn, hlast]⟩

/-- The last row is a single line. -/
theorem IsLast.written_line {r : Row} (h : r.IsLast) :
    '\n' ∉ r.written ∧ dropReturn r.written = r.text := by
  have hsingle := h.single
  unfold written
  rcases h.ending with heq | ⟨heq, hlast⟩
  · exact ⟨by simp [heq, hsingle], by simp [heq, dropReturn]⟩
  · exact ⟨by simp [heq, hsingle], by simp [heq, dropReturn, hlast]⟩

end Row

namespace Text

/-! ## Looking a line up -/

namespace Rows

variable {text : Text} {rows : List Row}

theorem text_eq (h : text.Rows rows) : text = rows.flatMap Row.written := by
  induction h with
  | last => simp
  | cons _ _ ih => rw [List.flatMap_cons, ← ih]

theorem ne_nil (h : text.Rows rows) : rows ≠ [] := by
  cases h <;> simp

/-- Only the last row has no line feed at its end. -/
theorem isEnded_of_mem_front {before after : List Row} {r : Row} (h : text.Rows rows)
    (hrows : rows = before ++ r :: after) : ∀ q ∈ before, q.IsEnded := by
  induction h generalizing before with
  | last =>
    cases before with
    | nil => simp
    | cons => simp at hrows
  | cons ended _ ih =>
    cases before with
    | nil => simp
    | cons p before =>
      obtain ⟨rfl, hlater⟩ := List.cons.inj hrows
      exact List.forall_mem_cons.2 ⟨ended, ih hlater⟩

theorem isLast_or_isEnded {before after : List Row} {r : Row} (h : text.Rows rows)
    (hrows : rows = before ++ r :: after) :
    (after = [] ∧ r.IsLast) ∨ (after ≠ [] ∧ r.IsEnded) := by
  induction h generalizing before with
  | last last =>
    cases before with
    | nil =>
      obtain ⟨rfl, rfl⟩ := List.cons.inj hrows
      exact .inl ⟨rfl, last⟩
    | cons => simp at hrows
  | cons ended later ih =>
    cases before with
    | nil =>
      obtain ⟨rfl, rfl⟩ := List.cons.inj hrows
      exact .inr ⟨later.ne_nil, ended⟩
    | cons p before => exact ih (List.cons.inj hrows).2

end Rows

theorem lastLine_flatMap_written {before : List Row} (h : ∀ r ∈ before, r.IsEnded) :
    lastLine (before.flatMap Row.written) = [] := by
  rcases List.eq_nil_or_concat before with rfl | ⟨front, r, rfl⟩
  · rfl
  · obtain ⟨line, hwritten, -, -⟩ := (h r (by simp)).exists_line
    rw [lastLine_eq_nil_iff]
    exact .inr (by simp [hwritten])

namespace Rows

variable {text : Text} {rows : List Row}

/-- A row stands behind the end of a line. Without what ends it it is a line in
front of which and behind which a line ends. -/
theorem exists_split {before after : List Row} {r : Row} (h : text.Rows rows)
    (hrows : rows = before ++ r :: after) :
    ∃ line later, text = before.flatMap Row.written ++ line ++ later ∧
      firstLine later = [] ∧ '\n' ∉ line ∧
      dropReturn line = r.text ∧ ((after = [] ∧ r.written = line) ∨
        (after ≠ [] ∧ r.written = line ++ ['\n'])) := by
  have htext := h.text_eq
  rw [hrows, List.flatMap_append, List.flatMap_cons] at htext
  rcases h.isLast_or_isEnded hrows with ⟨rfl, hlast⟩ | ⟨hafter, hended⟩
  · obtain ⟨hsingle, hline⟩ := hlast.written_line
    exact ⟨r.written, [], by simpa using htext, rfl, hsingle, hline, .inl ⟨rfl, rfl⟩⟩
  · obtain ⟨line, hwritten, hsingle, hline⟩ := hended.exists_line
    exact ⟨line, '\n' :: after.flatMap Row.written, by rw [htext, hwritten]; simp,
      rfl, hsingle, hline,
      .inr ⟨hafter, hwritten⟩⟩

/-- Every place of the text is in a row. -/
theorem exists_inRow {place : Nat} (h : text.Rows rows)
    (hplace : place ≤ text.size) :
    ∃ start r, InRow rows place start r := by
  induction h generalizing place with
  | @last r =>
    refine ⟨0, r, [], [], rfl, rfl, Nat.zero_le _, ?_⟩
    rw [Nat.zero_add]
    exact (Nat.lt_or_eq_of_le hplace).imp id fun heq => ⟨rfl, heq⟩
  | @cons r rest rows _ _ ih =>
    by_cases hlt : place < r.written.size
    · exact ⟨0, r, [], rows, rfl, rfl, Nat.zero_le _, .inl (by omega)⟩
    · rw [size_append] at hplace
      obtain ⟨start, q, before, after, rfl, rfl, hle, hin⟩ :=
        @ih (place - r.written.size) (by omega)
      refine ⟨_, q, r :: before, after, rfl, rfl, ?_, ?_⟩
      · rw [List.flatMap_cons, size_append]
        omega
      · rw [List.flatMap_cons, size_append]
        exact hin.imp (by omega) fun ⟨hafter, hplace⟩ => ⟨hafter, by omega⟩

/-- All places of a row have its line. -/
theorem line_eq {place start : Nat} {r : Row} (h : text.Rows rows)
    (hcut : text.IsCut place) (hin : InRow rows place start r) :
    text.line place = r.region start := by
  obtain ⟨before, after, hrows, rfl, hle, hin⟩ := hin
  obtain ⟨line, later, rfl, hlater, hsingle, hline, hwritten⟩ := h.exists_split hrows
  have hbefore := lastLine_flatMap_written (h.isEnded_of_mem_front hrows)
  generalize before.flatMap Row.written = front at *
  obtain ⟨inner, rfl⟩ := Nat.exists_eq_add_of_le hle
  have hinner : inner ≤ size line := by
    have hnewline : size ['\n'] = 1 := rfl
    rcases hwritten with ⟨-, heq⟩ | ⟨hafter, heq⟩
    · rw [heq] at hin
      omega
    · rw [heq, size_append, hnewline] at hin
      have := hin.resolve_right fun h => hafter h.1
      omega
  rw [List.append_assoc, isCut_append_iff] at hcut
  obtain ⟨head, foot, happ, rfl⟩ := hcut
  obtain ⟨rest, rfl, rfl⟩ := exists_append_of_size_le happ.symm hinner
  -- Head and rest are what stands on both sides of the place in its line.
  have hhead : '\n' ∉ head := fun hmem => hsingle (List.mem_append_left _ hmem)
  have hrest : '\n' ∉ rest := fun hmem => hsingle (List.mem_append_right _ hmem)
  have hsplit : front ++ (head ++ rest) ++ later = (front ++ head)
      ++ (rest ++ later) := by simp
  rw [hsplit, ← size_append, line_append, lastLine_append hhead, hbefore,
    List.nil_append, firstLine_append hrest, hlater, List.append_nil, hline,
    size_append, Nat.add_sub_cancel]
  rfl

/-- Each row has a line of the text. -/
theorem isLine {place start : Nat} {r : Row} (h : text.Rows rows)
    (hin : InRow rows place start r) :
    text.IsLine (r.region start) := by
  obtain ⟨before, after, hrows, rfl, -, -⟩ := hin
  have htext := h.text_eq
  rw [hrows, List.flatMap_append, List.flatMap_cons] at htext
  have hbefore :=
    lastLine_eq_nil_iff.1 (lastLine_flatMap_written (h.isEnded_of_mem_front hrows))
  have hsplit : text = before.flatMap Row.written ++ r.text
      ++ (r.ending ++ after.flatMap Row.written) := by
    rw [htext, Row.written]
    simp
  rcases h.isLast_or_isEnded hrows with ⟨rfl, hlast⟩ | ⟨-, hended⟩
  · refine ⟨hlast.single, _, _, hsplit, rfl, hbefore, ?_⟩
    rcases hlast.ending with heq | ⟨heq, -⟩ <;> simp [heq]
  · refine ⟨hended.single, _, _, hsplit, rfl, hbefore, ?_⟩
    rcases hended.ending with heq | ⟨heq, -⟩ <;> simp [heq]

/-- A later place is in the same row or in a later one. -/
theorem region_mono {place place' start start' : Nat} {r r' : Row}
    (hin : InRow rows place start r) (hin' : InRow rows place' start' r')
    (hle : place ≤ place') :
    start ≤ start' ∧ (r.region start).span.stop ≤ (r'.region start').span.stop := by
  obtain ⟨before, after, hrows, rfl, hstart, -⟩ := hin
  obtain ⟨before', after', hrows', rfl, -, hstop⟩ := hin'
  rw [hrows] at hrows'
  simp only [Row.region]
  rcases List.append_eq_append_iff.1
    hrows' with ⟨between, rfl, heq⟩ | ⟨between, rfl, heq⟩
  · cases between with
    | nil =>
      obtain ⟨rfl, -⟩ := List.cons.inj heq
      simp
    | cons q between =>
      obtain ⟨rfl, -⟩ := List.cons.inj heq
      simp only [List.flatMap_append, List.flatMap_cons, size_append, Row.written]
      omega
  · cases between with
    | nil =>
      obtain ⟨rfl, -⟩ := List.cons.inj heq
      simp
    | cons q between =>
      -- The row of the first place would begin behind that of the second one,
      -- and with it the place.
      obtain ⟨rfl, rfl⟩ := List.cons.inj heq
      simp only [List.flatMap_append, List.flatMap_cons, size_append] at hstart
      have := hstop.resolve_right fun h => by simp at h
      omega

end Rows

/-- What is looked up at an offset: the line of the row in which it lies. -/
theorem exists_row {text : Text} {rows : List Row} (h : text.Rows rows)
    {offset place : Nat} (hplace : text.IsFloor offset place) :
    ∃ start r, InRow rows place start r ∧ text.line offset = r.region start := by
  obtain ⟨start, r, hin⟩ := h.exists_inRow hplace.isCut.le_size
  exact ⟨start, r, hin, hplace.line_eq.trans (h.line_eq hplace.isCut hin)⟩

theorem isLine_line (text : Text) (offset : Nat) :
    text.IsLine (text.line offset) := by
  obtain ⟨rows, hrows⟩ := exists_rows text
  obtain ⟨start, r, hin, hline⟩ := exists_row hrows (isFloor_splitFloor text offset)
  rw [hline]
  exact hrows.isLine hin

/-- Further right there is the same line or a later one. -/
theorem line_mono (text : Text) {offset offset' : Nat} (h : offset ≤ offset') :
    (text.line offset).span.start ≤ (text.line offset').span.start ∧
      (text.line offset).span.stop ≤ (text.line offset').span.stop := by
  obtain ⟨rows, hrows⟩ := exists_rows text
  have hplace := isFloor_splitFloor text offset
  have hplace' := isFloor_splitFloor text offset'
  obtain ⟨start, r, hin, hline⟩ := exists_row hrows hplace
  obtain ⟨start', r', hin', hline'⟩ := exists_row hrows hplace'
  rw [hline, hline']
  exact Rows.region_mono hin hin' (hplace.mono hplace' h)

/-- The region of a span begins with the line at its start and ends with
the line at its end. -/
theorem region_span (text : Text) {s : Span} (h : s.start ≤ s.stop) :
    (text.region s).span =
      ⟨(text.line s.start).span.start, (text.line s.stop).span.stop⟩ := by
  have hstart := (text.line_mono h).1
  have hordered :=
    (hasSpan_iff_isSome.2 (by rw [slice?_line text s.stop]; rfl)).ordered
  show Span.mk _ (max _ _) = _
  rw [Nat.max_eq_left (Nat.le_trans hstart hordered)]

/-- Lines and regions are looked up exactly. The rows of the text cover it, and an
offset has the line of the row in which it lies, moved left to a place of the
text. The region of a span runs from the first line that the span touches to the
end of the last one. -/
theorem line_region_exact (text : Text) :
    (∃ rows, text.Rows rows ∧ ∀ offset, ∃ place, text.IsFloor offset place ∧
        (∃ start r, InRow rows place start r) ∧
        ∀ start r, InRow rows place start r → text.line offset = r.region start) ∧
      (∀ offset, text.IsLine (text.line offset)) ∧
      ∀ s : Span, s.start ≤ s.stop →
        (text.region s).span =
          ⟨(text.line s.start).span.start, (text.line s.stop).span.stop⟩ ∧
        text.slice? (text.region s).span = some (text.region s).text ∧
        ∀ line, text.Touches s line →
          (text.region s).span.start ≤ line.span.start ∧ line.span.stop ≤
            (text.region s).span.stop := by
  refine ⟨?_, text.isLine_line, fun s hs =>
    ⟨text.region_span hs, slice?_region text s, ?_⟩⟩
  · obtain ⟨rows, hrows⟩ := exists_rows text
    refine ⟨rows, hrows, fun offset =>
      ⟨_, isFloor_splitFloor text offset, ?_, fun start r hin => ?_⟩⟩
    · exact hrows.exists_inRow (isFloor_splitFloor text offset).isCut.le_size
    · rw [(isFloor_splitFloor text offset).line_eq]
      exact hrows.line_eq (isFloor_splitFloor text offset).isCut hin
  · rintro _ ⟨offset, hstart, hstop, rfl⟩
    rw [text.region_span hs]
    exact ⟨(text.line_mono hstart).1, (text.line_mono hstop).2⟩

/-- The carriage return in front of a letter is part of its line, the other two
are not. The offsets inside of the wide character and between carriage return and
line feed have the first line. -/
theorem line_region_exact_returns :
    let text : Text := "é\r\n\rb\r".toList
    text.line 1 = ⟨⟨0, 2⟩, ['é']⟩ ∧ text.line 3 = ⟨⟨0, 2⟩, ['é']⟩ ∧
      text.line 9 = ⟨⟨4, 6⟩, ['\r', 'b']⟩ ∧
      (text.region ⟨1, 9⟩).span = ⟨0, 6⟩ := by
  intro text
  have hfirst : text.line 1 = ⟨⟨0, 2⟩, ['é']⟩ := by decide
  have hlast : text.line 9 = ⟨⟨4, 6⟩, ['\r', 'b']⟩ := by decide
  refine ⟨hfirst, by decide, hlast, ?_⟩
  have hregion := (text.line_region_exact.2.2 ⟨1, 9⟩ (by decide)).1
  rwa [hfirst, hlast] at hregion

end Text

end TemplateTags
