import TemplateTags.Proofs.Cycle.Exact
import TemplateTags.Proofs.Cycle.Local
import TemplateTags.Proofs.Document.Rows
/-!
# Two texts with the same lines around a selection

A selection gets the same edits in two texts that agree on the lines it touches,
whatever else stands in them. It is its region that decides
(`TagEdit.ofSelection_of_region`), and a region is put together from the touched
lines: where a span goes on behind its first line, the line's end comes next and
then the region of the rest (`Text.exists_goesOn`). How a line ends is not in the
list of touched lines, but the place where the next one begins tells it, so the
list decides on the region (`Text.Agrees.region_eq`).
-/

namespace TemplateTags

open Text

theorem Region.moveRight_injective (offset : Nat) :
    Function.Injective (Region.moveRight · offset) := by
  intro r r' h
  obtain ⟨⟨start, stop⟩, content⟩ := r
  obtain ⟨⟨start', stop'⟩, content'⟩ := r'
  simpa [moveRight, Span.moveRight] using h

namespace Text

variable {text : Text} {rows before after : List Row} {r q : Row} {s : Span}

/-! ## Neighbouring rows -/

/-- All offsets between the beginning of a row and the beginning of the next one
have the line of the row. -/
theorem Rows.line_eq_of_lt (h : text.Rows rows)
    (heq : rows = before ++ r :: after) {offset : Nat}
    (hle : size (before.flatMap Row.written) ≤ offset)
    (hlt : offset < size (before.flatMap Row.written) + r.written.size) :
    text.line offset = r.region (size (before.flatMap Row.written)) := by
  have hfloor := isFloor_splitFloor text offset
  have hcut : text.IsCut (size (before.flatMap Row.written)) := by
    refine ⟨before.flatMap Row.written, (r :: after).flatMap Row.written, ?_, rfl⟩
    rw [h.text_eq, heq, List.flatMap_append]
  have hplace := hfloor.greatest _ hcut hle
  have hfloorle := hfloor.le
  rw [hfloor.line_eq]
  exact h.line_eq hfloor.isCut ⟨before, after, heq, rfl, hplace, .inl (by omega)⟩

/-- Behind a row the next one begins. -/
theorem Rows.line_next (h : text.Rows rows)
    (heq : rows = before ++ r :: q :: after) {next : Nat}
    (hnext : next = size (before.flatMap Row.written) + r.written.size) :
    text.IsCut next ∧ (text.line next).span.start = next := by
  have heq' : rows = (before ++ [r]) ++ q :: after := by
    rw [heq, List.append_assoc]; rfl
  have hfront : size ((before ++ [r]).flatMap Row.written) = next := by simp [hnext]
  have hcut : text.IsCut next := by
    refine ⟨(before ++ [r]).flatMap Row.written,
      (q :: after).flatMap Row.written, ?_, hfront⟩
    rw [h.text_eq, heq', List.flatMap_append]
  have hplace : InRow rows next next q := by
    refine ⟨before ++ [r], after, heq', hfront.symm, Nat.le_refl _, ?_⟩
    rcases h.isLast_or_isEnded heq' with ⟨hnil, -⟩ | ⟨-, hended⟩
    · by_cases hwritten : q.written.size = 0
      · exact .inr ⟨hnil, by omega⟩
      · exact .inl (by omega)
    · obtain ⟨line, hwritten, -, -⟩ := hended.exists_line
      have hnewline : size ['\n'] = 1 := rfl
      left
      rw [hwritten, size_append, hnewline]
      omega
  rw [h.line_eq hcut hplace]
  exact ⟨hcut, rfl⟩

/-! ## The region line by line -/

/-- Within one line the region of a span is the line. -/
theorem region_of_line_eq (h : s.start ≤ s.stop)
    (hline : text.line s.stop = text.line s.start) :
    text.region s = text.line s.start := by
  have hspan : (text.region s).span = (text.line s.start).span := by
    rw [text.region_span h, hline]
  have hslice := slice?_region text s
  rw [hspan, slice?_line] at hslice
  show Region.mk (text.region s).span (text.region s).text = _
  rw [hspan, ← Option.some.inj hslice]

/-- The first line of a span ends with `ending` inside of the span, and the next
line begins at `next`. -/
structure GoesOn (text : Text) (s : Span) (ending : Text) (next : Nat) : Prop where
  ending_cases : ending = ['\n'] ∨ ending = ['\r', '\n']
  isCut : text.IsCut next
  start_lt : s.start < next
  le_stop : next ≤ s.stop
  /-- up to the next line all offsets are in the first one -/
  line_eq : ∀ offset, s.start ≤ offset → offset < next →
    text.line offset = text.line s.start
  line_next : (text.line next).span.start = next
  next_eq : next = (text.line s.start).span.stop + ending.size
  region_text : (text.region s).text = (text.line s.start).text ++ ending
    ++ (text.region ⟨next, s.stop⟩).text

/-- The region of a span that goes on behind a line is the line, what ends it and
the region of the rest. -/
theorem region_text_append (front : Text) {line ending : Text} (behind : Text)
    {next : Nat} (htext : text = front ++ line ++ ending ++ behind)
    (hfront : front.size = (text.line s.start).span.start)
    (hnext : (front ++ line ++ ending).size = next)
    (hline : (text.line next).span.start = next) (hlt : s.start < next)
    (hle : next ≤ s.stop) :
    (text.region s).text = line ++ ending ++ (text.region ⟨next, s.stop⟩).text := by
  have hspan := text.region_span (s := s) (by omega)
  have hspan' := text.region_span (s := ⟨next, s.stop⟩) hle
  obtain ⟨head, rest, happ, hhead, hstop⟩ :=
    slice?_eq_some_iff.1 (slice?_region text ⟨next, s.stop⟩)
  have hslice := slice?_region text s
  rw [hspan', hline] at hhead hstop
  -- What stands in front of the rest's region is what stands in front of the next
  -- line.
  obtain ⟨rfl, -⟩ : head = front ++ line ++ ending ∧ _ := by
    rw [htext, List.append_assoc head] at happ
    exact append_inj_of_size happ.symm (hhead.trans hnext.symm)
  have hpiece : text.slice? (text.region s).span =
      some (line ++ ending ++ (text.region ⟨next, s.stop⟩).text) := by
    refine slice?_eq_some_iff.2 ⟨front, rest, ?_, ?_, ?_⟩
    · conv => lhs; rw [happ]
      simp
    · rw [hfront, hspan]
    · rw [hspan]
      simp only [size_append] at hstop ⊢
      omega
  rw [hslice] at hpiece
  exact Option.some.inj hpiece

/-- A span that does not end in its first line goes on in the next one. -/
theorem exists_goesOn (hs : text.HasSpan s)
    (hne : text.line s.stop ≠ text.line s.start) :
    ∃ ending next, text.GoesOn s ending next := by
  obtain ⟨rows, hrows⟩ := exists_rows text
  obtain ⟨start, r, hin⟩ := hrows.exists_inRow hs.start.le_size
  have hline : text.line s.start = r.region start := hrows.line_eq hs.start hin
  have hordered := hs.ordered
  have hsize := hs.stop.le_size
  obtain ⟨before, after, heq, rfl, hle, hlt⟩ := hin
  have htext := hrows.text_eq
  rw [heq, List.flatMap_append, List.flatMap_cons] at htext
  have hend : size (before.flatMap Row.written) + r.written.size ≤ s.stop := by
    apply Nat.le_of_not_lt
    intro hinside
    exact hne ((hrows.line_eq_of_lt heq (by omega) hinside).trans hline.symm)
  cases after with
  | nil =>
    -- The last row ends with the text, so the span ends in it.
    rw [htext] at hsize
    simp only [size_append, List.flatMap_nil, size_nil, Nat.add_zero] at hsize
    exact absurd ((hrows.line_eq hs.stop ⟨before, [], heq, rfl, by omega,
      .inr ⟨rfl, by omega⟩⟩).trans hline.symm) hne
  | cons q after =>
    obtain ⟨next, hnext⟩ :
        ∃ next, next = size (before.flatMap Row.written) + r.written.size := ⟨_, rfl⟩
    obtain ⟨hcut, hlinenext⟩ := hrows.line_next heq hnext
    have hended : r.IsEnded := by
      rcases hrows.isLast_or_isEnded heq with ⟨hnil, -⟩ | ⟨-, hended⟩
      · cases hnil
      · exact hended
    have hstart : s.start < next := by
      rcases hlt with hlt | ⟨hnil, -⟩
      · omega
      · cases hnil
    have hregion : (text.line s.start).text = r.text := congrArg Region.text hline
    have hspan :
        (text.line s.start).span.start = size (before.flatMap Row.written) :=
      congrArg (fun region => region.span.start) hline
    have hsizes :
        size (before.flatMap Row.written) + r.text.size + r.ending.size = next := by
      rw [hnext, Row.written, size_append]
      omega
    refine ⟨r.ending, next, hended.ending.symm.imp And.left id, hcut, hstart, by
      omega, ?_, hlinenext, ?_, ?_⟩
    · intro offset hoffset hbelow
      rw [hline]
      exact hrows.line_eq_of_lt heq (by omega) (by omega)
    · rw [hline]
      exact hsizes.symm
    · rw [hregion]
      refine region_text_append (before.flatMap Row.written)
        ((q :: after).flatMap Row.written) ?_ hspan.symm ?_
        hlinenext hstart (by omega)
      · rw [htext, Row.written]
        simp
      · simp only [size_append]
        exact hsizes

/-! ## Two texts -/

/-- The lines around the offsets of a span are those of another text, further
right. -/
def Agrees (text text' : Text) (s : Span) (distance : Nat) : Prop :=
  ∀ offset, s.start ≤ offset → offset ≤ s.stop → text'.line (offset + distance) =
    (text.line offset).moveRight distance

section Agreeing

variable {text' ending ending' : Text} {distance next next' : Nat}

theorem agrees_iff_touched :
    text.Agrees text' s distance ↔
      text'.touched (s.moveRight distance) =
        (text.touched s).map (·.moveRight distance) := by
  have hrange : List.range' (s.moveRight distance).start
      ((s.moveRight distance).stop + 1 - (s.moveRight distance).start) =
      (List.range' s.start (s.stop + 1 - s.start)).map (distance + ·) := by
    show List.range' (s.start + distance)
        (s.stop + distance + 1 - (s.start + distance)) = _
    have hlength : s.stop + distance + 1 - (s.start + distance) =
        s.stop + 1 - s.start := by omega
    rw [List.map_add_range', hlength, Nat.add_comm]
  unfold touched
  rw [hrange, List.map_map, List.map_map, List.map_inj_left]
  constructor
  · intro h offset hoffset
    rw [List.mem_range'_1] at hoffset
    have hline := h offset hoffset.1 (by omega)
    rwa [Nat.add_comm] at hline
  · intro h offset hstart hstop
    have hline := h offset (List.mem_range'_1.2 ⟨hstart, by omega⟩)
    rw [Nat.add_comm]
    exact hline

/-- Where the lines agree the next line begins at the same place. -/
theorem Agrees.next_eq (h : text.Agrees text' s distance)
    (hgoes : text.GoesOn s ending next)
    (hgoes' : text'.GoesOn (s.moveRight distance) ending' next') :
    next' = next + distance := by
  have hordered : s.start ≤ s.stop :=
    Nat.le_trans (Nat.le_of_lt hgoes.start_lt) hgoes.le_stop
  have hlt : s.start + distance < next' := hgoes'.start_lt
  have hle : next' ≤ s.stop + distance := hgoes'.le_stop
  have hlt' := hgoes.start_lt
  have hle' := hgoes.le_stop
  have hstart := text.line_start_le s.start
  rcases Nat.lt_trichotomy next' (next + distance) with hbelow | heq | habove
  · -- The offset is still in the first line of the one text, but begins a line of
    -- the other one.
    obtain ⟨offset, rfl⟩ : ∃ offset, next' = offset + distance :=
      ⟨next' - distance, by omega⟩
    have hline := h offset (by omega) (by omega)
    rw [hgoes.line_eq offset (by omega) (by omega)] at hline
    have hbegin := hgoes'.line_next
    rw [hline] at hbegin
    have hbegin' : (text.line s.start).span.start + distance = offset + distance :=
      hbegin
    omega
  · exact heq
  · have hline := h next (by omega) hle'
    rw [hgoes'.line_eq (next + distance) (by show s.start + distance ≤ _; omega)
      habove] at hline
    have hfirst : text'.line (s.start + distance) = _ :=
      h s.start (Nat.le_refl _) hordered
    have hsame : (text.line s.start).moveRight distance =
        (text.line next).moveRight distance := hfirst.symm.trans hline
    have hbegin : (text.line s.start).span.start + distance =
        (text.line next).span.start + distance :=
      congrArg (fun region => region.span.start) hsame
    have hnext := hgoes.line_next
    omega

/-- Where the lines agree they end alike, too. -/
theorem Agrees.ending_eq (h : text.Agrees text' s distance)
    (hgoes : text.GoesOn s ending next)
    (hgoes' : text'.GoesOn (s.moveRight distance) ending' next') :
    ending' = ending := by
  have hordered : s.start ≤ s.stop :=
    Nat.le_trans (Nat.le_of_lt hgoes.start_lt) hgoes.le_stop
  have hfirst : text'.line (s.start + distance) = _ :=
    h s.start (Nat.le_refl _) hordered
  have hsize : ending'.size = ending.size := by
    have hnext := hgoes.next_eq
    have hnext' : next' = (text'.line (s.start + distance)).span.stop
        + ending'.size := hgoes'.next_eq
    have heq := h.next_eq hgoes hgoes'
    rw [hfirst] at hnext'
    have hstop : ((text.line s.start).moveRight distance).span.stop =
        (text.line s.start).span.stop + distance := rfl
    omega
  rcases hgoes.ending_cases with rfl | rfl <;>
    rcases hgoes'.ending_cases with rfl | rfl
  · rfl
  · cases hsize
  · cases hsize
  · rfl

/-- Two texts that agree on the lines around a span have the same region there. -/
theorem Agrees.region_eq (hs : text.HasSpan s)
    (hs' : text'.HasSpan (s.moveRight distance))
    (h : text.Agrees text' s distance) :
    text'.region (s.moveRight distance) = (text.region s).moveRight distance := by
  -- The induction is on the length of the span: behind its first line
  -- the rest is shorter.
  induction hlength : s.stop - s.start using Nat.strongRecOn generalizing s with
  | ind n ih =>
    have hordered := hs.ordered
    have hfirst : text'.line (s.moveRight distance).start = _ :=
      h s.start (Nat.le_refl _) hordered
    have hlast : text'.line (s.moveRight distance).stop = _ :=
      h s.stop hordered (Nat.le_refl _)
    by_cases hline : text.line s.stop = text.line s.start
    · have hline' : text'.line (s.moveRight distance).stop =
          text'.line (s.moveRight distance).start := by
        rw [hfirst, hlast, hline]
      rw [region_of_line_eq hordered hline, region_of_line_eq hs'.ordered hline',
        hfirst]
    · have hline' : text'.line (s.moveRight distance).stop ≠
          text'.line (s.moveRight distance).start := by
        rw [hfirst, hlast]
        intro heq
        exact hline (Region.moveRight_injective distance heq)
      obtain ⟨ending, next, hgoes⟩ := exists_goesOn hs hline
      obtain ⟨ending', next', hgoes'⟩ := exists_goesOn hs' hline'
      obtain rfl := h.next_eq hgoes hgoes'
      obtain rfl := h.ending_eq hgoes hgoes'
      have hlt := hgoes.start_lt
      have hle := hgoes.le_stop
      have hrest : text'.region (Span.moveRight ⟨next, s.stop⟩ distance) =
          (text.region ⟨next, s.stop⟩).moveRight distance :=
        ih (s.stop - next) (by omega) ⟨hle, hgoes.isCut, hs.stop⟩ ⟨hgoes'.le_stop,
          hgoes'.isCut, hs'.stop⟩
          (fun offset hstart hstop =>
            h offset (Nat.le_trans (Nat.le_of_lt hlt) hstart) hstop) rfl
      have hspan := text.region_span hordered
      have hspan' := text'.region_span hs'.ordered
      have htext := hgoes.region_text
      have htext' : _ = _ ++ _
          ++ (text'.region (Span.moveRight ⟨next, s.stop⟩ distance)).text :=
            hgoes'.region_text
      rw [hfirst, hlast] at hspan'
      rw [hfirst, hrest] at htext'
      have hregion : text.region s = ⟨_, _⟩ := congrArg₂ Region.mk hspan htext
      rw [hregion]
      exact congrArg₂ Region.mk hspan' htext'

end Agreeing

end Text

/-! ## Edits -/

namespace TagEdit

/-- The edits for a selection depend on the lines that it touches and on nothing
else. A block of lines in the middle of a text gives the edits and the selection
that it gives alone, as far to the right as it stands there, and so do any two
texts whose lines around the selection are the same. Where the sizes are signed
machine words that is so for the selection in words, too. -/
theorem ofSelection_own_lines (d : Dialect) {lines : Text} {s : Span}
    (hs : lines.HasSpan s) :
    let own := ofSelection d lines s
    (∀ before after : Text,
      let place := (before ++ ['\n']).size
      let text := before ++ ['\n'] ++ lines ++ ['\n'] ++ after
      let moved := ofSelection d text (s.moveRight place)
      place = before.size + 1 ∧ moved = own.moveRight place ∧ moved.selection =
        own.selection.moveRight place ∧
        (2 * text.size < Edit.wordModulus → 2 * own.opener.text.size <
          Edit.wordModulus →
          moved.wordSelection = own.wordSelection.moveRight place)) ∧
    ∀ (text : Text) (distance : Nat), text.HasSpan (s.moveRight distance) →
      text.touched (s.moveRight distance) =
        (lines.touched s).map (·.moveRight distance) →
      let moved := ofSelection d text (s.moveRight distance)
      moved = own.moveRight distance ∧ moved.selection =
        own.selection.moveRight distance := by
  intro own
  have hplaced : own.Placed lines := placed_ofSelection d hs
  have horigin : own.origin = s := origin_ofSelection d lines s
  have hselection : ∀ distance, (own.moveRight distance).selection =
      own.selection.moveRight distance := by
    apply selection_moveRight hplaced.opener_le
    rw [horigin]
    exact hs.ordered
  constructor
  · intro before after place text moved
    have hbefore : lastLine (before ++ ['\n']) = [] :=
      lastLine_eq_nil_iff.2 (.inr (by simp))
    have hafter : firstLine ('\n' :: after) = [] := rfl
    have hmoved : moved = own.moveRight place := by
      have hblock := ofSelection_block d hbefore hafter hs
      rwa [List.append_cons] at hblock
    refine ⟨size_append _ _, hmoved, by rw [hmoved, hselection], ?_⟩
    intro htext hopener
    have hspan : text.HasSpan (s.moveRight place) := by
      have hblock := hasSpan_block (before ++ ['\n']) ('\n' :: after) hs
      rwa [List.append_cons] at hblock
    have hlines : lines.size ≤ text.size := by
      simp only [text, size_append]
      omega
    have hword : moved.wordSelection = moved.selection := by
      apply (placed_ofSelection d hspan).wordSelection_eq
      · rw [origin_ofSelection]
        exact hspan
      · exact htext
      · show 2 * moved.opener.text.size < _
        rw [hmoved]
        exact hopener
    have hword' : own.wordSelection = own.selection :=
      hplaced.wordSelection_eq (horigin ▸ hs) (by omega) hopener
    rw [hword, hword', hmoved, hselection]
  · intro text distance hspan htouched moved
    have hregion := (agrees_iff_touched.2 htouched).region_eq hs hspan
    have hmoved : moved = own.moveRight distance := ofSelection_of_region d hregion
    exact ⟨hmoved, by rw [hmoved, hselection]⟩

/-- A tag over two lines of which the last one ends in a carriage return, with
delimiters in the neighbouring lines: the return belongs to the end of its
line in both texts. -/
theorem ofSelection_own_lines_returns :
    let lines : Text := "<% a\r\nb\r".toList
    let text : Text := "é <%=\n<% a\r\nb\r\n%>".toList
    lines.HasSpan ⟨3, 7⟩ ∧ ofSelection Family.erb.dialect text ⟨10, 14⟩ =
      ⟨⟨⟨10, 10⟩, "<% ".toList, .opener⟩, ⟨⟨14, 14⟩, " %>".toList, .closer⟩,
        ⟨10, 14⟩⟩ := by
  intro lines text
  have hs : lines.HasSpan ⟨3, 7⟩ := by decide
  obtain ⟨hblock, -⟩ := ofSelection_own_lines Family.erb.dialect hs
  obtain ⟨-, hmoved, -, -⟩ := hblock "é <%=".toList "%>".toList
  have hown : ofSelection Family.erb.dialect lines ⟨3, 7⟩ =
      ⟨⟨⟨3, 3⟩, "<% ".toList, .opener⟩, ⟨⟨7, 7⟩, " %>".toList, .closer⟩,
        ⟨3, 7⟩⟩ := by decide
  rw [hown] at hmoved
  exact ⟨hs, hmoved⟩

end TagEdit

end TemplateTags
