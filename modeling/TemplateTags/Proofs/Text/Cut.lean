import TemplateTags.Document.Edit
/-!
# Cuts of a text

A byte offset at which a text can be divided is a cut of it (`IsCut`): the start,
the end and the places where a character ends. `HasSpan` says of a span that it
runs from one cut forward to another.

`splitAt?`, `slice?` and `cut` are described by concatenation here
(`splitAt?_eq_some_iff`, `slice?_eq_some_iff`, `cut_eq_ok_iff`). That form
determines the pieces, because a division of a text is known by the size of its
first piece (`append_inj_of_size`).
-/

namespace TemplateTags

namespace Text

theorem splitAt?_eq_some_iff {text : Text} {offset : Nat} {cut : Text × Text} :
    text.splitAt? offset = some cut ↔ text = cut.1 ++ cut.2 ∧
      cut.1.size = offset := by
  constructor
  · exact eq_append_of_splitAt?
  · rintro ⟨rfl, rfl⟩
    exact splitAt?_append cut.1 cut.2

/-- Two divisions of a text with first pieces of one size are the same. -/
theorem append_inj_of_size {a b c d : Text} (h : a ++ b = c ++ d)
    (hsize : a.size = c.size) :
    a = c ∧ b = d := by
  have hleft := splitAt?_append a b
  rw [h, hsize, splitAt?_append c d] at hleft
  simpa [eq_comm] using hleft

theorem size_eq_zero_iff {text : Text} : text.size = 0 ↔ text = [] := by
  cases text with
  | nil => simp
  | cons c rest =>
    have := c.utf8Size_pos
    simp only [size_cons, reduceCtorEq, iff_false]
    omega

theorem size_pos_iff {text : Text} : 0 < text.size ↔ text ≠ [] := by
  rw [Nat.pos_iff_ne_zero, Ne, size_eq_zero_iff]

/-- The shorter of two first pieces begins the longer one. -/
theorem exists_append_of_size_le {a b c d : Text} (h : a ++ b = c ++ d)
    (hsize : a.size ≤ c.size) :
    ∃ between, c = a ++ between ∧ b = between ++ d := by
  rcases List.append_eq_append_iff.1 h with ⟨between, hc, hb⟩ | ⟨between, ha, hd⟩
  · exact ⟨between, hc, hb⟩
  · have hzero : size between = 0 := by
      have := congrArg size ha
      rw [size_append] at this
      omega
    rw [size_eq_zero_iff] at hzero
    subst hzero
    exact ⟨[], by simpa using ha.symm, by simpa using hd.symm⟩

theorem splitFloor_append_size (before behind : Text) :
    splitFloor (before ++ behind) before.size = (before, behind) := by
  induction before with
  | nil =>
    cases behind with
    | nil => rfl
    | cons c rest =>
      have := c.utf8Size_pos
      simp [splitFloor, Nat.not_le.2 this]
  | cons c rest ih => simp [splitFloor, ih]

/-! ## Cuts -/

/-- A place where a text can be divided. -/
def IsCut (text : Text) (offset : Nat) : Prop :=
  ∃ before behind, text = before ++ behind ∧ before.size = offset

theorem isCut_iff_isSome {text : Text} {offset : Nat} :
    text.IsCut offset ↔ (text.splitAt? offset).isSome := by
  rw [Option.isSome_iff_exists]
  constructor
  · rintro ⟨before, behind, h⟩
    exact ⟨(before, behind), splitAt?_eq_some_iff.2 h⟩
  · rintro ⟨cut, h⟩
    exact ⟨cut.1, cut.2, splitAt?_eq_some_iff.1 h⟩

instance (text : Text) (offset : Nat) : Decidable (text.IsCut offset) :=
  decidable_of_iff _ isCut_iff_isSome.symm

theorem IsCut.le_size {text : Text} {offset : Nat} (h : text.IsCut offset) :
    offset ≤ text.size := by
  obtain ⟨before, behind, rfl, rfl⟩ := h
  simp

/-- Behind a first piece the cuts are those of the second piece, moved. -/
theorem isCut_append_iff {before behind : Text} {offset : Nat} :
    (before ++ behind).IsCut (before.size + offset) ↔ behind.IsCut offset := by
  constructor
  · rintro ⟨a, b, h, hsize⟩
    obtain ⟨between, rfl, rfl⟩ := exists_append_of_size_le h (by omega)
    exact ⟨between, b, rfl, by simpa using hsize⟩
  · rintro ⟨a, b, rfl, rfl⟩
    exact ⟨before ++ a, b, by simp, by simp⟩

theorem cut_eq_ok_iff {text : Text} {offset : Nat} {pieces : Text × Text} :
    text.cut offset = .ok pieces ↔ text = pieces.1 ++ pieces.2 ∧
      pieces.1.size = offset := by
  rw [← splitAt?_eq_some_iff]
  unfold cut
  cases text.splitAt? offset <;> simp

theorem cut_append (before behind : Text) :
    (before ++ behind).cut before.size = .ok (before, behind) :=
  cut_eq_ok_iff.2 ⟨rfl, rfl⟩

/-! ## Spans -/

/-- A span from one cut of a text forward to another. -/
structure HasSpan (text : Text) (s : Span) : Prop where
  ordered : s.start ≤ s.stop
  start : text.IsCut s.start
  stop : text.IsCut s.stop

theorem slice?_eq_some_iff {text piece : Text} {s : Span} :
    text.slice? s = some piece ↔
      ∃ before behind, text = before ++ piece ++ behind ∧ before.size = s.start ∧
        before.size + piece.size = s.stop := by
  unfold slice?
  constructor
  · intro h
    split at h
    next hle =>
      obtain ⟨left, hleft, h⟩ := Option.bind_eq_some_iff.1 h
      obtain ⟨right, hright, rfl⟩ := Option.map_eq_some_iff.1 h
      obtain ⟨htext, hstart⟩ := splitAt?_eq_some_iff.1 hleft
      obtain ⟨hpiece, hstop⟩ := splitAt?_eq_some_iff.1 hright
      refine ⟨left.1, right.2, ?_, hstart, by omega⟩
      rw [htext, hpiece, List.append_assoc]
    next => cases h
  · rintro ⟨before, behind, rfl, hstart, hstop⟩
    rw [if_pos (by omega), List.append_assoc, ← hstart, splitAt?_append,
      Option.bind_some,
      show s.stop - before.size = piece.size by omega, splitAt?_append,
          Option.map_some]

theorem HasSpan.ordered_eq {text : Text} {s : Span} (h : text.HasSpan s) :
    s.ordered = s := by
  unfold Span.ordered
  rw [if_pos h.ordered]

/-- A span of a text divides it into three pieces. -/
theorem HasSpan.exists_append {text : Text} {s : Span} (h : text.HasSpan s) :
    ∃ before piece behind, text = before ++ piece ++ behind ∧ before.size = s.start ∧
      before.size + piece.size = s.stop := by
  obtain ⟨before, rest, rfl, hstart⟩ := h.start
  obtain ⟨left, behind, happ, hstop⟩ := h.stop
  have hle := h.ordered
  obtain ⟨piece, rfl, rfl⟩ := exists_append_of_size_le happ (by omega)
  exact ⟨before, piece, behind, by simp, hstart, by simpa using hstop⟩

theorem hasSpan_of_append {before piece behind : Text} {s : Span}
    (hstart : before.size = s.start) (hstop : before.size + piece.size = s.stop) :
    (before ++ piece ++ behind).HasSpan s where
  ordered := by omega
  start := ⟨before, piece ++ behind, by simp, hstart⟩
  stop := ⟨before ++ piece, behind, rfl, by simpa using hstop⟩

/-- The spans of a text are those that have a piece of it. -/
theorem hasSpan_iff_isSome {text : Text} {s : Span} :
    text.HasSpan s ↔ (text.slice? s).isSome := by
  rw [Option.isSome_iff_exists]
  constructor
  · intro h
    obtain ⟨before, piece, behind, hpieces⟩ := h.exists_append
    exact ⟨piece, slice?_eq_some_iff.2 ⟨before, behind, hpieces⟩⟩
  · rintro ⟨piece, h⟩
    obtain ⟨before, behind, rfl, hstart, hstop⟩ := slice?_eq_some_iff.1 h
    exact hasSpan_of_append hstart hstop

instance (text : Text) (s : Span) : Decidable (text.HasSpan s) :=
  decidable_of_iff _ hasSpan_iff_isSome.symm

theorem slice?_append (before piece behind : Text) :
    (before ++ piece ++ behind).slice? ⟨before.size, before.size + piece.size⟩ =
      some piece :=
  slice?_eq_some_iff.2 ⟨before, behind, rfl, rfl, rfl⟩

end Text

end TemplateTags
