/-!
# Text

A text is a list of characters, and a position in it is a count of the bytes that
its UTF-8 form takes. `Text.size` is the length in that measure; `Text.splitAt?`
and `Text.splitFloor` cut at a position, the first only where a character ends,
the second at the nearest such place to the left.
-/

namespace TemplateTags

/-- The characters of a text, in order. -/
abbrev Text := List Char

namespace Text

/-- Length in bytes of the UTF-8 form. -/
def size : Text → Nat
  | [] => 0
  | c :: rest => c.utf8Size + size rest

/-- Cut at a byte offset. No cut lies inside a character or past the end. -/
def splitAt? : Text → Nat → Option (Text × Text)
  | text, 0 => some ([], text)
  | [], _ + 1 => none
  | c :: rest, offset + 1 =>
    if c.utf8Size ≤ offset + 1 then
      (splitAt? rest (offset + 1 - c.utf8Size)).map fun cut => (c :: cut.1, cut.2)
    else none

/-- Cut at a byte offset, moved left to the nearest place where a character ends. -/
def splitFloor : Text → Nat → Text × Text
  | [], _ => ([], [])
  | c :: rest, offset =>
    if c.utf8Size ≤ offset then
      let cut := splitFloor rest (offset - c.utf8Size)
      (c :: cut.1, cut.2)
    else ([], c :: rest)

/-- Whether `part` occurs somewhere in the text. -/
def contains (part : Text) : Text → Bool
  | [] => part.isEmpty
  | c :: rest => part.isPrefixOf (c :: rest) || contains part rest

/-- The texts on both sides of the first occurrence of a nonempty separator. -/
def splitFirst? (separator : Text) : Text → Option (Text × Text)
  | [] => none
  | c :: rest =>
    if separator.isPrefixOf (c :: rest) then
      some ([], (c :: rest).drop separator.length)
    else (splitFirst? separator rest).map fun cut => (c :: cut.1, cut.2)

/-- The decimal digits of a number, without leading zeros. -/
def ofNat (n : Nat) : Text := Nat.toDigits 10 n

/-- The texts one after another, with `separator` between neighbours. -/
def join (separator : Text) : List Text → Text
  | [] => []
  | [text] => text
  | text :: rest => text ++ separator ++ join separator rest

@[simp] theorem size_nil : size [] = 0 := rfl

@[simp] theorem size_cons (c : Char) (rest : Text) :
    size (c :: rest) = c.utf8Size + size rest := rfl

@[simp] theorem size_append (a b : Text) : size (a ++ b) = size a + size b := by
  induction a with
  | nil => simp
  | cons c rest ih => simp [ih, Nat.add_assoc]

theorem eq_append_of_splitAt? {text : Text} {offset : Nat} {cut : Text × Text}
    (h : splitAt? text offset = some cut) :
    text = cut.1 ++ cut.2 ∧ size cut.1 = offset := by
  induction text generalizing offset cut with
  | nil => cases offset <;> simp_all [splitAt?]; subst h; simp
  | cons c rest ih =>
    cases offset with
    | zero => simp [splitAt?] at h; subst h; simp
    | succ offset =>
      simp only [splitAt?] at h
      split at h
      next hc =>
        obtain ⟨inner, hinner, rfl⟩ := Option.map_eq_some_iff.1 h
        obtain ⟨happ, hsize⟩ := ih hinner
        simp only [List.cons_append, size_cons, hsize]
        exact ⟨by rw [← happ], by omega⟩
      next => simp at h

theorem splitAt?_append (a b : Text) : splitAt? (a ++ b) (size a) = some (a, b) := by
  induction a with
  | nil => cases b <;> simp [splitAt?]
  | cons c rest ih =>
    have hpos := c.utf8Size_pos
    obtain ⟨k, hk⟩ : ∃ k, size (c :: rest) = k + 1 :=
      ⟨c.utf8Size + size rest - 1, by simp; omega⟩
    rw [List.cons_append, hk]
    have hrest : k + 1 - c.utf8Size = size rest := by simp at hk; omega
    have hle : c.utf8Size ≤ k + 1 := by simp at hk; omega
    simp [splitAt?, hle, hrest, ih]

theorem splitFloor_append (text : Text) (offset : Nat) :
    (splitFloor text offset).1 ++ (splitFloor text offset).2 = text := by
  induction text generalizing offset with
  | nil => simp [splitFloor]
  | cons c rest ih =>
    simp only [splitFloor]
    split <;> simp [ih]

end Text

end TemplateTags
