import TemplateTags.Command.Selection
/-!
# Selections that are read back

Selections are printed as two numbers with two points between them. What is
printed is read back as the same selection, as long as its offsets are numbers
that can be read at all (`selection?_render`).
-/

namespace TemplateTags

namespace Text

/-! ## Numbers -/

theorem isDigit_of_mem_ofNat {n : Nat} {c : Char} (h : c ∈ ofNat n) : c.isDigit :=
  Nat.isDigit_of_mem_toDigits (by decide) (by decide) h

theorem ofNat_ne_nil (n : Nat) : ofNat n ≠ [] := Nat.toDigits_ne_nil

theorem ofDigits_ofNat (n : Nat) : ofDigits (ofNat n) = n :=
  Nat.ofDigitChars_ten_toDigits

/-- A number that is written in decimal is read back. -/
theorem toNat?_ofNat {limit n : Nat} (h : n ≤ limit) :
    toNat? limit (ofNat n) = some n := by
  have hsign : (ofNat n).head? ≠ some '+' := by
    intro hhead
    have hdigit := isDigit_of_mem_ofNat (List.mem_of_mem_head? hhead)
    cases hdigit
  have hdigits : (ofNat n).all Char.isDigit = true :=
    List.all_eq_true.2 fun c hc => isDigit_of_mem_ofNat hc
  have hempty : (ofNat n).isEmpty = false :=
    List.isEmpty_eq_false_iff.2 (ofNat_ne_nil n)
  unfold toNat?
  simp only [if_neg hsign, hempty, hdigits, ofDigits_ofNat, Nat.not_lt.2 h]
  rfl

/-! ## Blanks and separators -/

theorem isBlank_of_isDigit {c : Char} (h : c.isDigit) : isBlank c = false := by
  have hrange : 48 ≤ c.toNat ∧ c.toNat ≤ 57 := by
    simp only [Char.isDigit, Bool.and_eq_true, decide_eq_true_eq] at h
    exact ⟨h.1, h.2⟩
  -- The digits lie behind the space and in front of the third range.
  have hbelow : ¬ c.toNat < 9 ∧ ¬ c.toNat ≤ 13 ∧ ¬ c.toNat < 32 ∧ ¬ c.toNat ≤ 32 ∧
      c.toNat < 133 := by omega
  simp [isBlank, blankRanges, CodeRanges.contains, hbelow]

theorem trim_eq_self {text : Text} (h : ∀ c ∈ text, isBlank c = false) :
    text.trim = text := by
  have hdrop (t : Text) (ht : ∀ c ∈ t, isBlank c = false) :
      t.dropWhile isBlank = t := by
    cases t with
    | nil => rfl
    | cons c rest =>
      rw [List.dropWhile_cons_of_neg (by simp [ht c List.mem_cons_self])]
  unfold trim
  rw [hdrop text h, hdrop text.reverse fun c hc => h c (List.mem_reverse.1 hc),
    List.reverse_reverse]

/-- A separator is found behind a text that its first character is not in. -/
theorem splitFirst?_append {c : Char} {front : Text} (h : c ∉ front)
    (separator rest : Text) :
    splitFirst? (c :: separator) (front ++ (c :: separator) ++ rest) =
      some (front, rest) := by
  induction front with
  | nil => simp [splitFirst?]
  | cons d front ih =>
    obtain ⟨hd, hfront⟩ := not_or.1 (mt List.mem_cons.2 h)
    simp only [List.cons_append, splitFirst?]
    rw [if_neg (by simp [hd]), ih hfront]
    rfl

end Text

namespace Command

open Text

theorem offset?_ofNat {n : Nat} (h : n ≤ maxNumber) :
    offset? (ofNat n) = some n := by
  unfold offset?
  rw [trim_eq_self fun c hc => isBlank_of_isDigit (isDigit_of_mem_ofNat hc),
    toNat?_ofNat h]

/-- A selection that is printed is read back as it was. -/
theorem selection?_render {s : Span} (hstart : s.start ≤ maxNumber)
    (hstop : s.stop ≤ maxNumber) :
    selection? s.render = some s := by
  have hpoint : '.' ∉ ofNat s.start := by
    intro hmem
    have hdigit := isDigit_of_mem_ofNat hmem
    cases hdigit
  unfold selection? Span.render
  rw [splitFirst?_append hpoint]
  simp [offset?_ofNat hstart, offset?_ofNat hstop]

end Command

end TemplateTags
