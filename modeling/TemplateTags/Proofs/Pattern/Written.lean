import TemplateTags.Pattern.Escape
import TemplateTags.Pattern.Reader
import TemplateTags.Proofs.Pattern.Meaning
/-!
# Pieces of written patterns

What the pieces that a pattern is written with are read as: an escaped text is its
characters one by one (`readAs_escape`), and escaped characters in brackets are
the set of them (`readAs_set`). `ReadAs` speaks of a piece in front of anything,
so that pieces can be put together (`ReadAs.append`).
-/

namespace TemplateTags.Pattern

open Cursor

/-! ## Marks and items -/

/-- The mark of a character that is escaped if it needs to be. -/
def Mark.ofLiteral (c : Char) : Mark :=
  if c ∈ specialChars then .escaped c else .plain c

@[simp] theorem Mark.char_ofLiteral (c : Char) : (ofLiteral c).char = c := by
  unfold ofLiteral
  split <;> rfl

/-- A mark that stands for itself has no role. -/
theorem Mark.ofLiteral_ne_plain {c d : Char} (hd : d ∈ specialChars) :
    ofLiteral c ≠ .plain d := by
  unfold ofLiteral
  split
  next => simp
  next hc =>
    intro h
    cases h
    exact hc hd

theorem isEscapable_of_mem {c : Char} (h : c ∈ specialChars) :
    isEscapable c = true := by
  have hall : specialChars.all isEscapable = true := by decide
  exact List.all_eq_true.1 hall c h

theorem marks?_cons {c : Char} (h : c ≠ '\\') (rest : Text) :
    marks? (c :: rest) = (marks? rest).map (Mark.plain c :: ·) := by
  cases rest <;> simp [marks?, h]

theorem marks?_escape_append (text rest : Text) :
    marks? (escape text ++ rest) =
      (marks? rest).map (text.map Mark.ofLiteral ++ ·) := by
  induction text with
  | nil => simp [escape]
  | cons c text ih =>
    have hescape : escape (c :: text) = (if c ∈ specialChars then ['\\', c] else [c])
        ++ escape text := rfl
    rw [hescape, List.map_cons, Mark.ofLiteral]
    by_cases hc : c ∈ specialChars
    · simp only [hc, if_true, List.cons_append, List.nil_append, marks?,
        isEscapable_of_mem hc, ih, Option.map_map]
      rfl
    · have hne : c ≠ '\\' := by
        rintro rfl
        exact hc (by decide)
      simp only [hc, if_false, List.cons_append, List.nil_append, marks?_cons hne,
        ih, Option.map_map]
      rfl

/-- A piece of a written pattern that is read as some items, whatever
stands behind it. -/
def ReadAs (text : Text) (items : List Item) : Prop :=
  ∀ rest, (marks? (text ++ rest)).bind (items? .outside) =
    ((marks? rest).bind (items? .outside)).map (items ++ ·)

theorem ReadAs.nil : ReadAs [] [] := fun rest => by simp

theorem ReadAs.append {a b : Text} {x y : List Item} (ha : ReadAs a x)
    (hb : ReadAs b y) :
    ReadAs (a ++ b) (x ++ y) := by
  intro rest
  rw [List.append_assoc, ha, hb, Option.map_map]
  congr 1
  funext z
  simp

theorem ReadAs.items? {text : Text} {items : List Item} (h : ReadAs text items) :
    (marks? text).bind (Pattern.items? .outside) = some items := by
  simpa [marks?, Pattern.items?] using h []

/-- Marks that are read as items whatever stands behind them, as written. -/
theorem readAs_of_marks {text : Text} {items : List Item} (marks : List Mark)
    (hmarks : ∀ rest, marks? (text ++ rest) = (marks? rest).map (marks ++ ·))
    (hitems : ∀ rest, Pattern.items? .outside (marks ++ rest) =
      (Pattern.items? .outside rest).map (items ++ ·)) : ReadAs text items := by
  intro rest
  rw [hmarks]
  cases marks? rest with
  | none => rfl
  | some behind => exact hitems behind

/-- The part that a literal character is. -/
def Node.ofChar (c : Char) : Node := ⟨literal [c], 0⟩

theorem stepOutside_ofLiteral (c : Char) :
    Mode.stepOutside (Mark.ofLiteral c) = some (.outside, [.part (.ofChar c)]) := by
  have hitem : Item.ofMark? (Mark.ofLiteral c) = some (.part (.ofChar c)) := by
    unfold Mark.ofLiteral
    split
    next => rfl
    next hc =>
      unfold Item.ofMark?
      split <;> simp_all [specialChars]
      rfl
  unfold Mode.stepOutside
  rw [if_neg (Mark.ofLiteral_ne_plain (by decide)),
    if_neg (Mark.ofLiteral_ne_plain (by decide)), hitem]
  rfl

theorem readAs_escape (text : Text) :
    ReadAs (escape text) ((text.map Node.ofChar).map .part) := by
  refine readAs_of_marks _ (marks?_escape_append text) fun rest => ?_
  induction text with
  | nil => simp
  | cons c text ih =>
    simp only [List.map_cons, List.cons_append, Pattern.items?, Mode.step,
      stepOutside_ofLiteral, ih, Option.map_map]
    rfl

theorem readAs_open : ReadAs ['(', '?', ':'] [.opening false] := by
  refine readAs_of_marks [.plain '(', .plain '?', .plain ':']
    (fun rest => ?_) fun rest => ?_
  · simp [marks?_cons, Function.comp_def]
  · simp [Pattern.items?, Mode.step, Mode.stepOutside, Function.comp_def]

/-- A character that is an item of its own. -/
theorem readAs_sign {c : Char} {item : Item} (hc : c ≠ '\\')
    (hitem : Mode.stepOutside (.plain c) = some (.outside, [item])) :
    ReadAs [c] [item] := by
  refine readAs_of_marks [.plain c] (fun rest => ?_) fun rest => ?_
  · simp [marks?_cons hc]
  · simp [Pattern.items?, Mode.step, hitem]

/-- Inside brackets each escaped character becomes a member, until the closing
bracket. -/
theorem items?_inSet (x : Char) (chars : List Char) (ranges : List (Char × Char))
    (rest : List Mark) :
    Pattern.items? (.inSet ⟨false, false, ranges, .member (Mark.ofLiteral x)⟩)
        (chars.map Mark.ofLiteral ++ .plain ']' :: rest) =
      (Pattern.items? .outside rest).map
        (.part (nodeOfRanges false (ranges ++ (x :: chars).map fun c => (c, c))) ::
          ·) := by
  induction chars generalizing x ranges with
  | nil => simp [Pattern.items?, Mode.step, Mode.stepInSet, OpenSet.feed]
  | cons y chars ih =>
    have hfeed : OpenSet.feed ⟨false, false, ranges, .member (Mark.ofLiteral x)⟩
        (Mark.ofLiteral y) =
        .more ⟨false, false, ranges ++ [(x, x)], .member (Mark.ofLiteral y)⟩ := by
      have hoperation :
          OpenSet.isOperation (Mark.ofLiteral x) (Mark.ofLiteral y) = false := by
        unfold OpenSet.isOperation
        simp [Mark.ofLiteral_ne_plain (show '&' ∈ specialChars by decide),
          Mark.ofLiteral_ne_plain (show '~' ∈ specialChars by decide),
          Mark.ofLiteral_ne_plain (show '-' ∈ specialChars by decide)]
      simp [OpenSet.feed, OpenSet.begin, hoperation,
        Mark.ofLiteral_ne_plain (show ']' ∈ specialChars by decide),
        Mark.ofLiteral_ne_plain (show '[' ∈ specialChars by decide),
        Mark.ofLiteral_ne_plain (show '-' ∈ specialChars by decide)]
    simp only [List.map_cons, List.cons_append, Pattern.items?, Mode.step,
      Mode.stepInSet, hfeed, ih]
    simp [Option.map_map, Function.comp_def]

theorem readAs_set {chars : List Char} (h : chars ≠ []) :
    ReadAs (['['] ++ escape chars ++ [']'])
      [.part (nodeOfRanges false (chars.map fun c => (c, c)))] := by
  obtain ⟨x, chars, rfl⟩ := List.exists_cons_of_ne_nil h
  refine readAs_of_marks
    (.plain '[' :: ((x :: chars).map Mark.ofLiteral ++ [.plain ']']))
    (fun rest => ?_) fun rest => ?_
  · simp only [List.append_assoc, List.cons_append, List.nil_append]
    rw [marks?_cons (by decide), marks?_escape_append, marks?_cons (by decide)]
    simp [Option.map_map, Function.comp_def]
  · have hstep : Mode.step .afterBracket (Mark.ofLiteral x) =
        some (.inSet ⟨false, false, [], .member (Mark.ofLiteral x)⟩, []) := by
      simp [Mode.step, Mode.stepInSet, OpenSet.feed, OpenSet.begin,
        Mark.ofLiteral_ne_plain (show ']' ∈ specialChars by decide),
        Mark.ofLiteral_ne_plain (show '[' ∈ specialChars by decide),
        Mark.ofLiteral_ne_plain (show '^' ∈ specialChars by decide),
        Mark.ofLiteral_ne_plain (show '-' ∈ specialChars by decide)]
    have hopen : Mode.step .outside (.plain '[') = some (.afterBracket, []) := rfl
    simp only [List.map_cons, List.cons_append, List.append_assoc,
      List.nil_append, Pattern.items?, hopen, hstep, items?_inSet]
    simp [Option.map_map, Function.comp_def]

end TemplateTags.Pattern
