import TemplateTags.Text.Basic
/-!
# Spans

A span is a pair of byte offsets. It may be reversed, and need not lie in any
text: whether it does is asked of the text (`Text.slice?`).
-/

namespace TemplateTags

/-- A stretch of a text between two byte offsets. -/
structure Span where
  start : Nat
  stop : Nat
deriving DecidableEq, Repr

namespace Span

/-- Bytes between the two ends; a reversed span has none. -/
def length (s : Span) : Nat := s.stop - s.start

def isEmpty (s : Span) : Bool := s.stop ≤ s.start

/-- The empty span at an offset. -/
def point (offset : Nat) : Span := ⟨offset, offset⟩

/-- The same span with its ends in ascending order. -/
def ordered (s : Span) : Span := if s.start ≤ s.stop then s else ⟨s.stop, s.start⟩

/-- The span `offset` bytes further right. -/
def moveRight (s : Span) (offset : Nat) : Span := ⟨s.start + offset, s.stop + offset⟩

/-- An offset after a change of `delta` bytes to its left. It never falls below
the text's start. -/
def shiftOffset (offset : Nat) (delta : Int) : Nat := (offset + delta).toNat

/-- Both ends after a change of `delta` bytes to their left. -/
def shift (s : Span) (delta : Int) : Span :=
  ⟨shiftOffset s.start delta, shiftOffset s.stop delta⟩

/-- The written form, both offsets in decimal with two points between them. -/
def render (s : Span) : Text := Text.ofNat s.start ++ ['.', '.'] ++ Text.ofNat s.stop

theorem ordered_start_le_stop (s : Span) : s.ordered.start ≤ s.ordered.stop := by
  unfold ordered
  split <;> simp_all; omega

end Span

/-- The piece of the text that the span covers, if both ends are cuts of
the text in order. -/
def Text.slice? (text : Text) (s : Span) : Option Text :=
  if s.start ≤ s.stop then
    (text.splitAt? s.start).bind fun left =>
      (Text.splitAt? left.2 (s.stop - s.start)).map Prod.fst
  else none

end TemplateTags
