import TemplateTags.Text.Span
import TemplateTags.Pattern.Reader
import TemplateTags.Pattern.Occurrence
/-!
# Matchers

A matcher looks for the blocks of a text that match a pattern. Its guard, if it
has one, is a literal that must not follow: a match with the guard anywhere behind
it does not count. `Matcher.findAll` goes through the matches from the left; of
those that count it takes each that does not begin inside the one taken before.
-/

namespace TemplateTags

/-- A place where a delimiter stands, and how it is written there. -/
structure Block where
  span : Span
  text : Text
deriving DecidableEq, Repr

/-- The block `offset` bytes further right. -/
def Block.moveRight (b : Block) (offset : Nat) : Block :=
  { b with span := b.span.moveRight offset }

/-- A pattern as written and as read, with the literal that must not follow a
match. -/
structure Matcher where
  source : Text
  pattern : Pattern
  guard : Option Text
deriving Repr

namespace Matcher

/-- The matcher of a written pattern, without a guard. -/
def ofText? (source : Text) : Option Matcher :=
  (Pattern.read? source).map fun pattern => ⟨source, pattern, none⟩

def withGuard (m : Matcher) (guard : Text) : Matcher :=
  { m with guard := some guard }

/-- Whether a text behind a match makes the match count for nothing. -/
def rejects (m : Matcher) (behind : Text) : Bool :=
  match m.guard with
  | none => false
  | some guard => Text.contains guard behind

/-- The characters from a cursor to a later one. -/
def between (start stop : Cursor) : Text :=
  (Text.splitFloor start.rest (stop.offset - start.offset)).1

/-- The block of a match. -/
def block (start stop : Cursor) : Block :=
  ⟨⟨start.offset, stop.offset⟩, between start stop⟩

/-- The blocks among matches, of which none counts that begins before `resume`. -/
def scan (m : Matcher) (resume : Nat) : List (Cursor × Cursor) → List Block
  | [] => []
  | (start, stop) :: rest =>
    if start.offset < resume || m.rejects stop.rest then scan m resume rest
    else block start stop :: scan m stop.offset rest

/-- All blocks of a text that count, from left to right. No two of them overlap. -/
def findAll (m : Matcher) (text : Text) : List Block :=
  m.scan 0 (m.pattern.occurrences text)

/-- The block that begins last. -/
def findLast? (m : Matcher) (text : Text) : Option Block := (m.findAll text).getLast?

/-- The block that begins first. -/
def findFirst? (m : Matcher) (text : Text) : Option Block := (m.findAll text).head?

end Matcher

end TemplateTags
