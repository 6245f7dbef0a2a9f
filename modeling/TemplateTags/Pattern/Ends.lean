import TemplateTags.Pattern.Basic
/-!
# Where a pattern's matches end

`Pattern.ends` lists the places where a match that begins at a cursor can end, the
preferred one first and each once. A sequence tries every end of its second part
before the next end of its first part. A loop has no ends here (`Pattern.Graph` is
for those); without loops the list says all there is to say.
-/

namespace TemplateTags

/-- A place in a text: its byte offset, and the text from there on. -/
structure Cursor where
  offset : Nat
  rest : Text
deriving DecidableEq, Repr

namespace Cursor

/-- The cursor behind `text`, if the text goes on with it. -/
def skip? (here : Cursor) : Text → Option Cursor
  | [] => some here
  | c :: text =>
    match here.rest with
    | [] => none
    | d :: rest =>
      if c = d then skip? ⟨here.offset + d.utf8Size, rest⟩ text else none

/-- The cursor behind the next character, if that is in a set. -/
def skipSet? (here : Cursor) (set : CharSet) : Option Cursor :=
  match here.rest with
  | [] => none
  | c :: rest =>
    if set.contains c then some ⟨here.offset + c.utf8Size, rest⟩ else none

/-- Remove cursors whose place is among `seen` or earlier in the list. -/
def distinctFrom (seen : List Nat) : List Cursor → List Cursor
  | [] => []
  | c :: rest =>
    if c.offset ∈ seen then distinctFrom seen rest
    else c :: distinctFrom (c.offset :: seen) rest

/-- Keep the first cursor at each place. -/
def distinct (cursors : List Cursor) : List Cursor := distinctFrom [] cursors

end Cursor

namespace Pattern

/-- The ends of the matches from a cursor, in order of preference. A loop has
none. -/
def ends : Pattern → Cursor → List Cursor
  | empty, c => [c]
  | literal text, c => (c.skip? text).toList
  | oneOf set, c => (c.skipSet? set).toList
  | textStart, c => if c.offset = 0 then [c] else []
  | textEnd, c => if c.rest.isEmpty then [c] else []
  | seq p q, c => Cursor.distinct ((ends p c).flatMap (ends q))
  | choice p q, c => Cursor.distinct (ends p c ++ ends q c)
  | optional p, c => Cursor.distinct (ends p c ++ [c])
  | star _, _ => []
  | plus _, _ => []
  | group _ p, c => ends p c

end Pattern

end TemplateTags
