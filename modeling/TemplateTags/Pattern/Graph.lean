import TemplateTags.Pattern.Ends
/-!
# Patterns as graphs

A pattern with loops is laid out as a graph of states (`Pattern.graph`). A
match is a walk from the entry to the accepting state; where the graph
forks, the preferred way is tried first. Whether a walk can be finished
depends only on the state and on the text that is left, so the ends of the
preferred walks are computed for all states at once, from the end of the
text to its start (`Graph.rowsFrom`).
-/

namespace TemplateTags.Pattern

/-- A state of the graph. -/
inductive State where
  | accept
  | char (c : Char) (next : Nat)
  | oneOf (set : CharSet) (next : Nat)
  | textStart (next : Nat)
  | textEnd (next : Nat)
  | fork (preferred other : Nat)
deriving Repr

/-- The states of a pattern, by number. -/
abbrev Graph := Array State

/-- The ends of the preferred walks from one place of a text, by the number of the
state they begin in. -/
abbrev Row := Array (Option Cursor)

namespace Graph

/-! ## Layout -/

/-- Add a state and return its number. -/
def add (g : Graph) (s : State) : Nat × Graph := (g.size, g.push s)

/-- Lay out the characters of a literal in front of the state `next`. -/
def addLiteral : Text → Nat → Graph → Nat × Graph
  | [], next, g => (next, g)
  | c :: rest, next, g =>
    let tail := addLiteral rest next g
    tail.2.add (.char c tail.1)

/-- Lay out a pattern in front of the state `next`, and return where it is
entered. A loop is entered at its fork if its body cannot be empty; if it can,
the body comes first and the fork after it, so that an empty round does not
hide a longer one. -/
def addPattern : Pattern → Nat → Graph → Nat × Graph
  | .empty, next, g => (next, g)
  | .literal text, next, g => addLiteral text next g
  | .oneOf set, next, g => g.add (.oneOf set next)
  | .textStart, next, g => g.add (.textStart next)
  | .textEnd, next, g => g.add (.textEnd next)
  | .seq p q, next, g =>
    let second := addPattern q next g
    addPattern p second.1 second.2
  | .choice p q, next, g =>
    let first := addPattern p next g
    let second := addPattern q next first.2
    second.2.add (.fork first.1 second.1)
  | .optional p, next, g =>
    let body := addPattern p next g
    body.2.add (.fork body.1 next)
  | .star p, next, g =>
    let fork := g.size
    let body := addPattern p fork (g.push .accept)
    let looped := body.2.setIfInBounds fork (.fork body.1 next)
    if p.nullable then add looped (.fork body.1 next) else (fork, looped)
  | .plus p, next, g =>
    let fork := g.size
    let body := addPattern p fork (g.push .accept)
    (body.1, body.2.setIfInBounds fork (.fork body.1 next))
  | .group _ p, next, g => addPattern p next g

/-! ## Walks -/

/-- The end of the preferred walk from a state behind the next character. -/
def endBehind? (behind : Row) (next : Nat) : Option Cursor := (behind[next]?).join

/-- The end of a walk that accepts at once or reads the next character at once. -/
def endAtOnce? (behind : Row) (c : Cursor) : State → Option Cursor
  | .accept => some c
  | .char d next => (c.skip? [d]).bind fun _ => endBehind? behind next
  | .oneOf set next => (c.skipSet? set).bind fun _ => endBehind? behind next
  | _ => none

/-- The states that a walk can go on to without reading a character, the
preferred one first. -/
def silentSteps (c : Cursor) : State → List Nat
  | .textStart next => if c.offset = 0 then [next] else []
  | .textEnd next => if c.rest.isEmpty then [next] else []
  | .fork preferred other => [preferred, other]
  | _ => []

/-- The end of the preferred walk from the first of the waiting states that has
one. No state is tried twice at a place: a second try could only repeat the first.
The fuel bounds the number of tries. -/
def firstEnd? (g : Graph) (behind : Row) (c : Cursor) :
    Nat → List Nat → List Nat → Option Cursor
  | 0, _, _ => none
  | _ + 1, [], _ => none
  | fuel + 1, number :: waiting, seen =>
    if number ∈ seen then firstEnd? g behind c fuel waiting seen
    else
      match g[number]? with
      | none => firstEnd? g behind c fuel waiting seen
      | some s =>
        (endAtOnce? behind c s).or
          (firstEnd? g behind c fuel (silentSteps c s ++ waiting) (number :: seen))

/-- The row of a place, from the row behind the next character. Each state is
tried once and adds at most two more, which the fuel allows for. -/
def rowAt (g : Graph) (behind : Row) (c : Cursor) : Row :=
  (Array.range g.size).map fun number =>
    firstEnd? g behind c (2 * g.size + 2) [number] []

/-- The rows of all places of a text, the first of which is at `offset`. -/
def rowsFrom (g : Graph) (offset : Nat) : Text → List Row
  | [] => [g.rowAt #[] ⟨offset, []⟩]
  | c :: rest =>
    let later := rowsFrom g (offset + c.utf8Size) rest
    g.rowAt (later.headD #[]) ⟨offset, c :: rest⟩ :: later

end Graph

/-- The graph of a pattern and the number of its entry. -/
def graph (p : Pattern) : Nat × Graph := Graph.addPattern p 0 #[.accept]

end TemplateTags.Pattern
