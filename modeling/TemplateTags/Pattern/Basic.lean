import TemplateTags.Text.Basic
import TemplateTags.Pattern.CharSet
/-!
# Patterns

A pattern is kept in a normal form that the functions `Pattern.concat`,
`Pattern.alternation`, `Pattern.ofSet` and `Pattern.repeated` build. The
form decides which of several matches is preferred: alternatives that start
with the same parts share them (`x?a` or `x?b` becomes `x?` followed by `a`
or `b`), so a choice made in the shared part is tried with every ending
before the next choice is.
-/

namespace TemplateTags

/-- What a pattern may match. Sequences and choices lean to the left. -/
inductive Pattern where
  /-- nothing, anywhere -/
  | empty
  /-- these characters -/
  | literal (text : Text)
  /-- one character of a set -/
  | oneOf (set : CharSet)
  /-- the place before the first character -/
  | textStart
  /-- the place after the last character -/
  | textEnd
  /-- one after the other -/
  | seq (first second : Pattern)
  /-- the first, and only then the second -/
  | choice (first second : Pattern)
  /-- the body, and only then nothing -/
  | optional (body : Pattern)
  /-- the body any number of times, more before fewer -/
  | star (body : Pattern)
  /-- the body at least once, more before fewer -/
  | plus (body : Pattern)
  /-- a numbered group; no two groups are the same part -/
  | group (number : Nat) (body : Pattern)
deriving DecidableEq, Repr

/-- How often a repeated pattern may occur. -/
inductive Repeat where
  | optional | star | plus
deriving DecidableEq, Repr

namespace Pattern

/-- The parts of a sequence, in order; a pattern that is no sequence is its only
part. -/
def parts : Pattern → List Pattern
  | empty => []
  | seq p q => parts p ++ [q]
  | p => [p]

/-- The alternatives of a choice, in order of preference. -/
def branches : Pattern → List Pattern
  | choice p q => branches p ++ [q]
  | p => [p]

/-- Join literals that stand side by side. -/
def joinLiterals : List Pattern → List Pattern
  | [] => []
  | p :: rest =>
    match p, joinLiterals rest with
    | literal s, literal t :: joined => literal (s ++ t) :: joined
    | p, joined => p :: joined

/-- The sequence with these parts. -/
def ofParts : List Pattern → Pattern
  | [] => empty
  | p :: rest => rest.foldl seq p

/-- One pattern after another, flattened and with neighbouring literals joined. -/
def concat (patterns : List Pattern) : Pattern :=
  ofParts (joinLiterals (patterns.flatMap parts))

/-- The choice between these alternatives. -/
def ofBranches : List Pattern → Pattern
  | [] => oneOf .empty
  | p :: rest => rest.foldl choice p

/-- One character of a set; a set of one is that character. -/
def ofSet (set : CharSet) : Pattern :=
  match set.single? with
  | some c => literal [c]
  | none => oneOf set

/-- The one character that a literal consists of. -/
def singleChar? : Pattern → Option Char
  | literal [c] => some c
  | _ => none

/-- The set that a pattern is one character of. -/
def set? : Pattern → Option CharSet
  | oneOf s => some s
  | _ => none

/-- Whether a pattern has at least two parts. -/
def isSeq : Pattern → Bool
  | seq _ _ => true
  | _ => false

/-- The longest common beginning of two lists. -/
def commonPrefix : List Pattern → List Pattern → List Pattern
  | p :: ps, q :: qs => if p = q then p :: commonPrefix ps qs else []
  | _, _ => []

/-- The parts that all of several sequences begin with. -/
def sharedParts (first : Pattern) (rest : List Pattern) : List Pattern :=
  if (first :: rest).all isSeq then
    rest.foldl (fun shared p => commonPrefix shared p.parts) first.parts
  else []

/-- The choice between these patterns in order. Single characters become one set,
and parts that all alternatives begin with are taken out in front, once. What then
remains of the alternatives is combined in the same way. -/
def alternationWithin : Nat → List Pattern → Pattern
  | 0, patterns => ofBranches patterns
  | fuel + 1, patterns =>
    match patterns.flatMap branches with
    | [] => oneOf .empty
    | [p] => p
    | p :: rest =>
      match (p :: rest).mapM singleChar?, (p :: rest).mapM set? with
      | some chars, _ => ofSet (CharSet.ofChars chars)
      | none, some sets => ofSet (sets.foldl CharSet.union .empty)
      | none, none =>
        match sharedParts p rest with
        | [] => ofBranches (p :: rest)
        | shared =>
          let tails := (p :: rest).map fun q => concat (q.parts.drop shared.length)
          concat (shared ++ [alternationWithin fuel tails])

/-- Number of constructors. -/
def size : Pattern → Nat
  | seq p q => size p + size q + 1
  | choice p q => size p + size q + 1
  | optional p => size p + 1
  | star p => size p + 1
  | plus p => size p + 1
  | group _ p => size p + 1
  | _ => 1

/-- The choice between these patterns in order, in normal form. Taking out
shared parts leaves smaller alternatives, so the size of all bounds how
often it can happen. -/
def alternation (patterns : List Pattern) : Pattern :=
  alternationWithin (patterns.foldl (fun total p => total + size p) 1) patterns

/-- Whether a pattern matches nothing else than the empty text. -/
def matchesOnlyEmpty : Pattern → Bool
  | empty => true
  | textStart => true
  | textEnd => true
  | literal text => text.isEmpty
  | oneOf _ => false
  | seq p q => matchesOnlyEmpty p && matchesOnlyEmpty q
  | choice p q => matchesOnlyEmpty p && matchesOnlyEmpty q
  | optional p => matchesOnlyEmpty p
  | star p => matchesOnlyEmpty p
  | plus p => matchesOnlyEmpty p
  | group _ p => matchesOnlyEmpty p

/-- Whether a pattern can match the empty text at some place. -/
def nullable : Pattern → Bool
  | empty => true
  | textStart => true
  | textEnd => true
  | literal text => text.isEmpty
  | oneOf _ => false
  | seq p q => nullable p && nullable q
  | choice p q => nullable p || nullable q
  | optional _ => true
  | star _ => true
  | plus p => nullable p
  | group _ p => nullable p

/-- A repeated pattern. One that matches only the empty text is not repeated. -/
def repeated (times : Repeat) (body : Pattern) : Pattern :=
  match times with
  | .optional => optional body
  | .star => if body.matchesOnlyEmpty then optional body else star body
  | .plus => if body.matchesOnlyEmpty then body else plus body

/-- Whether a pattern has no loop. -/
def isLoopFree : Pattern → Bool
  | seq p q => isLoopFree p && isLoopFree q
  | choice p q => isLoopFree p && isLoopFree q
  | optional p => isLoopFree p
  | star _ => false
  | plus _ => false
  | group _ p => isLoopFree p
  | _ => true

end Pattern

end TemplateTags
