/-!
# Character sets

A set of characters is kept as the ascending list of its maximal intervals, so
that equal sets are equal values. Intervals are taken over the *rank* of a
character, its place among all characters; ranks have no gap where the code points
do, so `complement` needs no special case.
-/

namespace TemplateTags

/-- Place of a character among all characters in code point order. -/
def charRank (c : Char) : Nat :=
  if c.toNat < 0xD800 then c.toNat else c.toNat - 0x800

/-- The character at a place in code point order. -/
def charOfRank (rank : Nat) : Char :=
  Char.ofNat (if rank < 0xD800 then rank else rank + 0x800)

/-- Rank of the last character, U+10FFFF. -/
def lastRank : Nat := 0x10F7FF

/-- The intervals of ranks in a set: ascending, and neighbours do not touch. -/
structure CharSet where
  intervals : List (Nat × Nat)
deriving DecidableEq, Repr

namespace CharSet

def empty : CharSet := ⟨[]⟩

/-- Add an interval and join it with those that it meets or touches. -/
def insertInterval (low high : Nat) : List (Nat × Nat) → List (Nat × Nat)
  | [] => [(low, high)]
  | (a, b) :: rest =>
    if high + 1 < a then (low, high) :: (a, b) :: rest
    else if b + 1 < low then (a, b) :: insertInterval low high rest
    else insertInterval (min low a) (max high b) rest

/-- Add the characters from `first` to `last`. -/
def insertRange (s : CharSet) (first last : Char) : CharSet :=
  ⟨insertInterval (charRank first) (charRank last) s.intervals⟩

def ofRanges (ranges : List (Char × Char)) : CharSet :=
  ranges.foldl (fun s r => s.insertRange r.1 r.2) empty

def ofChars (chars : List Char) : CharSet := ofRanges (chars.map fun c => (c, c))

def union (s t : CharSet) : CharSet :=
  ⟨t.intervals.foldl (fun acc r => insertInterval r.1 r.2 acc) s.intervals⟩

/-- The gaps between intervals, from rank `start` on. -/
def gapsFrom (start : Nat) : List (Nat × Nat) → List (Nat × Nat)
  | [] => if start ≤ lastRank then [(start, lastRank)] else []
  | (a, b) :: rest =>
    if start < a then (start, a - 1) :: gapsFrom (b + 1) rest
    else gapsFrom (b + 1) rest

/-- All characters that are not in the set. -/
def complement (s : CharSet) : CharSet := ⟨gapsFrom 0 s.intervals⟩

def contains (s : CharSet) (c : Char) : Bool :=
  s.intervals.any fun r => r.1 ≤ charRank c && charRank c ≤ r.2

/-- The only member of a set that has just one. -/
def single? (s : CharSet) : Option Char :=
  match s.intervals with
  | [(a, b)] => if a = b then some (charOfRank a) else none
  | _ => none

end CharSet

end TemplateTags
