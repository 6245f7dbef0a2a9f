import TemplateTags.Pattern.Graph
/-!
# Occurrences of a pattern

`Pattern.firstEnd?` is the end of the match that a pattern prefers at a
cursor, and `Pattern.occurrences` are these matches for all places of a
text (`occurrences_eq`).
-/

namespace TemplateTags

/-- All places of a text, the first of which is at `offset`. -/
def Cursor.allFrom (offset : Nat) : Text → List Cursor
  | [] => [⟨offset, []⟩]
  | c :: rest => ⟨offset, c :: rest⟩ :: allFrom (offset + c.utf8Size) rest

namespace Pattern

/-- The end of the preferred match at each place of a text, the first of
which is at `offset`. -/
def endsFrom (p : Pattern) (offset : Nat) (text : Text) : List (Option Cursor) :=
  if p.isLoopFree then (Cursor.allFrom offset text).map fun c => (p.ends c).head?
  else (p.graph.2.rowsFrom offset text).map fun row => Graph.endBehind? row p.graph.1

/-- The end of the preferred match at a cursor. -/
def firstEnd? (p : Pattern) (c : Cursor) : Option Cursor :=
  ((p.endsFrom c.offset c.rest).head?).join

/-- The preferred matches at all places of a text that have one: where each begins
and where it ends. -/
def occurrences (p : Pattern) (text : Text) : List (Cursor × Cursor) :=
  ((Cursor.allFrom 0 text).zip (p.endsFrom 0 text)).filterMap fun place =>
    place.2.map fun stop => (place.1, stop)

theorem endsFrom_nil (p : Pattern) (offset : Nat) :
    p.endsFrom offset [] = [p.firstEnd? ⟨offset, []⟩] := by
  unfold firstEnd? endsFrom
  split <;> simp [Cursor.allFrom, Graph.rowsFrom]

theorem endsFrom_cons (p : Pattern) (offset : Nat) (c : Char) (rest : Text) :
    p.endsFrom offset (c :: rest) =
      p.firstEnd? ⟨offset, c :: rest⟩ :: p.endsFrom (offset + c.utf8Size) rest := by
  unfold firstEnd? endsFrom
  split <;> simp [Cursor.allFrom, Graph.rowsFrom]

/-- The ends for a whole text are those for each of its places. -/
theorem endsFrom_eq_map (p : Pattern) (offset : Nat) (text : Text) :
    p.endsFrom offset text = (Cursor.allFrom offset text).map p.firstEnd? := by
  induction text generalizing offset with
  | nil => simp [endsFrom_nil, Cursor.allFrom]
  | cons c rest ih => simp [endsFrom_cons, Cursor.allFrom, ih]

theorem occurrences_eq (p : Pattern) (text : Text) :
    p.occurrences text =
      (Cursor.allFrom 0 text).filterMap fun c => (p.firstEnd? c).map fun stop =>
        (c, stop) := by
  rw [occurrences, endsFrom_eq_map]
  generalize Cursor.allFrom 0 text = places
  induction places with
  | nil => rfl
  | cons c rest ih => simp [List.filterMap_cons, ih]

end Pattern

end TemplateTags
