import TemplateTags.Pattern.Basic
/-!
# Reading patterns

A written pattern is read in three steps: a backslash is joined with the character
that it makes literal (`Pattern.Mark`), sets in brackets and the signs of groups
become one item each (`Pattern.Item`), and groups, alternatives and repetitions
are combined from the items with a stack of open groups. Each step goes through
its input once. `Pattern.read?` refuses a text that one of the steps cannot use.
-/

namespace TemplateTags.Pattern

/-! ## Marks -/

/-- A character of a written pattern: as it stands, or after a backslash and
so without a role. -/
inductive Mark where
  | plain (c : Char)
  | escaped (c : Char)
deriving DecidableEq, Repr

/-- The character itself. -/
def Mark.char : Mark → Char
  | .plain c => c
  | .escaped c => c

/-- Whether a backslash may stand before the character: ASCII space and
punctuation, but not the angle brackets, which do not stand for
themselves there. -/
def isEscapable (c : Char) : Bool :=
  ' ' ≤ c && c ≤ '~' && !c.isAlphanum && c ≠ '<' && c ≠ '>'

/-- Join each backslash with the character after it. -/
def marks? : Text → Option (List Mark)
  | [] => some []
  | ['\\'] => none
  | '\\' :: c :: rest =>
    if isEscapable c then (marks? rest).map (Mark.escaped c :: ·) else none
  | c :: rest => (marks? rest).map (Mark.plain c :: ·)

/-! ## Sets in brackets -/

/-- A member of a set that the next mark may extend to a range. -/
inductive Pending where
  | nothing
  /-- a member -/
  | member (first : Mark)
  /-- a member and a hyphen -/
  | range (first : Mark)
deriving DecidableEq, Repr

/-- A set whose closing bracket is still to come. -/
structure OpenSet where
  negated : Bool
  /-- whether there are only leading hyphens so far -/
  atFront : Bool
  ranges : List (Char × Char)
  pending : Pending
deriving DecidableEq, Repr

/-- What the next mark does to an open set. -/
inductive SetStep where
  | more (set : OpenSet)
  | closed (ranges : List (Char × Char))
  | refused
deriving DecidableEq, Repr

namespace OpenSet

/-- Two neighbouring marks that would be an operation on sets. -/
def isOperation (a b : Mark) : Bool :=
  a = b && (a = .plain '&' || a = .plain '~' || a = .plain '-')

/-- Begin a member after `ranges`. Sets are not nested, so no bracket opens here. -/
def begin (set : OpenSet) (ranges : List (Char × Char)) (m : Mark) : SetStep :=
  if m = .plain '[' then .refused
  else .more { set with atFront := false, ranges := ranges, pending := .member m }

/-- Take the next mark. A hyphen between two members makes a range of them; it is
a member itself at the front and before the closing bracket, and a closing bracket
at the very front is a member too. -/
def feed (set : OpenSet) (m : Mark) : SetStep :=
  if set.atFront && m = .plain '-' then
    .more { set with ranges := set.ranges ++ [('-', '-')] }
  else if set.atFront && set.ranges.isEmpty && m = .plain ']' then
    .more { set with atFront := false, ranges := [(']', ']')] }
  else
    match set.pending with
    | .nothing =>
      if m = .plain ']' then .closed set.ranges else set.begin set.ranges m
    | .member first =>
      let ranges := set.ranges ++ [(first.char, first.char)]
      if m = .plain ']' then .closed ranges
      else if isOperation first m then .refused
      else if m = .plain '-' then .more { set with pending := .range first }
      else set.begin ranges m
    | .range first =>
      if m = .plain ']' then
        .closed (set.ranges ++ [(first.char, first.char), ('-', '-')])
      else if m = .plain '-' then .refused
      else if first.char ≤ m.char then
        .more { set with
          ranges := set.ranges ++ [(first.char, m.char)], pending := .nothing }
      else .refused

end OpenSet

/-! ## Items -/

/-- A pattern that has been read, with the nesting depth of what was written. -/
structure Node where
  pattern : Pattern
  depth : Nat
deriving Repr

/-- An element of a written pattern. -/
inductive Item where
  /-- a pattern that is complete in itself -/
  | part (node : Node)
  /-- the start of a group, which may be one of the numbered ones -/
  | opening (numbered : Bool)
  | closing
  | bar
  | times (times : Repeat)
deriving Repr

/-- The set of ranges in brackets. Several members are one more level of nesting. -/
def nodeOfRanges (negated : Bool) (ranges : List (Char × Char)) : Node :=
  let set := CharSet.ofRanges ranges
  ⟨ofSet (if negated then set.complement else set),
    if ranges.length < 2 then 1 else 2⟩

/-- What stands before the next mark. -/
inductive Mode where
  | outside
  /-- an opening parenthesis -/
  | afterParen
  /-- an opening parenthesis and a question mark -/
  | afterParenMark
  /-- an opening bracket -/
  | afterBracket
  | inSet (set : OpenSet)
deriving Repr

/-- The item that a mark stands for where no group or set begins. A brace counts
repetitions, which patterns do not do, so it has to be escaped. -/
def Item.ofMark? : Mark → Option Item
  | .escaped c => some (.part ⟨literal [c], 0⟩)
  | .plain ')' => some .closing
  | .plain '|' => some .bar
  | .plain '?' => some (.times .optional)
  | .plain '*' => some (.times .star)
  | .plain '+' => some (.times .plus)
  | .plain '^' => some (.part ⟨textStart, 0⟩)
  | .plain '$' => some (.part ⟨textEnd, 0⟩)
  | .plain '.' => some (.part ⟨oneOf (CharSet.ofChars ['\n']).complement, 0⟩)
  | .plain '{' => none
  | .plain c => some (.part ⟨literal [c], 0⟩)

namespace Mode

/-- Take a mark outside of sets. -/
def stepOutside (m : Mark) : Option (Mode × List Item) :=
  if m = .plain '(' then some (afterParen, [])
  else if m = .plain '[' then some (afterBracket, [])
  else (Item.ofMark? m).map fun item => (outside, [item])

/-- Take a mark inside a set. -/
def stepInSet (set : OpenSet) (m : Mark) : Option (Mode × List Item) :=
  match set.feed m with
  | .more set => some (inSet set, [])
  | .closed ranges => some (outside, [.part (nodeOfRanges set.negated ranges)])
  | .refused => none

/-- The mode after a mark, and the items that the mark completes. -/
def step (mode : Mode) (m : Mark) : Option (Mode × List Item) :=
  match mode with
  | outside => stepOutside m
  | afterParen =>
    if m = .plain '?' then some (afterParenMark, [])
    else (stepOutside m).map fun next => (next.1, .opening true :: next.2)
  | afterParenMark =>
    if m = .plain ':' then some (outside, [.opening false]) else none
  | afterBracket =>
    if m = .plain '^' then some (inSet ⟨true, true, [], .nothing⟩, [])
    else stepInSet ⟨false, true, [], .nothing⟩ m
  | inSet set => stepInSet set m

end Mode

/-- The items of a written pattern. -/
def items? : Mode → List Mark → Option (List Item)
  | .outside, [] => some []
  | _, [] => none
  | mode, m :: rest =>
    match mode.step m with
    | none => none
    | some next => (items? next.1 rest).map (next.2 ++ ·)

/-! ## Groups -/

/-- A group that is not closed yet: its finished alternatives and the parts of the
last one, both with the latest first. The whole pattern counts as one. -/
structure OpenGroup where
  number : Option Nat
  branches : List Node
  parts : List Node
deriving Repr

/-- The deepest of several nodes and one level more. -/
def Node.depthAbove (nodes : List Node) : Nat :=
  nodes.foldl (fun depth node => max depth node.depth) 0 + 1

namespace OpenGroup

/-- The alternative that ends here. -/
def branch (g : OpenGroup) : Node :=
  match g.parts with
  | [] => ⟨empty, 0⟩
  | [node] => node
  | nodes => ⟨concat (nodes.reverse.map Node.pattern), Node.depthAbove nodes⟩

/-- All alternatives of the group. -/
def body (g : OpenGroup) : Node :=
  match g.branches with
  | [] => g.branch
  | branches =>
    let nodes := g.branch :: branches
    ⟨alternation (nodes.reverse.map Node.pattern), Node.depthAbove nodes⟩

/-- The closed group. -/
def node (g : OpenGroup) : Node :=
  let body := g.body
  match g.number with
  | none => ⟨body.pattern, body.depth + 1⟩
  | some number => ⟨group number body.pattern, body.depth + 1⟩

def push (g : OpenGroup) (node : Node) : OpenGroup :=
  { g with parts := node :: g.parts }

end OpenGroup

/-- The groups that are open at a place, and how many numbered ones began before
it. -/
structure Reading where
  current : OpenGroup
  outer : List OpenGroup
  numbered : Nat
  /-- whether the item before was a repetition -/
  justRepeated : Bool
deriving Repr

namespace Reading

def initial : Reading := ⟨⟨none, [], []⟩, [], 0, false⟩

/-- Take one item. A repetition needs a part to repeat; a question mark after a
repetition would ask for fewest instead of most, which patterns do not do. -/
def step (r : Reading) : Item → Option Reading
  | .part node =>
    some { r with current := r.current.push node, justRepeated := false }
  | .opening numbered =>
    let count := if numbered then r.numbered + 1 else r.numbered
    let number := if numbered then some count else none
    some ⟨⟨number, [], []⟩, r.current :: r.outer, count, false⟩
  | .closing =>
    match r.outer with
    | [] => none
    | g :: outer =>
      some { r with current := g.push r.current.node, outer, justRepeated := false }
  | .bar =>
    let current := { r.current with
      branches := r.current.branch :: r.current.branches, parts := [] }
    some { r with current, justRepeated := false }
  | .times times =>
    match r.current.parts with
    | [] => none
    | node :: parts =>
      if r.justRepeated && times = .optional then none
      else
        let repeatedNode : Node := ⟨repeated times node.pattern, node.depth + 1⟩
        some { r with current := { r.current with
          parts := repeatedNode :: parts }, justRepeated := true }

def run : Reading → List Item → Option Reading
  | r, [] => some r
  | r, item :: rest => (r.step item).bind fun r => run r rest

/-- The pattern, if every group is closed. -/
def finish (r : Reading) : Option Node :=
  match r.outer with
  | [] => some r.current.body
  | _ => none

end Reading

/-- How deeply a written pattern may be nested. -/
def maxDepth : Nat := 250

/-- Read a written pattern. -/
def read? (text : Text) : Option Pattern :=
  (marks? text).bind fun marks =>
    (items? .outside marks).bind fun items =>
      (Reading.initial.run items).bind fun r =>
        r.finish.bind fun node =>
          if node.depth ≤ maxDepth then some node.pattern else none

end TemplateTags.Pattern
