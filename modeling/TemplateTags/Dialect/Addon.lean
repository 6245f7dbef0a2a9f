import TemplateTags.Sorted
import TemplateTags.Text.Order
import TemplateTags.Pattern.Escape
/-!
# Addons

An addon is a pair of symbols that makes a variant of a dialect's bare tag: the
left symbol is written behind the opener, the right one in front of the closer.
`Addon.classPattern` is the pattern of all symbols on one side.
-/

namespace TemplateTags

/-- The side of a tag that a symbol is on. -/
inductive Side where
  /-- behind the opener -/
  | left
  /-- in front of the closer -/
  | right
deriving DecidableEq, Repr

/-- The symbols of one variant. Either may be empty. -/
structure Addon where
  left : Text
  right : Text
deriving DecidableEq, Repr

namespace Addon

def symbol (a : Addon) : Side → Text
  | .left => a.left
  | .right => a.right

/-- The different symbols on one side, in code point order. -/
def symbols (side : Side) (addons : List Addon) : List Text :=
  sortBy Text.isAtMost (addons.map (symbol · side)).eraseDups

/-- Order of the symbols in a pattern: longer ones come first, so that none is cut
short by another that it starts with. -/
def precedes (a b : Text) : Bool :=
  b.size < a.size || (a.size == b.size && a.isAtMost b)

/-- Whether a side may stay without a symbol. -/
def isOptional (side : Side) (addons : List Addon) : Bool :=
  addons.isEmpty || [] ∈ addons.map (symbol · side)

/-- The alternatives of the pattern: each longer symbol, then the set of
single characters. -/
def alternatives (side : Side) (addons : List Addon) : List Text :=
  let symbols := symbols side addons
  let long := sortBy precedes (symbols.filter fun s => 1 < s.length)
  let single := symbols.filter fun s => s.length == 1
  long.map Pattern.escape ++
    if single.isEmpty then [] else [['['] ++ single.flatMap Pattern.escape ++ [']']]

/-- The pattern of the symbols on one side; it is empty if there are none. -/
def classPattern (side : Side) (addons : List Addon) : Text :=
  let alternatives := alternatives side addons
  if alternatives.isEmpty then []
  else
    let group := ['(', '?', ':'] ++ Text.join ['|'] alternatives ++ [')']
    if isOptional side addons then group ++ ['?'] else group

end Addon

end TemplateTags
