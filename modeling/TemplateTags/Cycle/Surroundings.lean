import TemplateTags.Dialect.Basic
import TemplateTags.Document.Buffer
/-!
# The tag around a selection

In the lines that a selection touches, `Surroundings.find` looks for the
last opener in front of the selection and the first closer behind it. Only
both together are a tag.
-/

namespace TemplateTags

/-- The delimiters found on both sides of a selection. -/
structure Surroundings where
  opener : Option Block
  closer : Option Block
deriving DecidableEq, Repr

namespace Surroundings

/-- The pair of delimiters, if both were found. -/
def pair? (s : Surroundings) : Option (Block × Block) :=
  s.opener.bind fun opener => s.closer.map fun closer => (opener, closer)

/-- The part of a region before an absolute offset and the part from there on. -/
def cutRegion? (region : Region) (offset : Nat) : Option (Text × Text) :=
  if offset < region.span.start then none
  else region.text.splitAt? (offset - region.span.start)

/-- Look for the delimiters of a dialect around a selection in a region. Where the
selection does not cut the region there are none. -/
def find (d : Dialect) (region : Region) (selection : Span) : Surroundings :=
  match cutRegion? region selection.start, cutRegion? region selection.stop with
  | some (left, _), some (_, right) =>
    ⟨(d.openerMatcher.findLast? left).map (·.moveRight region.span.start),
      (d.closerMatcher.findFirst? right).map (·.moveRight selection.stop)⟩
  | _, _ => ⟨none, none⟩

end Surroundings

end TemplateTags
