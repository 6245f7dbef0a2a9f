/-!
# Code point tables

A property of characters is given as the ascending list of the code point
ranges that have it.
-/

namespace TemplateTags

/-- The ranges of a property, first and last code point each, in ascending order. -/
abbrev CodeRanges := List (Nat × Nat)

/-- Whether a code point lies in one of the ranges. The search stops at the
first range behind it. -/
def CodeRanges.contains : CodeRanges → Nat → Bool
  | [], _ => false
  | (first, last) :: rest, code =>
    if code < first then false else code ≤ last || contains rest code

end TemplateTags
