import TemplateTags.Text.Basic
/-!
# Literal text in patterns

`Pattern.escape` writes a text so that, read as a pattern, it matches just that text.
-/

namespace TemplateTags.Pattern

/-- The characters that have a role in some place of a pattern. -/
def specialChars : List Char :=
  ['\\', '.', '+', '*', '?', '(', ')', '|', '[', ']', '{', '}', '^', '$',
    '#', '&', '-', '~']

/-- The pattern of a literal text: a backslash stands before each
special character. -/
def escape (text : Text) : Text :=
  text.flatMap fun c => if c ∈ specialChars then ['\\', c] else [c]

end TemplateTags.Pattern
