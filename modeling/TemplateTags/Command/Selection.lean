import TemplateTags.Text.Blank
import TemplateTags.Text.Number
import TemplateTags.Text.Span
/-!
# Selections on the command line

A selection is written as an offset or as two with two points between them.
-/

namespace TemplateTags.Command

/-- An offset with blanks around it. -/
def offset? (text : Text) : Option Nat := Text.toNat? Text.maxNumber text.trim

/-- Read a selection. -/
def selection? (text : Text) : Option Span :=
  match Text.splitFirst? ['.', '.'] text with
  | some (start, stop) => do return ⟨← offset? start, ← offset? stop⟩
  | none => (offset? text).map Span.point

end TemplateTags.Command
