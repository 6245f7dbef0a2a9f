import TemplateTags.Number.Binary64
import TemplateTags.Toml.Datetime
/-!
# Values of a TOML document
-/

namespace TemplateTags.Toml

/-- A value. The keys of a table are distinct and stand in the order in which
they were written. -/
inductive Value where
  | text (text : Text)
  | integer (n : Int)
  | float (x : Binary64)
  | boolean (b : Bool)
  | datetime (d : Datetime)
  | array (items : List Value)
  | table (entries : List (Text × Value))
deriving Repr

end TemplateTags.Toml
