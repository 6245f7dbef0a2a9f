import TemplateTags.Dialect.Basic
/-!
# Dialect tables

A table is a dialect as it is described in a configuration, with the names
that also select it.
-/

namespace TemplateTags

/-- The description of a dialect. -/
structure DialectTable where
  opener : Text
  closer : Text
  addons : List Addon
  aliases : List Text
deriving DecidableEq, Repr

/-- The dialect that a table describes. -/
def DialectTable.compile (t : DialectTable) : Except DialectError Dialect :=
  Dialect.compile t.opener t.closer t.addons

end TemplateTags
