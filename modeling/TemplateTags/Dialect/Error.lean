import TemplateTags.Text.Quoted
/-!
# Causes for refusing a dialect
-/

namespace TemplateTags

/-- Why a table is no dialect. -/
inductive DialectError where
  | emptyOpener
  | emptyCloser
  /-- a delimiter or symbol has a line break in it -/
  | lineBreak (symbol : Text)
  /-- a delimiter's pattern cannot be read -/
  | unreadablePattern (source : Text)
deriving DecidableEq, Repr

namespace DialectError

/-- The cause in words. -/
def message : DialectError → Text
  | emptyOpener => "dialect opener must not be empty".toList
  | emptyCloser => "dialect closer must not be empty".toList
  | lineBreak symbol =>
    "addon symbol ".toList ++ symbol.quoted ++ " spans a line break".toList
  | unreadablePattern source => "invalid delimiter pattern: ".toList ++ source

end DialectError

end TemplateTags
