import TemplateTags.Number.Shortest
import TemplateTags.Settings.Setting
import TemplateTags.Session
import TemplateTags.Text.Number
/-!
# The configuration

`Settings` is the configuration of the program. `Settings.ofSetting?` reads it
from a tree of settings, which may give a text as a number and a number as a text.
`Settings.session` starts a session with it.
-/

namespace TemplateTags

/-- The configuration: the dialect to start with, the variant to insert, and
dialects by name in the order of their names. -/
structure Settings where
  defaultDialect : Text
  insertVariant : Nat
  dialects : List (Text × DialectTable)
deriving DecidableEq, Repr

namespace Setting

/-- A setting as a text. Numbers and truth values are written out. -/
def toText? : Setting → Option Text
  | text t => some t
  | integer n => some ((if n < 0 then ['-'] else []) ++ Text.ofNat n.natAbs)
  | float x => some x.render
  | boolean b => some (if b then "true".toList else "false".toList)
  | _ => none

/-- The words for one. -/
def yesWords : List Text := ["true".toList, "on".toList, "yes".toList]

/-- The words for zero. -/
def noWords : List Text := ["false".toList, "off".toList, "no".toList]

/-- A setting as a number that is not negative. Floating-point numbers are
rounded, and words for yes and no count as one and zero. -/
def toNat? : Setting → Option Nat
  | integer n => if 0 ≤ n then some n.toNat else none
  | float x => some (x.roundToNat Text.maxNumber)
  | boolean b => some (if b then 1 else 0)
  | text t =>
    if yesWords.contains t.lowerCase then some 1
    else if noWords.contains t.lowerCase then some 0
    else t.toNat? Text.maxNumber
  | _ => none

/-- A list whose items are read one by one. -/
def toList? {α : Type} (read : Setting → Option α) : Setting → Option (List α)
  | list items => items.mapM read
  | _ => none

/-- The fields of a record with these names, by name from a table or by
place from a list. -/
def fields? (names : List Text) : Setting → Option (List (Option Setting))
  | table entries => some (names.map (find? entries))
  | list items => some ((List.range names.length).map fun place => items[place]?)
  | _ => none

/-- The symbols of an addon. Items of the list behind the second one do not count. -/
def toAddon? : Setting → Option Addon
  | list (left :: right :: _) => do return ⟨← left.toText?, ← right.toText?⟩
  | _ => none

/-- A field that may be left out, and is empty then. -/
def optionalList? {α : Type} (read : Setting → Option α) :
    Option Setting → Option (List α)
  | none => some []
  | some s => s.toList? read

/-- A dialect table. -/
def toTable? (s : Setting) : Option DialectTable := do
  match ← s.fields? ["opener".toList, "closer".toList, "addons".toList,
    "aliases".toList] with
  | [opener, closer, addons, aliases] =>
    return ⟨← (← opener).toText?, ← (← closer).toText?,
      ← optionalList? toAddon? addons,
      ← optionalList? toText? aliases⟩
  | _ => none

/-- The dialect tables by name, in the order of the names. -/
def toDialects? : Option Setting → Option (List (Text × DialectTable))
  | none => some []
  | some (table entries) =>
    (sortBy keyBefore entries).mapM fun entry => entry.2.toTable?.map fun t =>
      (entry.1, t)
  | some _ => none

end Setting

namespace Settings

/-- Read the configuration from its settings. -/
def ofSetting? (s : Setting) : Option Settings := do
  match ← s.fields? ["cycle".toList, "dialects".toList] with
  | [cycle, dialects] =>
    match ← (← cycle).fields? ["default_dialect".toList,
      "insert_variant".toList] with
    | [dialect, variant] =>
      return ⟨← (← dialect).toText?, ← (← variant).toNat?,
        ← Setting.toDialects? dialects⟩
    | _ => none
  | _ => none

/-- The built-in dialects and those of the configuration. -/
def registry (s : Settings) : Except DialectError Registry :=
  Registry.builtin.registerAll s.dialects

/-- A session with the configured variant and, if it is known, the
configured dialect. -/
def session (s : Settings) : Except DialectError Session :=
  s.registry.map fun r =>
    ((Session.start r).withInsertVariant s.insertVariant).select s.defaultDialect

/-- What is told while the session starts. -/
def sessionEvents (s : Settings) : List Event :=
  match s.registry with
  | .ok r => [(Session.start r).selectEvent s.defaultDialect]
  | .error _ => []

end Settings

end TemplateTags
