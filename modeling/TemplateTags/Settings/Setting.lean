import TemplateTags.Sorted
import TemplateTags.Text.LowerCase
import TemplateTags.Text.Order
import TemplateTags.Toml.Value
/-!
# Settings

A setting is a value of the configuration, after documents and single
settings have been laid over each other. `Setting.put` lays a value over the
one under a key, whatever the key's case: tables are joined key by key,
everything else is replaced.
-/

namespace TemplateTags

/-- A value of the configuration. -/
inductive Setting where
  /-- an item of a list that has not been given a value -/
  | missing
  | text (text : Text)
  | integer (n : Int)
  | float (x : Binary64)
  | boolean (b : Bool)
  | list (items : List Setting)
  | table (entries : List (Text × Setting))
deriving Repr

namespace Setting

/-- The entries of a table; anything else has none. -/
def entries : Setting → List (Text × Setting)
  | table entries => entries
  | _ => []

/-- The items of a list; anything else has none. -/
def items : Setting → List Setting
  | list items => items
  | _ => []

/-- The setting under a key. -/
def find? (entries : List (Text × Setting)) (key : Text) : Option Setting :=
  (entries.find? (·.1 == key)).map Prod.snd

/-- Put a setting in the place of the one under its key, or at the end. -/
def replace (key : Text) (value : Setting) :
    List (Text × Setting) → List (Text × Setting)
  | [] => [(key, value)]
  | (k, old) :: rest =>
    if k = key then (k, value) :: rest else (k, old) :: replace key value rest

mutual
/-- Lay a value over the setting under the lower-case form of a key. What is no
table becomes one. -/
def put (key : Text) : Setting → Setting → Setting
  | table fields, here =>
    let under := (find? here.entries key.lowerCase).getD (table [])
    table (replace key.lowerCase (putAll fields under) here.entries)
  | value, here => table (replace key.lowerCase value here.entries)

/-- Lay several values over the settings of a table. -/
def putAll : List (Text × Setting) → Setting → Setting
  | [], here => here
  | (key, value) :: rest, here => putAll rest (put key value here)
end

/-- Order of keys. -/
def keyBefore (a b : Text × Setting) : Bool := a.1.isAtMost b.1

mutual
/-- A value of a document as a setting. Keys stay as they are written, and
so does a datetime. -/
def ofToml : Toml.Value → Setting
  | .text t => text t
  | .integer n => integer n
  | .float x => float x
  | .boolean b => boolean b
  | .datetime d => text d.render
  | .array items => list (ofTomlItems items)
  | .table fields => table (ofTomlFields fields)

def ofTomlItems : List Toml.Value → List Setting
  | [] => []
  | item :: rest => ofToml item :: ofTomlItems rest

def ofTomlFields : List (Text × Toml.Value) → List (Text × Setting)
  | [] => []
  | (key, value) :: rest => (key, ofToml value) :: ofTomlFields rest
end

end Setting

end TemplateTags
