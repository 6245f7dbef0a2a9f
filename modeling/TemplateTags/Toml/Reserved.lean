import TemplateTags.Toml.DatetimeText
import TemplateTags.Toml.Value
/-!
# Tables for datetimes

A datetime may also be given as a table: one whose first key is `datetimeKey`
stands for the datetime that the text under it writes, whatever else is in the
table. `Value.resolve?` puts datetimes in the place of such tables, and refuses a
value with a table of this form that writes no datetime.
-/

namespace TemplateTags.Toml

/-- The key that makes a datetime of a table. -/
def datetimeKey : Text := "$__toml_private_datetime".toList

/-- The datetime that a value under `datetimeKey` writes. -/
def Value.datetime? : Value → Option Datetime
  | .text t => Datetime.ofText? t
  | _ => none

mutual
/-- The value with datetimes in the place of the tables that stand for them. -/
def Value.resolve? : Value → Option Value
  | .array items => (resolveItems? items).map .array
  | .table [] => some (.table [])
  | .table ((key, v) :: rest) =>
    if key = datetimeKey then v.datetime?.map .datetime
    else do
      let v ← resolve? v
      let rest ← resolveFields? rest
      return .table ((key, v) :: rest)
  | v => some v

def Value.resolveItems? : List Value → Option (List Value)
  | [] => some []
  | item :: rest => do
    let item ← resolve? item
    let rest ← resolveItems? rest
    return item :: rest

def Value.resolveFields? : List (Text × Value) → Option (List (Text × Value))
  | [] => some []
  | (key, v) :: rest => do
    let v ← resolve? v
    let rest ← resolveFields? rest
    return (key, v) :: rest
end

/-- The entries of a value that is still a table when it is resolved. -/
def Value.resolvedFields? (v : Value) : Option (List (Text × Value)) :=
  match v.resolve? with
  | some (.table fields) => some fields
  | _ => none

end TemplateTags.Toml
