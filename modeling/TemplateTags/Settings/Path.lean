import TemplateTags.Settings.Setting
import TemplateTags.Text.Blank
import TemplateTags.Text.Number
/-!
# Setting paths

A path names a place in the configuration: a key, and then keys behind points and
places of lists in brackets. Keys may be written in any case. `Setting.putAt?`
lays a value over the setting at a path and makes tables and lists on the way.
-/

namespace TemplateTags

/-- One part of a path. -/
inductive PathStep where
  | key (key : Text)
  /-- a place of a list, counted from its end if negative -/
  | index (n : Int)
deriving DecidableEq, Repr

/-- A place in the configuration. -/
structure SettingPath where
  root : Text
  steps : List PathStep
deriving DecidableEq, Repr

namespace SettingPath

/-- The characters of a key in a path. -/
def isKeyChar (c : Char) : Bool := c.isAlphanum || c == ' ' || c == '_' || c == '-'

/-- A key at the start of a text. -/
def key? (text : Text) : Option (Text × Text) :=
  let key := text.takeWhile isKeyChar
  if key.isEmpty then none else some (key, text.dropWhile isKeyChar)

/-- The values of a place in a list. -/
def minIndex : Int := -Nat.pow 2 63

def maxIndex : Int := Nat.pow 2 63 - 1

/-- A place of a list at the start of a text, behind the opening bracket. -/
def index? (text : Text) : Option (Int × Text) :=
  let text := text.dropWhile isLineBlank
  let negative := text.head? = some '-'
  let text := if negative then text.drop 1 else text
  let digits := text.takeWhile Char.isDigit
  let size : Int := Text.ofDigits digits
  let n := if negative then -size else size
  match (text.dropWhile Char.isDigit).dropWhile isLineBlank with
  | ']' :: rest =>
    if digits.isEmpty || n < minIndex || maxIndex < n then none else some (n, rest)
  | _ => none

/-- The parts behind the first key. The fuel bounds their number. -/
def steps? : Nat → Text → Option (List PathStep)
  | _, [] => some []
  | 0, _ => none
  | fuel + 1, '.' :: rest => do
    let key ← key? rest
    return .key key.1.lowerCase :: (← steps? fuel key.2)
  | fuel + 1, '[' :: rest => do
    let index ← index? rest
    return .index index.1 :: (← steps? fuel index.2)
  | _ + 1, _ => none

/-- Read a path. -/
def ofText? (text : Text) : Option SettingPath := do
  let root ← key? text
  return ⟨root.1.lowerCase, ← steps? root.2.length root.2⟩

end SettingPath

namespace Setting

/-- The place in a list of some length. A negative one must not lie in
front of the list. -/
def place? (index : Int) (length : Nat) : Option Nat :=
  if 0 ≤ index then some index.toNat
  else if index.natAbs ≤ length then some (length - index.natAbs)
  else none

/-- Change the item at a place of a list, which is made longer with missing items
if it ends before. -/
def changeItem (place : Nat) (change : Setting → Option Setting) :
    List Setting → Option (List Setting)
  | [] => (change missing).map fun item => List.replicate place missing ++ [item]
  | item :: rest =>
    match place with
    | 0 => (change item).map (· :: rest)
    | place + 1 => (changeItem place change rest).map (item :: ·)

/-- Change what a part of a path names. What is no table or no list becomes one. -/
def changeStep? (step : PathStep) (change : Setting → Option Setting)
    (here : Setting) : Option Setting :=
  match step with
  | .key key =>
    (change ((find? here.entries key).getD missing)).map fun value =>
      table (replace key value here.entries)
  | .index index =>
    (place? index here.items.length).bind fun place =>
      (changeItem place change here.items).map list

/-- Lay a value over the setting behind the first of some parts. -/
def putBehind? (value : Setting) :
    PathStep → List PathStep → Setting → Option Setting
  | .key key, [], here => some (put key value here)
  | .index index, [], here => changeStep? (.index index) (fun _ => some value) here
  | step, next :: rest, here => changeStep? step (putBehind? value next rest) here

/-- Lay a value over the setting at a path. -/
def putAt? (path : SettingPath) (value : Setting) (here : Setting) :
    Option Setting :=
  putBehind? value (.key path.root) path.steps here

end Setting

end TemplateTags
