import TemplateTags.Toml.Section
/-!
# Drafts

A draft is a document whose last section is still open. `Draft.open?` closes it
and opens the one of the next header.
-/

namespace TemplateTags.Toml

/-- A header: the table it names, which may be the next one of an array. -/
structure Header where
  path : List Text
  key : Text
  isArray : Bool
deriving DecidableEq, Repr

/-- The finished sections, and the open one with its header. The first
section has none. -/
structure Draft where
  root : Section
  header : Option Header
  current : Section
deriving Repr

namespace Draft

def empty : Draft := ⟨⟨.header, []⟩, none, ⟨.header, []⟩⟩

/-- Enter a table of an array behind the others. -/
def appendTable? (key : Text) (t : Section) (parent : Section) : Option Section :=
  match Section.find? parent.entries key with
  | none =>
    some { parent with
      entries := Section.set key (.tables t.origin t.entries []) parent.entries }
  | some (.tables o entries earlier) =>
    let latest := Entry.tables t.origin t.entries (.table o entries :: earlier)
    some { parent with entries := Section.set key latest parent.entries }
  | some _ => none

/-- The document with the open section at its place. -/
def close? (d : Draft) : Option Section :=
  match d.header with
  | none => some d.current
  | some h =>
    Section.within? .passed h.path (fun parent =>
      if h.isArray then appendTable? h.key d.current parent
      else
        match Section.find? parent.entries h.key with
        | some _ => none
        | none =>
          let entry := Entry.table d.current.origin d.current.entries
          some { parent with entries := Section.set h.key entry parent.entries })
            d.root

/-- What a header's table holds before its lines are read: nothing, or what longer
headers have put there. A table that was opened before is not opened again. -/
def reopen? (key : Text) (parent : Section) : Option Section :=
  match Section.find? parent.entries key with
  | none => some ⟨.header, []⟩
  | some (.table .passed entries) => some ⟨.header, entries⟩
  | some _ => none

/-- The table at the end of a path through finished sections, where missing
ones count as empty. -/
def lookup? : List Text → Section → Option Section
  | [], s => some s
  | key :: path, s =>
    match Section.find? s.entries key with
    | none => lookup? path ⟨.passed, []⟩
    | some (.value _) => none
    | some (.table o entries) => lookup? path ⟨o, entries⟩
    | some (.tables o entries _) => lookup? path ⟨o, entries⟩

/-- Close the open section and open the one of a header. -/
def open? (d : Draft) (h : Header) : Option Draft := do
  let root ← d.close?
  let parent ← lookup? h.path root
  if h.isArray then
    match Section.find? parent.entries h.key with
    | none => return ⟨root, some h, ⟨.header, []⟩⟩
    | some (.tables ..) => return ⟨root, some h, ⟨.header, []⟩⟩
    | some _ => none
  else
    let current ← reopen? h.key parent
    let emptied ← Section.within? .passed h.path
      (fun t => some { t with entries := Section.erase h.key t.entries }) root
    return ⟨emptied, some h, current⟩

/-- Add a line to the open section. -/
def put? (d : Draft) (first : Text) (rest : List Text) (v : Value) : Option Draft :=
  (d.current.put? first rest v).map fun current => { d with current }

/-- The finished document. -/
def finish? (d : Draft) : Option (List (Text × Value)) :=
  d.close?.map fun root => Section.finishAll root.entries

end Draft

end TemplateTags.Toml
