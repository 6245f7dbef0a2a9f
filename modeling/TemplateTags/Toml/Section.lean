import TemplateTags.Toml.Value
/-!
# Sections

A document is built up in sections: the lines below a header go into the table
that the header names. Tables remember how they came to be, because a table may be
opened only once: by a header, or by the dotted keys of the lines in one section.
`Section.put?` and `Draft.open?` refuse all else.
-/

namespace TemplateTags.Toml

/-- How a table came to be. -/
inductive Origin where
  /-- a header of its own -/
  | header
  /-- a longer header passed through it -/
  | passed
  /-- a dotted key passed through it -/
  | dotted
deriving DecidableEq, Repr

/-- An entry of a table that is being built. -/
inductive Entry where
  | value (v : Value)
  | table (origin : Origin) (entries : List (Text × Entry))
  /-- the tables of one array, the latest first -/
  | tables (origin : Origin) (entries : List (Text × Entry)) (earlier : List Entry)
deriving Repr

/-- A table that is being built. -/
structure Section where
  origin : Origin
  entries : List (Text × Entry)
deriving Repr

namespace Section

/-- The entry of a key. -/
def find? (entries : List (Text × Entry)) (key : Text) : Option Entry :=
  (entries.find? (·.1 == key)).map Prod.snd

/-- Put an entry in the place of the one with its key, or at the end. -/
def set (key : Text) (e : Entry) : List (Text × Entry) → List (Text × Entry)
  | [] => [(key, e)]
  | (k, old) :: rest =>
    if k = key then (k, e) :: rest else (k, old) :: set key e rest

def erase (key : Text) (entries : List (Text × Entry)) : List (Text × Entry) :=
  entries.filter (·.1 != key)

/-- Change the table at the end of a path. Tables that are missing on the way are
made, in the way that `origin` says. An array of tables stands for its latest one.
A dotted key does not go through tables that have a header. -/
def within? (origin : Origin) :
    List Text → (Section → Option Section) → Section → Option Section
  | [], change, s => change s
  | key :: path, change, s =>
    let goOn := fun (t : Section) (wrap : Section → Entry) =>
      (within? origin path change t).map fun t =>
        { s with entries := set key (wrap t) s.entries }
    match find? s.entries key with
    | none => goOn ⟨origin, []⟩ fun t => .table t.origin t.entries
    | some (.value _) => none
    | some (.table o entries) =>
      if origin = .dotted && o = .header then none
      else goOn ⟨o, entries⟩ fun t => .table t.origin t.entries
    | some (.tables o entries earlier) =>
      goOn ⟨o, entries⟩ fun t => .tables t.origin t.entries earlier

/-- The path and the last key of a dotted key. -/
def splitKey (first : Text) : List Text → List Text × Text
  | [] => ([], first)
  | second :: rest =>
    let tail := splitKey second rest
    (first :: tail.1, tail.2)

/-- Add a line's value under its key. A dotted key adds only to tables of dotted
keys, and no key is given twice. -/
def put? (first : Text) (rest : List Text) (v : Value) (s : Section) :
    Option Section :=
  let key := splitKey first rest
  within? .dotted key.1 (fun t =>
    if !key.1.isEmpty && t.origin ≠ .dotted then none
    else if (find? t.entries key.2).isSome then none
    else some { t with entries := set key.2 (.value v) t.entries }) s

mutual
/-- The finished value of an entry. -/
def finish : Entry → Value
  | .value v => v
  | .table _ entries => .table (finishAll entries)
  | .tables _ entries earlier =>
    .array (finishEach earlier ++ [.table (finishAll entries)])

def finishAll : List (Text × Entry) → List (Text × Value)
  | [] => []
  | (key, e) :: rest => (key, finish e) :: finishAll rest

/-- The values of entries in reverse. -/
def finishEach : List Entry → List Value
  | [] => []
  | e :: rest => finishEach rest ++ [finish e]
end

end Section

end TemplateTags.Toml
