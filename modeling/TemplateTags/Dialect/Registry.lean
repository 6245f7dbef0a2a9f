import TemplateTags.Dialect.Family
import TemplateTags.Text.Order
/-!
# Registries

A registry holds dialects under names that ignore letter case. Its entries stand
in the order of their names, each name once; a dialect that is registered under a
taken name replaces the one before.
-/

namespace TemplateTags

/-- Dialects by lower-case name, in the order of the names. -/
structure Registry where
  entries : List (Text × Dialect)
  sorted : (entries.map Prod.fst).Pairwise (Text.isBefore · ·)

namespace Registry

/-- Put a dialect at its place among entries in order. -/
def insertEntry (name : Text) (d : Dialect) :
    List (Text × Dialect) → List (Text × Dialect)
  | [] => [(name, d)]
  | entry :: rest =>
    if name.isBefore entry.1 then (name, d) :: entry :: rest
    else if name = entry.1 then (name, d) :: rest
    else entry :: insertEntry name d rest

theorem mem_insertEntry {name key : Text} {d : Dialect}
    {entries : List (Text × Dialect)}
    (h : key ∈ (insertEntry name d entries).map Prod.fst) :
    key = name ∨ key ∈ entries.map Prod.fst := by
  induction entries with
  | nil => simpa [insertEntry] using h
  | cons entry rest ih =>
    unfold insertEntry at h
    split at h
    · simpa using h
    · split at h
      · rcases List.mem_cons.1 h with h | h
        · exact .inl h
        · exact .inr (List.mem_cons_of_mem _ h)
      · rcases List.mem_cons.1 h with h | h
        · exact .inr (h ▸ List.mem_cons_self)
        · exact (ih h).imp_right (List.mem_cons_of_mem _)

theorem sorted_insertEntry (name : Text) (d : Dialect)
    {entries : List (Text × Dialect)}
    (h : (entries.map Prod.fst).Pairwise (Text.isBefore · ·)) :
    ((insertEntry name d entries).map Prod.fst).Pairwise (Text.isBefore · ·) := by
  induction entries with
  | nil => simp [insertEntry]
  | cons entry rest ih =>
    obtain ⟨hentry, hrest⟩ := List.pairwise_cons.1 h
    unfold insertEntry
    split
    next hlt =>
      refine List.pairwise_cons.2 ⟨fun key hkey => ?_, h⟩
      rcases List.mem_cons.1 hkey with rfl | hkey
      · exact hlt
      · exact Text.isBefore_trans hlt (hentry key hkey)
    next hlt =>
      split
      next heq =>
        exact List.pairwise_cons.2 ⟨fun key hkey => heq ▸ hentry key hkey, hrest⟩
      next hne =>
        refine List.pairwise_cons.2 ⟨fun key hkey => ?_, ih hrest⟩
        rcases mem_insertEntry hkey with rfl | hkey
        · exact Text.isBefore_of_ne hne (by simpa using hlt)
        · exact hentry key hkey

def empty : Registry := ⟨[], .nil⟩

/-- The registry with a dialect under the lower-case form of a name. -/
def insert (r : Registry) (name : Text) (d : Dialect) : Registry :=
  ⟨insertEntry name.lowerCase d r.entries, sorted_insertEntry _ _ r.sorted⟩

/-- The registry with a dialect under each of several names. -/
def insertAll (r : Registry) (names : List Text) (d : Dialect) : Registry :=
  names.foldl (fun r name => r.insert name d) r

/-- The dialect under a name, in whatever case the name is given. -/
def get? (r : Registry) (name : Text) : Option Dialect :=
  (r.entries.find? fun entry => entry.1 == name.lowerCase).map Prod.snd

def contains (r : Registry) (name : Text) : Bool := (r.get? name).isSome

/-- The registered names in code point order. -/
def names (r : Registry) : List Text := r.entries.map Prod.fst

/-- Compile a table and register its dialect under the aliases, then under `name`. -/
def register (r : Registry) (name : Text) (t : DialectTable) :
    Except DialectError Registry :=
  t.compile.map fun d => r.insertAll (t.aliases ++ [name]) d

/-- Register several tables in order. -/
def registerAll (r : Registry) :
    List (Text × DialectTable) → Except DialectError Registry
  | [] => .ok r
  | (name, t) :: rest => (r.register name t).bind fun r => registerAll r rest

/-- The families, each under its languages and its own name. -/
def builtin : Registry :=
  Family.all.foldl (fun r f => r.insertAll (f.aliases ++ [f.name]) f.dialect) empty

end Registry

end TemplateTags
