import TemplateTags.Dialect.Registry
import TemplateTags.Proofs.Text.LowerCase
/-!
# Which table a name finds

Registering a table puts its dialect under several names at once, which may be the
same in lower case and may be taken. A name finds what was put under it last
(`Registry.get?_insertAll`). A registry that is changed in place by one call after
the other (`Registry.afterCalls`) gives for a query the dialect of the last call
that answers it, if there is one, and else what it gave at the start
(`Registry.get?_afterCalls`). A call that fails has not begun to write
(`Registry.call_eq`).
-/

namespace TemplateTags

open Text

/-- The order of texts is the lexicographic order of their code points. -/
theorem Text.isBefore_iff_lt {a b : Text} :
    isBefore a b ↔ a.map Char.toNat < b.map Char.toNat := by
  induction a generalizing b with
  | nil =>
    cases b with
    | nil => simp [isBefore]
    | cons y t => simp [isBefore]
  | cons x s ih =>
    cases b with
    | nil => simp [isBefore]
    | cons y t =>
      rw [isBefore, List.map_cons, List.map_cons, List.cons_lt_cons_iff, ← ih,
        Bool.or_eq_true, decide_eq_true_eq, Bool.and_eq_true, beq_iff_eq,
        Char.toNat_inj]

/-- The last value that a list gives comes from its rest, or else from its head. -/
theorem getLast?_filterMap_cons {α β : Type} (f : α → Option β) (a : α)
    (rest : List α) :
    ((a :: rest).filterMap f).getLast? = (rest.filterMap f).getLast?.or (f a) := by
  cases h : f a with
  | none => rw [List.filterMap_cons_none h, Option.or_none]
  | some b => rw [List.filterMap_cons_some h, List.getLast?_cons, Option.or_some]

namespace Registry

/-! ## What a name finds after a write -/

theorem find?_insertEntry (name key : Text) (d : Dialect)
    (entries : List (Text × Dialect)) :
    (insertEntry name d entries).find? (·.1 == key) =
      if name = key then some (name, d) else entries.find? (·.1 == key) := by
  induction entries with
  | nil => by_cases h : name = key <;> simp [insertEntry, h]
  | cons entry rest ih =>
    unfold insertEntry
    split
    · by_cases h : name = key <;> simp [h]
    · split
      next heq => by_cases h : name = key <;> simp [← heq, h]
      next hne =>
        by_cases hentry : entry.1 = key
        · have hname : name ≠ key := fun h => hne (h.trans hentry.symm)
          simp [hentry, hname]
        · simp [hentry, ih]

/-- A name finds the dialect that was put under it, in whatever case, and the
others what they found before. -/
theorem get?_insert (r : Registry) (name query : Text) (d : Dialect) :
    (r.insert name d).get? query = if name.lowerCase =
      query.lowerCase then some d else r.get? query := by
  unfold get? insert
  rw [find?_insertEntry]
  split <;> rfl

theorem get?_insertAll (r : Registry) (names : List Text) (query : Text)
    (d : Dialect) :
    (r.insertAll names d).get? query =
      if ∃ name ∈ names, name.lowerCase = query.lowerCase then some d
      else r.get? query := by
  induction names generalizing r with
  | nil => simp [insertAll]
  | cons name rest ih =>
    show ((r.insert name d).insertAll rest d).get? query = _
    rw [ih, get?_insert]
    by_cases hrest : ∃ other ∈ rest, other.lowerCase = query.lowerCase
    · have hany : ∃ other ∈ name :: rest, other.lowerCase = query.lowerCase := by
        obtain ⟨other, hother, heq⟩ := hrest
        exact ⟨other, List.mem_cons_of_mem _ hother, heq⟩
      rw [if_pos hrest, if_pos hany]
    · by_cases hname : name.lowerCase = query.lowerCase <;> simp [hrest, hname]

/-! ## Calls one after the other -/

/-- Registering a table in place: its dialect is written under one name after the
other, and what has been written stays if something fails. -/
def registerInPlace (name : Text) (t : DialectTable) :
    ExceptT DialectError (StateM Registry) Unit := do
  let d ← ExceptT.mk (pure t.compile)
  t.aliases.forM fun other => modify (·.insert other d)
  modify (·.insert name d)

/-- What a call to register a table gives, and the registry after it. -/
def call (r : Registry) (c : Text × DialectTable) :
    Except DialectError Unit × Registry :=
  (registerInPlace c.1 c.2).run.run r

/-- The registry after several calls, whatever each of them gave. -/
def afterCalls (r : Registry) (calls : List (Text × DialectTable)) : Registry :=
  calls.foldl (fun r c => (r.call c).2) r

/-- What is done behind several writes is done in the registry that they leave. -/
theorem run_forM_insert (r : Registry) (names : List Text) (d : Dialect)
    (behind : ExceptT DialectError (StateM Registry) Unit) :
    (do names.forM fun name => modify fun r : Registry =>
      r.insert name d; behind).run.run r =
      behind.run.run (r.insertAll names d) := by
  induction names generalizing r with
  | nil => rfl
  | cons name rest ih => exact ih (r.insert name d)

/-- The table is compiled before anything is written, so a call writes all
its names or none. -/
theorem call_eq (r : Registry) (name : Text) (t : DialectTable) :
    r.call (name, t) = match r.register name t with
      | .ok made => (.ok (), made)
      | .error e => (.error e, r) := by
  unfold call registerInPlace register
  cases t.compile with
  | error e => rfl
  | ok d =>
    have happend : r.insertAll (t.aliases ++ [name]) d =
        (r.insertAll t.aliases d).insert name d := List.foldl_append
    show (do
      t.aliases.forM fun other => modify (·.insert other d)
      modify (·.insert name d) :
      ExceptT DialectError (StateM Registry) Unit).run.run r =
        (.ok (), r.insertAll (t.aliases ++ [name]) d)
    rw [run_forM_insert, happend]
    rfl

theorem register_of_ok {r : Registry} {name : Text} {t : DialectTable}
    {d : Dialect} (h : t.compile = .ok d) :
    r.register name t = .ok (r.insertAll (t.aliases ++ [name]) d) := by
  rw [register, h]
  rfl

theorem register_of_error {r : Registry} {name : Text} {t : DialectTable}
    {e : DialectError} (h : t.compile = .error e) :
    r.register name t = .error e := by
  rw [register, h]
  rfl

/-- What a call puts under the name that is asked for: the dialect of its
table, if that compiles and the call has the name or an alias that is the
same in lower case. -/
def answer? (query : Text) (c : Text × DialectTable) : Option Dialect :=
  if ∃ name ∈ c.2.aliases ++ [c.1], name.lowerCase = query.lowerCase then
    c.2.compile.toOption
  else none

/-- What the last of several calls that answer a query puts under it. -/
def lastAnswer? (calls : List (Text × DialectTable)) (query : Text) :
    Option Dialect :=
  (calls.filterMap (answer? query)).getLast?

theorem get?_call (r : Registry) (c : Text × DialectTable) (query : Text) :
    (r.call c).2.get? query = (answer? query c).or (r.get? query) := by
  obtain ⟨name, t⟩ := c
  rw [call_eq, answer?]
  cases hcompile : t.compile with
  | error e =>
    rw [register_of_error hcompile]
    show r.get? query = Option.or (if _ then none else none) _
    rw [ite_self, Option.none_or]
  | ok d =>
    rw [register_of_ok hcompile]
    show (r.insertAll (t.aliases ++ [name]) d).get? query =
        Option.or (if _ then some d else none) _
    rw [get?_insertAll]
    split <;> rfl

theorem get?_afterCalls (r : Registry) (calls : List (Text × DialectTable))
    (query : Text) :
    (r.afterCalls calls).get? query = (lastAnswer? calls query).or
      (r.get? query) := by
  induction calls generalizing r with
  | nil => rfl
  | cons c rest ih =>
    show ((r.call c).2.afterCalls rest).get? query = _
    rw [ih, get?_call, lastAnswer?, lastAnswer?, getLast?_filterMap_cons,
      Option.or_assoc]

/-- Several tables are registered in order, and all of them compile, or the first
that does not is an error. -/
theorem registerAll_cases (r : Registry) (tables : List (Text × DialectTable)) :
    (r.registerAll tables = .ok (r.afterCalls tables) ∧ ∀ entry ∈ tables, ∃ d,
      entry.2.compile = .ok d) ∨
      ∃ e, r.registerAll tables = .error e ∧ ∃ entry ∈ tables,
        entry.2.compile = .error e := by
  induction tables generalizing r with
  | nil => exact .inl ⟨rfl, by simp⟩
  | cons entry rest ih =>
    obtain ⟨name, t⟩ := entry
    cases hcompile : t.compile with
    | error e =>
      have hall : r.registerAll ((name, t) :: rest) = .error e := by
        rw [registerAll, register_of_error hcompile]
        rfl
      exact .inr ⟨e, hall, (name, t), List.mem_cons_self, hcompile⟩
    | ok d =>
      have hall : r.registerAll ((name, t) :: rest) =
          (r.call (name, t)).2.registerAll rest := by
        rw [registerAll, call_eq, register_of_ok hcompile]
        rfl
      rw [hall]
      rcases ih (r.call (name, t)).2 with ⟨hok, hcompiles⟩ | ⟨e, herror,
        other, hother, hfails⟩
      · exact .inl ⟨hok, List.forall_mem_cons.2 ⟨⟨d, hcompile⟩, hcompiles⟩⟩
      · exact .inr ⟨e, herror, other, List.mem_cons_of_mem _ hother, hfails⟩

/-! ## The names -/

/-- All names are in lower case. -/
def Folded (r : Registry) : Prop := ∀ name ∈ r.names, name.lowerCase = name

theorem Folded.insert {r : Registry} (h : r.Folded) (name : Text) (d : Dialect) :
    (r.insert name d).Folded := by
  intro key hkey
  rcases mem_insertEntry hkey with rfl | hkey
  · exact lowerCase_lowerCase name
  · exact h key hkey

theorem Folded.insertAll {r : Registry} (h : r.Folded) (names : List Text)
    (d : Dialect) :
    (r.insertAll names d).Folded :=
  List.foldlRecOn names _ h fun _ hr name _ => hr.insert name d

theorem folded_empty : empty.Folded := fun _ hname => nomatch hname

theorem folded_builtin : builtin.Folded :=
  List.foldlRecOn Family.all _ folded_empty fun _ hr _ _ => hr.insertAll _ _

theorem Folded.call {r : Registry} (h : r.Folded) (c : Text × DialectTable) :
    (r.call c).2.Folded := by
  obtain ⟨name, t⟩ := c
  rw [call_eq]
  cases hcompile : t.compile with
  | error e =>
    rw [register_of_error hcompile]
    exact h
  | ok d =>
    rw [register_of_ok hcompile]
    exact h.insertAll _ _

theorem Folded.afterCalls {r : Registry} (h : r.Folded)
    (calls : List (Text × DialectTable)) :
    (r.afterCalls calls).Folded :=
  List.foldlRecOn calls _ h fun _ hr c _ => hr.call c

/-- The names are the lower-case forms of the queries that find a dialect. -/
theorem Folded.mem_names_iff {r : Registry} (h : r.Folded) {name : Text} :
    name ∈ r.names ↔ ∃ query : Text, query.lowerCase = name ∧
      (r.get? query).isSome := by
  have hfind : ∀ query : Text, (r.get? query).isSome ↔
      query.lowerCase ∈ r.names := by
    intro query
    unfold get? names
    rw [Option.isSome_map, List.find?_isSome]
    simp
  constructor
  · intro hname
    exact ⟨name, h name hname, (hfind name).2 ((h name hname).symm ▸ hname)⟩
  · intro hquery
    obtain ⟨query, rfl, hsome⟩ := hquery
    exact (hfind query).1 hsome

theorem pairwise_names (r : Registry) :
    (r.names.map (·.map Char.toNat)).Pairwise (· < ·) :=
  List.pairwise_map.2 (r.sorted.imp isBefore_iff_lt.1)

/-- After any calls, failing ones among them, a query finds the dialect of the
last successful call with a name or an alias that is the same in lower case, and
else what it found at the start. A call whose table does not compile fails and
leaves the registry as it was, and any other call leaves the registry that
`register` gives. The names are the lower-case forms of the queries that find a
dialect, each once and in the order of their code points. -/
theorem afterCalls_last_wins {start : Registry}
    (hstart : start = empty ∨ start = builtin)
    (calls : List (Text × DialectTable)) :
    let r := start.afterCalls calls
    (∀ query, r.get? query = (lastAnswer? calls query).or (start.get? query)) ∧
      (∀ name t e, t.compile = .error e → r.register name t = .error e ∧
        r.call (name, t) = (.error e, r)) ∧
      (∀ name t d, t.compile = .ok d → ∃ made, r.register name t = .ok made ∧
        r.call (name, t) = (.ok (), made)) ∧
      (∀ name, name ∈ r.names ↔ ∃ query : Text, query.lowerCase = name ∧
        (r.get? query).isSome) ∧
      r.names.Nodup ∧ (r.names.map (·.map Char.toNat)).Pairwise (· < ·) := by
  intro r
  have hfolded : start.Folded := by
    rcases hstart with rfl | rfl
    · exact folded_empty
    · exact folded_builtin
  refine ⟨get?_afterCalls start calls, ?_, ?_, ?_, ?_, pairwise_names r⟩
  · intro name t e hcompile
    rw [call_eq, register_of_error hcompile]
    exact ⟨rfl, rfl⟩
  · intro name t d hcompile
    rw [call_eq, register_of_ok hcompile]
    exact ⟨_, rfl, rfl⟩
  · intro name
    exact (hfolded.afterCalls calls).mem_names_iff
  · apply r.sorted.imp
    intro a b hbefore heq
    rw [heq, isBefore_self] at hbefore
    cases hbefore

/-- A Greek name with a sigma at its end, a built-in name as an alias, and a
failing call with aliases of both kinds. -/
theorem afterCalls_last_wins_sigma :
    let wiki : DialectTable := ⟨"[[".toList, "]]".toList, [], ["ERB".toList]⟩
    let broken : DialectTable := ⟨[], "]]".toList, [], ["οδος".toList, "php".toList]⟩
    let r := builtin.afterCalls [("ΟΔΟΣ".toList, wiki), ("late".toList, broken)]
    (r.get? "Οδος".toList).map (·.opener) = some "[[".toList ∧
      (r.get? "erb".toList).map (·.opener) = some "[[".toList ∧
      (r.get? "PHP".toList).map (·.opener) = some "<?".toList ∧
      r.call ("late".toList, broken) = (.error .emptyOpener, r) ∧
        "late".toList ∉ r.names := by
  intro wiki broken r
  obtain ⟨hget, hfails, -⟩ :=
    afterCalls_last_wins (.inr rfl) [("ΟΔΟΣ".toList, wiki), ("late".toList, broken)]
  refine ⟨?_, ?_, ?_, (hfails "late".toList broken .emptyOpener rfl).2, ?_⟩
  · rw [hget]
    decide +kernel
  · rw [hget]
    decide +kernel
  · rw [hget]
    decide +kernel
  · decide +kernel

end Registry

end TemplateTags
