import TemplateTags.Proofs.Dialect.LastWriter
import TemplateTags.Proofs.Session.Runs
import TemplateTags.Settings.Basic
/-!
# What a session is settled by

A session keeps the name of its dialect, the dialect itself and the variant to
insert, and each request changes only some of them. They stay in step: after any
run the session is the one that the last switch to a known dialect and the last
choice of a variant settle (`Session.settled`, `Editing.session_run`), in whatever
order they came and whatever came between. A session of a configuration is no
different, because configuring it is a choice and a switch
(`Session.Opened.configured`).

The name is kept in lower case, and a registry finds the same dialect under it as
under the name that was asked for (`Registry.get?_lowerCase`).
-/

namespace TemplateTags

open Text

/-! ## Registries -/

/-- A new dialect inserts its first variant. -/
theorem Dialect.insertIndex_of_compile {opener closer : Text}
    {addons : List Addon} {d : Dialect}
    (h : compile opener closer addons = .ok d) : d.insertIndex = 0 := by
  unfold compile at h
  split at h
  next => cases h
  next =>
    split at h
    next => cases h
    next =>
      split at h
      next => cases h
      next =>
        cases hopener : matcher (openerPattern opener addons) with
        | error e => simp [hopener, bind, Except.bind] at h
        | ok m =>
          cases hcloser : matcher (closerPattern closer addons) with
          | error e => simp [hopener, hcloser, bind, Except.bind] at h
          | ok m' =>
            simp only [hopener, hcloser, bind, Except.bind, pure, Except.pure,
              Except.ok.injEq] at h
            subst h
            rfl

theorem Dialect.withInsertVariant_zero {d : Dialect} (h : d.insertIndex = 0) :
    d.withInsertVariant 0 = d := by
  obtain ⟨opener, closer, addons, openerMatcher, closerMatcher, insertIndex⟩ := d
  obtain rfl : insertIndex = 0 := h
  unfold withInsertVariant
  rw [Nat.zero_mod]

namespace Registry

/-- The registries that there are: the empty one, the built-in one, and those with
a table registered. -/
inductive Built : Registry → Prop where
  | empty : Built .empty
  | builtin : Built .builtin
  | register {r made : Registry} {name : Text} {t : DialectTable} (hr : Built r)
      (h : r.register name t = .ok made) :
      Built made

/-- All dialects of a registry are as they were made, with their first
variant to insert. -/
def Fresh (r : Registry) : Prop := ∀ entry ∈ r.entries, entry.2.insertIndex = 0

theorem eq_or_mem_of_mem_insertEntry {name : Text} {d : Dialect}
    {entries : List (Text × Dialect)} {entry : Text × Dialect}
    (h : entry ∈ insertEntry name d entries) :
    entry = (name, d) ∨ entry ∈ entries := by
  induction entries with
  | nil => exact .inl (List.mem_singleton.1 h)
  | cons first rest ih =>
    unfold insertEntry at h
    split at h
    · exact (List.mem_cons.1 h)
    · split at h
      · exact (List.mem_cons.1 h).imp_right (List.mem_cons_of_mem first)
      · rcases List.mem_cons.1 h with h | h
        · exact .inr (h ▸ List.mem_cons_self)
        · exact (ih h).imp_right (List.mem_cons_of_mem first)

/-- What is true of every dialect that is compiled is true of every
dialect in a registry. -/
theorem Built.forall_entries {p : Dialect → Prop} {r : Registry} (h : r.Built)
    (hcompile : ∀ {t : DialectTable} {d : Dialect}, t.compile = .ok d → p d) :
    ∀ entry ∈ r.entries, p entry.2 := by
  have hinsertAll (r : Registry) (hr : ∀ entry ∈ r.entries, p entry.2) {d : Dialect}
      (hd : p d) (names : List Text) :
      ∀ entry ∈ (r.insertAll names d).entries, p entry.2 := by
    apply List.foldlRecOn (motive := fun r : Registry => ∀ entry ∈ r.entries,
      p entry.2) names _ hr
    intro r hr name _ entry hentry
    rcases eq_or_mem_of_mem_insertEntry hentry with heq | hmem
    · rw [heq]
      exact hd
    · exact hr entry hmem
  have hempty : ∀ entry ∈ Registry.empty.entries, p entry.2 :=
    fun _ hentry => nomatch hentry
  induction h with
  | empty => exact hempty
  | builtin =>
    apply List.foldlRecOn (motive := fun r : Registry => ∀ entry ∈ r.entries,
      p entry.2) Family.all _ hempty
    intro r hr f _
    exact hinsertAll r hr (hcompile f.compile_table) _
  | @register r made name t hr hmade ih =>
    unfold Registry.register at hmade
    cases ht : t.compile with
    | error e => simp [ht, Except.map] at hmade
    | ok d =>
      simp only [ht, Except.map, Except.ok.injEq] at hmade
      exact hmade ▸ hinsertAll r ih (hcompile ht) _

theorem Built.fresh {r : Registry} (h : r.Built) : r.Fresh :=
  h.forall_entries Dialect.insertIndex_of_compile

theorem Built.registerAll {tables : List (Text × DialectTable)}
    {r made : Registry} (hr : r.Built) (h : r.registerAll tables = .ok made) :
    made.Built := by
  induction tables generalizing r with
  | nil =>
    cases h
    exact hr
  | cons entry rest ih =>
    unfold Registry.registerAll at h
    cases hregister : r.register entry.1 entry.2 with
    | error e => simp [hregister, Except.bind] at h
    | ok between =>
      rw [hregister] at h
      exact ih (hr.register hregister) h

/-- A name in lower case finds what the name finds. -/
@[simp] theorem get?_lowerCase (r : Registry) (name : Text) :
    r.get? name.lowerCase = r.get? name := by
  unfold get?
  rw [lowerCase_lowerCase]

theorem Built.insertIndex_of_get? {r : Registry} (h : r.Built) {name : Text}
    {d : Dialect} (hd : r.get? name = some d) : d.insertIndex = 0 := by
  obtain ⟨entry, hentry, rfl⟩ := Option.map_eq_some_iff.1 hd
  exact h.fresh entry (List.mem_of_find?_eq_some hentry)

end Registry

/-! ## What requests settle -/

namespace Request

/-- The name that a request switches to, if there is a dialect of that name. -/
def switch? (r : Registry) : Request → Option Text
  | select name => Option.guard r.contains name
  | detect syntaxName fileName =>
    Option.guard r.contains (Family.detect syntaxName fileName).name
  | _ => none

/-- The variant to insert that a request chooses. -/
def choice? : Request → Option Nat
  | chooseInsert index => some index
  | _ => none

/-- The name that was switched to last. -/
def lastSwitch? (r : Registry) (requests : List Request) : Option Text :=
  (requests.filterMap (switch? r)).getLast?

/-- The variant to insert that was chosen last. -/
def lastChoice? (requests : List Request) : Option Nat :=
  (requests.filterMap choice?).getLast?

/-- Only what is registered is switched to. -/
theorem contains_of_lastSwitch? {r : Registry} {requests : List Request}
    {name : Text} (h : lastSwitch? r requests = some name) : r.contains name := by
  obtain ⟨request, -, hswitch⟩ := List.mem_filterMap.1 (List.mem_of_getLast? h)
  cases request with
  | select asked =>
    obtain ⟨rfl, hcontains⟩ := Option.guard_eq_some_iff.1 hswitch
    exact hcontains
  | detect syntaxName fileName =>
    obtain ⟨rfl, hcontains⟩ := Option.guard_eq_some_iff.1 hswitch
    exact hcontains
  | chooseInsert index => cases hswitch
  | cycle => cases hswitch

end Request

namespace Session

/-- The session of a registry after the last switch to a known dialect, if there
was one, and the last choice of a variant. -/
def settled (r : Registry) (name? : Option Text) (index : Nat) : Session :=
  let name := name?.getD Family.erb.name
  ⟨r, name.lowerCase, ((r.get? name).getD Family.erb.dialect).withInsertVariant
    index, index⟩

/-- A new session, and the requests that it comes from. -/
inductive Opened : Registry → List Request → Session → Prop where
  | start {r : Registry} (hr : r.Built) : Opened r [] (.start r)
  | configured {settings : Settings} {r : Registry} {s : Session}
      (hr : settings.registry = .ok r)
      (hs : settings.session = .ok s) :
      Opened r [.chooseInsert settings.insertVariant,
        .select settings.defaultDialect] s

/-- A session is what requests have settled: its name is in lower case, and its
dialect is the one of that name, with the variant to insert that was chosen last.
Without a dialect `erb` in the registry it may also be the built-in ERB. -/
structure SettledBy (r : Registry) (requests : List Request) (s : Session) :
    Prop where
  registry : s.registry = r
  lowerCase : s.activeName.lowerCase = s.activeName
  active :
    (∃ d, r.get? s.activeName = some d ∧
        s.active = { d with
          insertIndex :=
            (Request.lastChoice? requests).getD 0 % d.variants.length }) ∨
      (s.activeName = Family.erb.name ∧ r.get? s.activeName = none ∧
        s.active = { Family.erb.dialect with
          insertIndex := (Request.lastChoice? requests).getD 0 %
            Family.erb.dialect.variants.length })
  insertIndex_lt : s.active.insertIndex < s.active.variants.length
  eq_settled : s = .settled r (Request.lastSwitch? r requests)
    ((Request.lastChoice? requests).getD 0)

theorem lowerCase_erb :
    Family.erb.name.lowerCase = Family.erb.name := by decide +kernel

theorem start_eq_settled {r : Registry} (hr : r.Built) :
    start r = settled r none 0 := by
  have hfresh :
      ((r.get? Family.erb.name).getD Family.erb.dialect).insertIndex = 0 := by
    cases hd : r.get? Family.erb.name with
    | none => rfl
    | some d => exact hr.insertIndex_of_get? hd
  show start r = ⟨r, Family.erb.name.lowerCase,
    ((r.get? Family.erb.name).getD Family.erb.dialect).withInsertVariant 0, 0⟩
  rw [lowerCase_erb, Dialect.withInsertVariant_zero hfresh]
  rfl

/-- Switching a settled session settles it anew, if there is a dialect of the
name. -/
theorem select_settled (r : Registry) (name? : Option Text) (index : Nat)
    (name : Text) :
    (settled r name? index).select name = settled r
      ((Request.switch? r (.select name)).or name?) index := by
  have hget : (settled r name? index).registry.get? name = r.get? name := rfl
  cases hd : r.get? name with
  | none =>
    have hswitch : Request.switch? r (.select name) = none := by
      simp [Request.switch?, Registry.contains, hd]
    rw [hswitch, Option.none_or, select, hget, hd]
  | some d =>
    have hswitch : Request.switch? r (.select name) = some name := by
      simp [Request.switch?, Registry.contains, hd]
    rw [hswitch, Option.some_or, select, hget, hd]
    simp only [settled, Option.getD_some, hd]

/-- A settled session's dialect is the one of its name, if a dialect of that name
was there to be switched to. -/
theorem settledBy_settled (r : Registry) (requests : List Request) :
    SettledBy r requests
      (settled r (Request.lastSwitch? r requests)
        ((Request.lastChoice? requests).getD 0)) := by
  have hmod (d : Dialect) (index : Nat) :
      (d.withInsertVariant index).insertIndex <
        (d.withInsertVariant index).variants.length :=
    Nat.mod_lt index d.length_variants_pos
  refine ⟨rfl, lowerCase_lowerCase _, ?_, hmod _ _, rfl⟩
  obtain ⟨index, hindex⟩ : ∃ index, (Request.lastChoice? requests).getD 0 = index :=
    ⟨_, rfl⟩
  rw [hindex]
  cases hswitch : Request.lastSwitch? r requests with
  | some name =>
    obtain ⟨d, hd⟩ :=
      Option.isSome_iff_exists.1 (Request.contains_of_lastSwitch? hswitch)
    left
    refine ⟨d, ?_, ?_⟩
    · show r.get? name.lowerCase = some d
      rw [Registry.get?_lowerCase, hd]
    · show ((r.get? name).getD Family.erb.dialect).withInsertVariant index = _
      rw [hd]
      rfl
  | none =>
    have hactive : (settled r none index).active =
        ((r.get? Family.erb.name).getD Family.erb.dialect).withInsertVariant index :=
          rfl
    have hname : (settled r none index).activeName = Family.erb.name := lowerCase_erb
    rw [hname, hactive]
    cases hd : r.get? Family.erb.name with
    | some d => exact .inl ⟨d, rfl, rfl⟩
    | none => exact .inr ⟨rfl, rfl, rfl⟩

end Session

namespace Editing

/-- Each request settles the session anew in what it switches or chooses,
and keeps the rest. -/
theorem session_step (r : Registry) (name? : Option Text) (index : Nat)
    (buffer : Buffer) (request : Request) :
    ((Editing.mk (.settled r name? index) buffer).step request).1.session =
      .settled r ((request.switch? r).or name?) (request.choice?.getD index) := by
  cases request with
  | select name => exact Session.select_settled r name? index name
  | detect syntaxName fileName => exact Session.select_settled r name? index _
  | chooseInsert index' => rfl
  | cycle => rfl

theorem session_run_settled (r : Registry) (name? : Option Text) (index : Nat)
    (buffer : Buffer) (requests : List Request) :
    ((Editing.mk (.settled r name? index) buffer).run requests).session =
      .settled r ((Request.lastSwitch? r requests).or name?)
        ((Request.lastChoice? requests).getD index) := by
  induction requests generalizing name? index buffer with
  | nil => rfl
  | cons request rest ih =>
    obtain ⟨next, hnext⟩ : ∃ next,
        ((Editing.mk (.settled r name? index) buffer).step request).1 = next :=
          ⟨_, rfl⟩
    have hstep : next = ⟨.settled r ((request.switch? r).or name?)
        (request.choice?.getD index), next.buffer⟩ := by
      rw [← session_step r name? index buffer request, hnext]
    show (Editing.run _ rest).session = _
    rw [hnext, hstep, ih, Request.lastSwitch?, Request.lastSwitch?,
      Request.lastChoice?, Request.lastChoice?, getLast?_filterMap_cons,
      getLast?_filterMap_cons, Option.or_assoc, Option.getD_or]

/-- A session that was opened by requests and has been used is settled by all of
them. -/
theorem session_run_opened {r : Registry} {given : List Request} {s : Session}
    (h : Session.Opened r given s) (buffer : Buffer) (requests : List Request) :
    ((Editing.mk s buffer).run requests).session =
      .settled r (Request.lastSwitch? r (given ++ requests))
        ((Request.lastChoice? (given ++ requests)).getD 0) := by
  have hstart (hr : r.Built) (all : List Request) :
      ((Editing.mk (.start r) buffer).run all).session =
      .settled r (Request.lastSwitch? r all) ((Request.lastChoice? all).getD 0) := by
    rw [Session.start_eq_settled hr, session_run_settled, Option.or_none]
  cases h with
  | start hr => exact hstart hr requests
  | @configured settings _ _ hr hs =>
    have hstate : Editing.mk s buffer = (Editing.mk (.start r) buffer).run
        [.chooseInsert settings.insertVariant, .select settings.defaultDialect] := by
      unfold Settings.session at hs
      rw [hr] at hs
      cases hs
      rfl
    rw [hstate, ← run_append]
    exact hstart (Registry.Built.registerAll .builtin hr) _

/-- After any run the session is what the requests have settled, and so it is the
same as after any other run that switched to the same dialect last and chose the
same variant last. -/
theorem session_run_settledBy {r : Registry} {given : List Request} {s : Session}
    (h : Session.Opened r given s) (buffer : Buffer) (requests : List Request) :
    Session.SettledBy r (given ++ requests)
      ((Editing.mk s buffer).run requests).session ∧
      ∀ (given' : List Request) (s' : Session) (buffer' : Buffer)
        (requests' : List Request),
        Session.Opened r given' s' →
        Request.lastSwitch? r (given' ++ requests') =
          Request.lastSwitch? r (given ++ requests) →
        (Request.lastChoice? (given' ++ requests')).getD 0 =
          (Request.lastChoice? (given ++ requests)).getD 0 →
          ((Editing.mk s' buffer').run requests').session =
            ((Editing.mk s buffer).run requests).session := by
  have hsession := session_run_opened h buffer requests
  refine ⟨?_, ?_⟩
  · rw [hsession]
    exact Session.settledBy_settled r (given ++ requests)
  · intro given' s' buffer' requests' h' hswitch hchoice
    rw [hsession, session_run_opened h' buffer' requests', hswitch, hchoice]

/-- Settings with a name in mixed case, an unknown dialect asked for, and a
registry without a dialect. -/
theorem session_run_settledBy_mixed_case :
    let settings : Settings := ⟨"Twig".toList, 8, []⟩
    let opened := ((Session.start .builtin).withInsertVariant 8).select "Twig".toList
    let given : List Request := [.chooseInsert 8, .select "Twig".toList]
    let used : List Request := [.select "PHP".toList, .cycle, .select "JINJA".toList,
      .chooseInsert 3, .select "x".toList]
    let unknown : List Request := [.chooseInsert 8, .select "erb".toList]
    let buffer := Buffer.ofText []
    settings.session = .ok opened ∧ Session.Opened .builtin given opened ∧
      Session.SettledBy .builtin (given ++ used)
        ((Editing.mk opened buffer).run used).session ∧
      Request.lastSwitch? .builtin (given ++ used) = some "JINJA".toList ∧
      Request.lastChoice? (given ++ used) = some 3 ∧
      Session.SettledBy .empty unknown
        ((Editing.mk (.start .empty) buffer).run unknown).session ∧
      Request.lastSwitch? .empty unknown = none := by
  intro settings opened given used unknown buffer
  have hopened : Session.Opened .builtin given opened :=
    @Session.Opened.configured settings _ _ rfl rfl
  refine ⟨rfl, hopened, ?_, by decide +kernel, by decide, ?_, by decide +kernel⟩
  · exact (session_run_settledBy hopened buffer used).1
  · exact (session_run_settledBy (Session.Opened.start .empty) buffer unknown).1

end Editing

end TemplateTags
