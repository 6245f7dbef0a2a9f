import TemplateTags.Proofs.Dialect.LastWriter
import TemplateTags.Proofs.Settings.Keys
/-!
# Which dialect a name of the configuration finds

The names and the aliases of all tables are written into one registry, in the
order of the names, and what is written last is found. Of the tables that have a
name or list it as an alias that is the last one, so a table is not found under
its own name if a later one lists that name (`Settings.not_found_under_own_name`).
The other names find what they find among the built-in dialects
(`Settings.registry_finds`).
-/

namespace TemplateTags

open Text

/-- One of the aliases is the same as the name that is asked for, in lower case. -/
def DialectTable.Lists (t : DialectTable) (query : Text) : Prop :=
  ∃ other ∈ t.aliases, other.lowerCase = query.lowerCase

instance (t : DialectTable) (query : Text) : Decidable (t.Lists query) :=
  inferInstanceAs (Decidable (∃ other ∈ t.aliases,
    other.lowerCase = query.lowerCase))

/-- The last of several tables that list a name. -/
def DialectTable.lastListing? (tables : List (Text × DialectTable))
    (query : Text) : Option DialectTable :=
  (tables.filterMap fun entry =>
    if entry.2.Lists query then some entry.2 else none).getLast?

namespace Registry

variable {tables : List (Text × DialectTable)} {query : Text}

/-- A table that has another name answers what it lists. -/
theorem answer?_of_ne {entry : Text × DialectTable}
    (hne : entry.1.lowerCase ≠ query.lowerCase) :
    answer? query entry = if entry.2.Lists query then entry.2.compile.toOption
    else none := by
  have hiff : (∃ name ∈ entry.2.aliases ++ [entry.1],
      name.lowerCase = query.lowerCase) ↔ entry.2.Lists query := by
    constructor
    · intro hname
      obtain ⟨name, hmem, heq⟩ := hname
      rcases List.mem_append.1 hmem with hmem | hmem
      · exact ⟨name, hmem, heq⟩
      · obtain rfl := List.mem_singleton.1 hmem
        exact absurd heq hne
    · intro hlists
      obtain ⟨other, hmem, heq⟩ := hlists
      exact ⟨other, List.mem_append_left _ hmem, heq⟩
  unfold answer?
  simp only [hiff]

/-- Tables that all have other names are answered by the last one that lists the
name. -/
theorem lastAnswer?_of_ne
    (hne : ∀ entry ∈ tables, entry.1.lowerCase ≠ query.lowerCase)
    (hcompiles : ∀ entry ∈ tables, ∃ d, entry.2.compile = .ok d) :
    (DialectTable.lastListing? tables query = none ∧
      lastAnswer? tables query = none) ∨
      ∃ t d, DialectTable.lastListing? tables query = some t ∧ t.compile = .ok d ∧
        lastAnswer? tables query = some d := by
  induction tables with
  | nil => exact .inl ⟨rfl, rfl⟩
  | cons entry rest ih =>
    obtain ⟨hentry, hrest⟩ := List.forall_mem_cons.1 hne
    obtain ⟨⟨d, hd⟩, hcompiles⟩ := List.forall_mem_cons.1 hcompiles
    have hlisting : DialectTable.lastListing? (entry :: rest) query =
        (DialectTable.lastListing? rest query).or
          (if entry.2.Lists query then some entry.2 else none) :=
      getLast?_filterMap_cons _ entry rest
    have hanswer : lastAnswer? (entry :: rest) query =
        (lastAnswer? rest query).or
          (if entry.2.Lists query then some d else none) := by
      rw [lastAnswer?, getLast?_filterMap_cons, answer?_of_ne hentry, hd]
      rfl
    rw [hlisting, hanswer]
    rcases ih hrest hcompiles with ⟨hnone, hnone'⟩ | ⟨t, d', hsome, hcompile, hsome'⟩
    · rw [hnone, hnone', Option.none_or, Option.none_or]
      by_cases hlists : entry.2.Lists query
      · rw [if_pos hlists, if_pos hlists]
        exact .inr ⟨entry.2, d, rfl, hd, rfl⟩
      · rw [if_neg hlists, if_neg hlists]
        exact .inl ⟨rfl, rfl⟩
    · right
      rw [hsome, hsome', Option.some_or, Option.some_or]
      exact ⟨t, d', rfl, hcompile, rfl⟩

/-- Among tables with different names, the one that has the name answers, or the
last one behind it that lists it. -/
theorem lastAnswer?_of_eq {front behind : List (Text × DialectTable)}
    {name : Text} {t : DialectTable} (hname : name.lowerCase = query.lowerCase)
    (hne : ∀ entry ∈ behind, entry.1.lowerCase ≠ query.lowerCase)
    (hcompiles : ∀ entry ∈ front ++ (name, t) :: behind, ∃ d,
      entry.2.compile = .ok d) :
    ∃ d, ((DialectTable.lastListing? behind query).getD t).compile = .ok d ∧
      lastAnswer? (front ++ (name, t) :: behind) query = some d := by
  obtain ⟨-, hcompiles⟩ := List.forall_mem_append.1 hcompiles
  obtain ⟨⟨d, hd⟩, hcompiles⟩ := List.forall_mem_cons.1 hcompiles
  have hown : answer? query (name, t) = some d := by
    unfold answer?
    rw [if_pos ⟨name, List.mem_append_right _ List.mem_cons_self, hname⟩, hd]
    rfl
  have hanswer : lastAnswer? (front ++ (name, t) :: behind) query =
      (lastAnswer? behind query).or (some d) := by
    rw [lastAnswer?, List.filterMap_append, List.getLast?_append,
      getLast?_filterMap_cons, hown, Option.or_assoc, Option.some_or]
    rfl
  rw [hanswer]
  rcases lastAnswer?_of_ne hne hcompiles with ⟨hnone, hnone'⟩ | ⟨t', d', hsome,
    hcompile, hsome'⟩
  · rw [hnone, hnone']
    exact ⟨d, hd, rfl⟩
  · rw [hsome, hsome']
    exact ⟨d', hcompile, rfl⟩

end Registry

namespace Settings

theorem registry_error_iff (settings : Settings) :
    (∃ e, settings.registry = .error e) ↔ ∃ entry ∈ settings.dialects, ∃ e,
      entry.2.compile = .error e := by
  unfold registry
  rcases Registry.registerAll_cases .builtin
    settings.dialects with ⟨hok, hcompiles⟩ | ⟨e, herror, entry, hmem, hfails⟩
  · rw [hok]
    constructor
    · intro herror
      obtain ⟨e, herror⟩ := herror
      cases herror
    · intro hfails
      obtain ⟨entry, hmem, e, hfails⟩ := hfails
      obtain ⟨d, hd⟩ := hcompiles entry hmem
      rw [hd] at hfails
      cases hfails
  · exact ⟨fun _ => ⟨entry, hmem, e, hfails⟩, fun _ => ⟨e, herror⟩⟩

theorem registry_eq_ok {settings : Settings} {r : Registry}
    (h : settings.registry = .ok r) :
    r = Registry.builtin.afterCalls settings.dialects ∧ ∀ entry ∈ settings.dialects,
      ∃ d, entry.2.compile = .ok d := by
  unfold registry at h
  rcases Registry.registerAll_cases .builtin
    settings.dialects with ⟨hok, hcompiles⟩ | ⟨e, herror, -⟩
  · rw [hok] at h
    exact ⟨(Except.ok.inj h).symm, hcompiles⟩
  · rw [herror] at h
    cases h

/-- In the registry of a configuration each table is found under its own name,
unless a later one lists that name: then the last that does is found. A name that
no table has finds the last table that lists it, and a name that none lists either
finds what it finds among the built-in dialects. There is no such registry if and
only if some table does not compile. -/
theorem registry_finds {documents : List Text} {overrides : List (Text × Setting)}
    {settings : Settings} (h : ofLayers? documents overrides = some settings) :
    settings.Named ∧
      ((∃ e, settings.registry = .error e) ↔ ∃ entry ∈ settings.dialects, ∃ e,
        entry.2.compile = .error e) ∧
      ∀ r, settings.registry = .ok r → ∀ query : Text,
        (∀ front table behind,
          settings.dialects = front ++ (query.lowerCase, table) :: behind →
          ∃ d, ((DialectTable.lastListing? behind query).getD table).compile =
            .ok d ∧ r.get? query = some d) ∧
        (query.lowerCase ∉ settings.dialects.map Prod.fst →
          (∀ table, DialectTable.lastListing? settings.dialects query = some table →
            ∃ d, table.compile = .ok d ∧ r.get? query = some d) ∧
          (DialectTable.lastListing? settings.dialects query = none →
            r.get? query = Registry.builtin.get? query)) := by
  have hnamed := named_ofLayers? h
  refine ⟨hnamed, registry_error_iff settings, ?_⟩
  intro r hr query
  obtain ⟨rfl, hcompiles⟩ := registry_eq_ok hr
  have hfolded := hnamed.folded
  have hascending := hnamed.ascending
  rw [Registry.get?_afterCalls]
  constructor
  · intro front table behind heq
    rw [heq] at hcompiles hfolded hascending ⊢
    have hne : ∀ entry ∈ behind, entry.1.lowerCase ≠ query.lowerCase := by
      intro entry hentry hsame
      obtain ⟨-, hbehind, -⟩ := List.pairwise_append.1 hascending
      have hbefore := (List.pairwise_cons.1 hbehind).1 entry hentry
      rw [hfolded entry (List.mem_append_right _
        (List.mem_cons_of_mem _ hentry))] at hsame
      rw [hsame, isBefore_self] at hbefore
      cases hbefore
    obtain ⟨d, hcompile, hanswer⟩ :=
      Registry.lastAnswer?_of_eq (lowerCase_lowerCase query) hne hcompiles
    exact ⟨d, hcompile, by rw [hanswer, Option.some_or]⟩
  · intro hnotMem
    have hne : ∀ entry ∈ settings.dialects, entry.1.lowerCase ≠ query.lowerCase := by
      intro entry hentry hsame
      rw [hfolded entry hentry] at hsame
      exact hnotMem (List.mem_map.2 ⟨entry, hentry, hsame⟩)
    rcases Registry.lastAnswer?_of_ne hne hcompiles with ⟨hnone, hnone'⟩ | ⟨t, d,
      hsome, hcompile, hsome'⟩
    · rw [hnone, hnone']
      exact ⟨fun _ hlisting => (nomatch hlisting), fun _ => Option.none_or⟩
    · rw [hsome, hsome']
      refine ⟨?_, fun hlisting => nomatch hlisting⟩
      intro table hlisting
      obtain rfl := Option.some.inj hlisting
      exact ⟨d, hcompile, rfl⟩

/-- A document with a table that lists the name of another one and a setting that
changes it, each in its own case. -/
theorem registry_finds_listed_name :
    let document : Text :=
      "[dialects.Liquid]\nopener = '<'\ncloser = '>'\naliases = ['PHP']\n
[dialects.zed]\nopener = '['\ncloser = ']'\naliases = ['LIQUID']".toList
    let liquid : DialectTable := ⟨"<".toList, ">".toList, [], ["PHP".toList]⟩
    let zed : DialectTable := ⟨"(".toList, "]".toList, [], ["LIQUID".toList]⟩
    let settings : Settings :=
      ⟨"erb".toList, 0, [("liquid".toList, liquid), ("zed".toList, zed)]⟩
    ofLayers? [document] [("dialects.ZED.opener".toList, .text "(".toList)] =
      some settings ∧
      ∃ r, settings.registry = .ok r ∧
        (∃ d, zed.compile = .ok d ∧ r.get? "LiQuid".toList = some d) ∧
        (∃ d, liquid.compile = .ok d ∧ r.get? "php".toList = some d) ∧
        r.get? "EJS".toList = Registry.builtin.get? "EJS".toList := by
  intro document liquid zed settings
  have hlayers : ofLayers? [document]
      [("dialects.ZED.opener".toList, .text "(".toList)] = some settings := by
    decide +kernel
  obtain ⟨-, -, hfinds⟩ := registry_finds hlayers
  cases hr : settings.registry with
  | error e =>
    have hok : settings.registry.toOption.isSome := by decide +kernel
    rw [hr] at hok
    cases hok
  | ok r =>
    have hliquid := (hfinds r hr "LiQuid".toList).1 [] liquid [("zed".toList, zed)]
      (by decide +kernel)
    have hphp :=
      ((hfinds r hr "php".toList).2 (by decide +kernel)).1 liquid (by decide +kernel)
    have hejs :=
      ((hfinds r hr "EJS".toList).2 (by decide +kernel)).2 (by decide +kernel)
    have hlisting : DialectTable.lastListing? [("zed".toList, zed)] "LiQuid".toList =
        some zed := by decide +kernel
    rw [hlisting] at hliquid
    exact ⟨hlayers, r, rfl, hliquid, hphp, hejs⟩

/-- A table whose name a later one lists as an alias is not found under its own
name. -/
theorem not_found_under_own_name :
    let document : Text := "[dialects.first]\nopener = '<'\ncloser = '>'\n
[dialects.second]\nopener = '['\ncloser = ']'\naliases = ['first']".toList
    let first : DialectTable := ⟨"<".toList, ">".toList, [], []⟩
    let second : DialectTable := ⟨"[".toList, "]".toList, [], ["first".toList]⟩
    let settings : Settings :=
      ⟨"erb".toList, 0, [("first".toList, first), ("second".toList, second)]⟩
    ofLayers? [document] [] = some settings ∧ ∃ r, settings.registry = .ok r ∧
      ¬ ∀ name table, (name, table) ∈ settings.dialects → ∀ query : Text,
        query.lowerCase = name →
        ∃ d, table.compile = .ok d ∧ r.get? query = some d := by
  intro document first second settings
  have hlayers : ofLayers? [document] [] = some settings := by decide +kernel
  have hfound : (settings.registry.toOption.bind (·.get? "first".toList)).map
      (·.opener) = some "[".toList := by
    decide +kernel
  have hfirst : first.compile.toOption.map (·.opener) = some "<".toList := by
    decide +kernel
  refine ⟨hlayers, ?_⟩
  cases hr : settings.registry with
  | error e =>
    rw [hr] at hfound
    cases hfound
  | ok r =>
    refine ⟨r, rfl, ?_⟩
    intro hclaim
    obtain ⟨d, hd, hget⟩ := hclaim "first".toList first List.mem_cons_self
      "first".toList (by decide +kernel)
    have hget' : (r.get? "first".toList).map (·.opener) = some "[".toList := by
      rw [hr] at hfound
      exact hfound
    rw [hget] at hget'
    rw [hd] at hfirst
    have hopener : d.opener = "<".toList := Option.some.inj hfirst
    have hopener' : d.opener = "[".toList := Option.some.inj hget'
    rw [hopener] at hopener'
    cases hopener'

end Settings

end TemplateTags
