import TemplateTags.Proofs.Text.LowerCase
import TemplateTags.Settings.Layers
/-!
# Keys of the configuration

Keys are brought into lower case when a value is laid under them, and a value that
is laid under a key that is there takes the old one's place. So the dialects of a
configuration have names in lower case, each once (`Setting.Root.keyed`), whatever
documents and single settings it was made of, and they come in the order of their
names (`Settings.named_ofLayers?`).
-/

namespace TemplateTags

open Text

namespace Setting

/-- The keys of a table are in lower case, each once. -/
structure Keyed (entries : List (Text × Setting)) : Prop where
  folded : ∀ key ∈ entries.map Prod.fst, key.lowerCase = key
  nodup : (entries.map Prod.fst).Nodup

theorem keyed_nil : Keyed [] := ⟨by simp, by simp⟩

/-! ## One key -/

theorem mem_keys_replace {key other : Text} {value : Setting}
    {entries : List (Text × Setting)} :
    other ∈ (replace key value entries).map Prod.fst ↔
      other = key ∨ other ∈ entries.map Prod.fst := by
  induction entries with
  | nil => simp [replace]
  | cons entry rest ih =>
    unfold replace
    split
    next heq => simp [← heq]
    next =>
      rw [List.map_cons, List.mem_cons, ih, List.map_cons, List.mem_cons]
      exact or_left_comm

theorem Keyed.replace {key : Text} {entries : List (Text × Setting)}
    (h : Keyed entries) (hkey : key.lowerCase = key) (value : Setting) :
    Keyed (replace key value entries) := by
  constructor
  · intro other hother
    rcases mem_keys_replace.1 hother with rfl | hother
    · exact hkey
    · exact h.folded other hother
  · have hnodup := h.nodup
    clear h
    induction entries with
    | nil => simp [Setting.replace]
    | cons entry rest ih =>
      obtain ⟨hentry, hrest⟩ := List.nodup_cons.1 hnodup
      unfold Setting.replace
      split
      next => exact hnodup
      next hne =>
        apply List.nodup_cons.2
        refine ⟨?_, ih hrest⟩
        intro hmem
        rcases mem_keys_replace.1 hmem with heq | hmem
        · exact hne heq
        · exact hentry hmem

theorem find?_replace (key other : Text) (value : Setting)
    (entries : List (Text × Setting)) :
    find? (replace key value entries) other = if key = other then some value else
      find? entries other := by
  unfold find?
  induction entries with
  | nil => by_cases h : key = other <;> simp [replace, h]
  | cons entry rest ih =>
    unfold replace
    split
    next heq => by_cases h : key = other <;> simp [heq, h]
    next hne =>
      by_cases hentry : entry.1 = other
      · have hkey : key ≠ other := fun h => hne (hentry.trans h.symm)
        simp [hentry, hkey]
      · simp [hentry, ih]

/-! ## Values laid over a table -/

theorem Keyed.put {here : Setting} (h : Keyed here.entries) (key : Text)
    (value : Setting) :
    Keyed (put key value here).entries := by
  unfold Setting.put
  split <;> exact h.replace (lowerCase_lowerCase key) _

theorem Keyed.putAll {here : Setting} (h : Keyed here.entries)
    (fields : List (Text × Setting)) :
    Keyed (putAll fields here).entries := by
  induction fields generalizing here with
  | nil => simpa [Setting.putAll] using h
  | cons field rest ih =>
    obtain ⟨key, value⟩ := field
    unfold Setting.putAll
    exact ih (h.put key value)

/-- The keys of a path's parts are in lower case. -/
def FoldedStep : PathStep → Prop
  | .key key => key.lowerCase = key
  | .index _ => True

theorem Keyed.changeStep? {step : PathStep} {change : Setting → Option Setting}
    {here made : Setting} (h : Keyed here.entries) (hstep : FoldedStep step)
    (hmade : changeStep? step change here = some made) :
    Keyed made.entries := by
  cases step with
  | key key =>
    obtain ⟨value, -, rfl⟩ := Option.map_eq_some_iff.1 hmade
    exact h.replace hstep value
  | index index =>
    obtain ⟨place, -, hitems⟩ := Option.bind_eq_some_iff.1 hmade
    obtain ⟨items, -, rfl⟩ := Option.map_eq_some_iff.1 hitems
    exact keyed_nil

theorem putBehind?_cons (value : Setting) (step next : PathStep)
    (rest : List PathStep) (here : Setting) :
    putBehind? value step (next :: rest) here =
      changeStep? step (putBehind? value next rest) here := by
  cases step <;> rfl

theorem Keyed.putBehind? {value : Setting} {step : PathStep}
    {rest : List PathStep} {here made : Setting} (h : Keyed here.entries)
    (hstep : FoldedStep step)
    (hmade : putBehind? value step rest here = some made) :
    Keyed made.entries := by
  cases rest with
  | nil =>
    cases step with
    | key key =>
      obtain rfl := Option.some.inj hmade
      exact h.put key value
    | index index => exact h.changeStep? hstep hmade
  | cons next rest =>
    rw [putBehind?_cons] at hmade
    exact h.changeStep? hstep hmade

theorem foldedStep_of_steps? {fuel : Nat} {text : Text} {steps : List PathStep}
    (h : SettingPath.steps? fuel text = some steps) :
    ∀ step ∈ steps, FoldedStep step := by
  fun_induction SettingPath.steps? fuel text generalizing steps with
  | case1 =>
    obtain rfl := Option.some.inj h
    simp
  | case2 => cases h
  | case3 fuel rest ih =>
    obtain ⟨key, -, h⟩ := Option.bind_eq_some_iff.1 h
    obtain ⟨behind, hbehind, h⟩ := Option.bind_eq_some_iff.1 h
    obtain rfl := Option.some.inj h
    exact List.forall_mem_cons.2 ⟨lowerCase_lowerCase key.1, ih key hbehind⟩
  | case4 fuel rest ih =>
    obtain ⟨index, -, h⟩ := Option.bind_eq_some_iff.1 h
    obtain ⟨behind, hbehind, h⟩ := Option.bind_eq_some_iff.1 h
    obtain rfl := Option.some.inj h
    exact List.forall_mem_cons.2 ⟨trivial, ih index hbehind⟩
  | case5 => cases h

theorem foldedStep_of_ofText? {text : Text} {path : SettingPath}
    (h : SettingPath.ofText? text = some path) :
    ∀ step ∈ path.steps, FoldedStep step := by
  obtain ⟨root, -, h⟩ := Option.bind_eq_some_iff.1 h
  obtain ⟨steps, hsteps, h⟩ := Option.bind_eq_some_iff.1 h
  obtain rfl := Option.some.inj h
  exact foldedStep_of_steps? hsteps

/-! ## The configuration -/

/-- A whole configuration: a table, in which the dialects have names in
lower case, each once. -/
structure Root (s : Setting) : Prop where
  eq_table : s = table s.entries
  keyed : ∀ value, find? s.entries "dialects".toList = some value →
    Keyed value.entries

theorem root_defaults : Root Settings.defaults where
  eq_table := rfl
  keyed := fun _ h => nomatch h

namespace Root

variable {s made : Setting} (h : Root s)

include h

theorem keyed_getD (default : Setting) (hdefault : default.entries = []) :
    Keyed ((find? s.entries "dialects".toList).getD default).entries := by
  cases hvalue : find? s.entries "dialects".toList with
  | none =>
    show Keyed default.entries
    rw [hdefault]
    exact keyed_nil
  | some value => exact h.keyed value hvalue

theorem replace {key : Text} {value : Setting}
    (hvalue : key = "dialects".toList → Keyed value.entries) :
    Root (table (replace key value s.entries)) := by
  refine ⟨rfl, ?_⟩
  intro found hfound
  have hfind : (if key = "dialects".toList then some value else
    find? s.entries "dialects".toList) = some found := by
    rw [← find?_replace]
    exact hfound
  split at hfind
  next hkey =>
    obtain rfl := Option.some.inj hfind
    exact hvalue hkey
  next => exact h.keyed found hfind

theorem put (key : Text) (value : Setting) : Root (put key value s) := by
  cases value with
  | table fields =>
    rw [Setting.put]
    apply h.replace
    intro hkey
    rw [hkey]
    exact (h.keyed_getD (table []) rfl).putAll fields
  | _ => exact h.replace fun _ => keyed_nil

theorem putAt? {path : SettingPath} {value : Setting}
    (hpath : ∀ step ∈ path.steps, FoldedStep step)
    (hmade : putAt? path value s = some made) : Root made := by
  obtain ⟨root, steps⟩ := path
  cases steps with
  | nil =>
    obtain rfl := Option.some.inj hmade
    exact h.put root value
  | cons next rest =>
    obtain ⟨changed, hchanged, rfl⟩ :=
      Option.map_eq_some_iff.1 ((putBehind?_cons ..).symm.trans hmade)
    apply h.replace
    intro hkey
    subst hkey
    exact (h.keyed_getD missing rfl).putBehind?
      (hpath next List.mem_cons_self) hchanged

theorem layEntry? {entry : Text × Setting}
    (hmade : Settings.layEntry? s entry = some made) : Root made := by
  unfold Settings.layEntry? at hmade
  split at hmade
  next path hpath => exact h.putAt? (foldedStep_of_ofText? hpath) hmade
  next =>
    obtain rfl := Option.some.inj hmade
    exact h.put entry.1 entry.2

theorem layOverride? {override : Text × Setting}
    (hmade : Settings.layOverride? s override = some made) :
    Root made := by
  obtain ⟨path, hpath, hmade⟩ := Option.bind_eq_some_iff.1 hmade
  exact h.putAt? (foldedStep_of_ofText? hpath) hmade

/-- What each of several layers keeps they keep together. -/
theorem foldlM {α : Type} {lay : Setting → α → Option Setting}
    (hlay : ∀ {s made : Setting} {a : α}, Root s → lay s a = some made → Root made)
    {layers : List α} (hmade : layers.foldlM lay s = some made) : Root made := by
  induction layers generalizing s with
  | nil =>
    obtain rfl := Option.some.inj hmade
    exact h
  | cons layer rest ih =>
    rw [List.foldlM_cons] at hmade
    obtain ⟨next, hnext, hmade⟩ := Option.bind_eq_some_iff.1 hmade
    exact ih (hlay h hnext) hmade

theorem layDocument? {document : Text}
    (hmade : Settings.layDocument? s document = some made) : Root made := by
  obtain ⟨entries, -, hmade⟩ := Option.bind_eq_some_iff.1 hmade
  exact h.foldlM (fun hroot => hroot.layEntry?) hmade

end Root

end Setting

namespace Settings

/-- The dialects have names in lower case, and come in the order of their names. -/
structure Named (settings : Settings) : Prop where
  folded : ∀ entry ∈ settings.dialects, entry.1.lowerCase = entry.1
  ascending : settings.dialects.Pairwise fun first second =>
    first.1.isBefore second.1

theorem names_of_mapM {entries : List (Text × Setting)}
    {tables : List (Text × DialectTable)}
    (h : entries.mapM (fun entry => entry.2.toTable?.map fun t => (entry.1, t)) =
      some tables) :
    tables.map Prod.fst = entries.map Prod.fst := by
  induction entries generalizing tables with
  | nil =>
    obtain rfl := Option.some.inj h
    rfl
  | cons entry rest ih =>
    rw [List.mapM_cons] at h
    obtain ⟨first, hfirst, h⟩ := Option.bind_eq_some_iff.1 h
    obtain ⟨others, hothers, h⟩ := Option.bind_eq_some_iff.1 h
    obtain ⟨table, -, rfl⟩ := Option.map_eq_some_iff.1 hfirst
    obtain rfl := Option.some.inj h
    rw [List.map_cons, List.map_cons, ih hothers]

/-- The dialects of a configuration are those of its dialect tables. -/
theorem dialects_of_ofSetting? {entries : List (Text × Setting)}
    {settings : Settings} (h : ofSetting? (.table entries) = some settings) :
    Setting.toDialects? (Setting.find? entries "dialects".toList) =
      some settings.dialects := by
  obtain ⟨cycle, -, h⟩ := Option.bind_eq_some_iff.1 h
  obtain ⟨fields, -, h⟩ := Option.bind_eq_some_iff.1 h
  split at h
  next =>
    obtain ⟨dialect, -, h⟩ := Option.bind_eq_some_iff.1 h
    obtain ⟨name, -, h⟩ := Option.bind_eq_some_iff.1 h
    obtain ⟨variant, -, h⟩ := Option.bind_eq_some_iff.1 h
    obtain ⟨index, -, h⟩ := Option.bind_eq_some_iff.1 h
    obtain ⟨dialects, hdialects, h⟩ := Option.bind_eq_some_iff.1 h
    obtain rfl := Option.some.inj h
    exact hdialects
  next => cases h

theorem named_of_toDialects? {value? : Option Setting} {settings : Settings}
    (hkeyed : ∀ value, value? = some value → Setting.Keyed value.entries)
    (h : Setting.toDialects? value? = some settings.dialects) : settings.Named := by
  unfold Setting.toDialects? at h
  split at h
  next =>
    have hnil : settings.dialects = [] := (Option.some.inj h).symm
    exact ⟨by simp [hnil], by simp [hnil]⟩
  next entries =>
    have hentries := hkeyed (.table entries) rfl
    have hperm := perm_sortBy Setting.keyBefore entries
    have hnames := names_of_mapM h
    have hfolded : ∀ key ∈ settings.dialects.map Prod.fst, key.lowerCase = key := by
      intro key hkey
      rw [hnames] at hkey
      exact hentries.folded key ((hperm.map Prod.fst).mem_iff.1 hkey)
    have hsorted : ((sortBy Setting.keyBefore entries).map Prod.fst).Pairwise
        (isAtMost · ·) := by
      apply List.pairwise_map.2
      exact @pairwise_sortBy _ Setting.keyBefore (fun a b => isAtMost_total a.1 b.1)
        (fun _ _ _ => isAtMost_trans)
        entries
    have hnodup : ((sortBy Setting.keyBefore entries).map Prod.fst).Nodup :=
      (hperm.map Prod.fst).nodup_iff.2 hentries.nodup
    have hascending : ((sortBy Setting.keyBefore entries).map Prod.fst).Pairwise
        (isBefore · ·) := by
      -- Of two different names the one that does not come behind the
      -- other comes before it.
      apply hsorted.imp₂ _ hnodup
      intro first second hmost hne
      exact isBefore_of_ne (Ne.symm hne) (by simpa [isAtMost] using hmost)
    rw [← hnames] at hascending
    exact ⟨fun entry hentry => hfolded entry.1 (List.mem_map_of_mem hentry),
      List.pairwise_map.1 hascending⟩
  next => cases h

theorem named_of_ofSetting? {s : Setting} {settings : Settings} (h : s.Root)
    (hread : ofSetting? s = some settings) :
    settings.Named := by
  rw [h.eq_table] at hread
  exact named_of_toDialects? h.keyed (dialects_of_ofSetting? hread)

/-- Whatever documents and single settings it is made of, a
configuration names its dialects in lower case, each once, and they come
in the order of their names. -/
theorem named_ofLayers? {documents : List Text}
    {overrides : List (Text × Setting)} {settings : Settings}
    (h : ofLayers? documents overrides = some settings) : settings.Named := by
  obtain ⟨laid, hlaid, h⟩ := Option.bind_eq_some_iff.1 h
  obtain ⟨made, hmade, h⟩ := Option.bind_eq_some_iff.1 h
  have hroot : laid.Root :=
    Setting.root_defaults.foldlM (fun hroot => hroot.layDocument?) hlaid
  exact named_of_ofSetting? (hroot.foldlM (fun hroot => hroot.layOverride?) hmade) h

end Settings

end TemplateTags
