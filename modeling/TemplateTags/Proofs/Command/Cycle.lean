import TemplateTags.Command.Response
import TemplateTags.Proofs.Command.Files
import TemplateTags.Proofs.Command.Printed
import TemplateTags.Proofs.Session.Settled
/-!
# The cycle command

The command makes seven checks (`Check`). Each is a question of its own about the
arguments and the files, and what it asks about is there if the checks before it
pass. The command fails with the first check that fails, in their order, and tells
of it in the words of the failure (`Failure.words`). If all pass it prints or
writes what an action of a session on the file's text gives (`respond_cycle`): the
text, the selections in words, or a record of both with the edits
(`resultRecord`). The session is that of the configuration, whose documents
`layers?` puts in order, in the dialect that `dialectName?` chooses. The command
overwrites nothing unless it succeeds.
-/

namespace TemplateTags.Command

open Text

/-! ## What the checks are about -/

/-- The name of the dialect that is chosen: the one that is asked for, or else
that of the file's ending, or else the configured one, both only if there is a
dialect of that name. -/
def dialectName? (r : Registry) (defaultDialect : Text) (request : CycleRequest) :
    Option Text :=
  request.dialect.or
    (((FilePath.extension? request.path).filter r.contains).or
      (Option.guard r.contains defaultDialect))

/-- The documents of a configuration, each of which is laid over those in front of
it: that of the project, if there is one, and the one that is asked for, which has
to be there. -/
def layers? (project : FileState) (requested : Option FileState) :
    Option (List Text) := do
  let projectDocuments ← match project with
    | .missing => some []
    | .unreadable => none
    | .file text => some [text]
  let requestedDocuments ← match requested with
    | none => some []
    | some (.file text) => some [text]
    | some _ => none
  return projectDocuments ++ requestedDocuments

/-- The configuration, arguments and files of a cycle command. -/
structure CycleInput where
  config : Option Text
  request : CycleRequest
  files : Files

namespace CycleInput

/-- The path of the configuration file beside the template. -/
def projectDocument (input : CycleInput) : Text :=
  FilePath.beside input.request.path "templater.toml".toList

/-- Where the configuration file of a path is: there, or where the ending of such
a file is put behind the path. -/
def place? (input : CycleInput) (path : Text) : Option Text :=
  (path :: (FilePath.withEnding? path ".toml".toList).toList).find? fun p =>
    input.files p ≠ .missing

/-- What there is of the configuration file of a path. -/
def document (input : CycleInput) (path : Text) : FileState :=
  (input.place? path).elim .missing input.files

/-- The layered configuration, if it can be built. A variant that is asked for is
laid over all documents. -/
def settings? (input : CycleInput) : Option Settings :=
  let asked := input.request.insertVariant.toList.map fun (n : Nat) =>
    ("cycle.insert_variant".toList, Setting.integer n)
  (layers? (input.document input.projectDocument)
    (input.config.map input.document)).bind fun documents =>
      Settings.ofLayers? documents asked

/-- The built-in dialects and those of the configuration, if they compile. -/
def registry? (input : CycleInput) : Option Registry :=
  input.settings?.bind (·.registry.toOption)

/-- The session of the configuration in the chosen dialect. -/
def session? (input : CycleInput) : Option Session :=
  input.settings?.bind fun settings => settings.registry.toOption.map fun r =>
    .settled r (dialectName? r settings.defaultDialect input.request)
      settings.insertVariant

/-- The selections that can be read. -/
def spans (input : CycleInput) : List Span :=
  input.request.selections.filterMap selection?

/-- The text of the file, if it can be read. -/
def text? (input : CycleInput) : Option Text :=
  match input.files input.request.path with
  | .file text => some text
  | _ => none

/-- The file's text with the selections, if they are in it. -/
def buffer? (input : CycleInput) : Option Buffer :=
  input.text?.bind fun text =>
    ((Buffer.ofText text).withSelections input.spans).toOption

end CycleInput

/-- The checks of the command, in the order in which they are made. -/
inductive Check where
  /-- the configuration can be built -/
  | configuration
  /-- the selections can be read -/
  | selections
  /-- the configured dialects compile -/
  | dialects
  /-- there is a dialect of the name that is asked for -/
  | chosenDialect
  /-- the file can be read -/
  | file
  /-- the selections are in the file's text -/
  | bounds
  /-- no two edits overlap -/
  | edits
deriving DecidableEq, Repr

namespace Check

def all : List Check :=
  [configuration, selections, dialects, chosenDialect, file, bounds, edits]

/-- How a check fails. Where there is nothing to check it does not. -/
def failure? (input : CycleInput) : Check → Option Failure
  | configuration => if input.settings?.isNone then some .configuration else none
  | selections =>
    (input.request.selections.find? fun text => (selection? text).isNone).map
      .invalidSelection
  | dialects => input.settings?.bind fun settings =>
    match settings.registry with
    | .ok _ => none
    | .error e => some (.invalidDialect e)
  | chosenDialect => input.registry?.bind fun r =>
    (input.request.dialect.filter fun name => !r.contains name).map .unknownDialect
  | file => if input.text?.isNone then some .unreadableFile else none
  | bounds => input.text?.bind fun text =>
    match (Buffer.ofText text).withSelections input.spans with
    | .ok _ => none
    | .error e => some (.selectionOutside e)
  | edits => input.session?.bind fun s => input.buffer?.bind fun b =>
    (Edit.overlap? (s.plan b.text b.selections).edits).map fun spans =>
      .overlappingEdits (.overlap spans.1 spans.2)

/-- The first check that fails. -/
def first? (input : CycleInput) : Option Failure := all.findSome? (failure? input)

end Check

/-! ## The parts of the command -/

/-- Selections are read up to the first that cannot be read. -/
theorem readSelections_eq (texts : List Text) : readSelections texts =
    match texts.find? fun text => (selection? text).isNone with
    | some text => .error (.invalidSelection text)
    | none => .ok (texts.filterMap selection?) := by
  unfold readSelections
  induction texts with
  | nil => rfl
  | cons text rest ih =>
    rw [List.mapM_cons, ih]
    cases hread : selection? text with
    | none => simp [hread, bind, Except.bind]
    | some s =>
      rw [List.filterMap_cons_some hread, List.find?_cons_of_neg (by simp [hread])]
      cases rest.find? fun text => (selection? text).isNone <;> rfl

/-- The session of a configuration is settled by the configured variant and, if
there is one of the name, the configured dialect. -/
theorem startSession_eq (settings : Settings) : startSession settings =
    match settings.registry with
    | .ok r =>
      .ok (.settled r (Option.guard r.contains settings.defaultDialect)
        settings.insertVariant)
    | .error e => .error (.invalidDialect e) := by
  unfold startSession Settings.session
  cases hr : settings.registry with
  | error e => rfl
  | ok r =>
    have hbuilt : r.Built := Registry.Built.registerAll .builtin hr
    have hchosen : (Session.start r).withInsertVariant settings.insertVariant =
        .settled r none settings.insertVariant := by
      rw [Session.start_eq_settled hbuilt]
      rfl
    simp only [Except.map, hchosen, Session.select_settled, Option.or_none]
    rfl

/-- The dialect that is asked for must be known, and the other two are
taken if they are. -/
theorem chooseDialect_eq (r : Registry) (settings : Settings)
    (request : CycleRequest) :
    chooseDialect (.settled r (Option.guard r.contains settings.defaultDialect)
      settings.insertVariant) request =
      match request.dialect.filter fun name => !r.contains name with
      | some name => .error (.unknownDialect name)
      | none =>
        .ok (.settled r (dialectName? r settings.defaultDialect request)
          settings.insertVariant) := by
  have hknows (name? : Option Text) (name : Text) :
      (Session.settled r name? settings.insertVariant).knows name =
        r.contains name := rfl
  unfold chooseDialect dialectName?
  cases request.dialect with
  | some name =>
    cases hname : r.contains name with
    | false => simp [hknows, hname, Option.filter_some]
    | true =>
      have hguard : Request.switch? r (.select name) = some name := by
        simp [TemplateTags.Request.switch?, hname]
      simp [hknows, hname, Session.select_settled, hguard, Option.filter_some]
  | none =>
    cases FilePath.extension? request.path with
    | none => rfl
    | some ending =>
      have hguard :
          Request.switch? r (.select ending) = (some ending).filter r.contains := by
        simp [TemplateTags.Request.switch?, Option.guard, Option.filter_some]
      simp [Session.select_settled, hguard]

/-- What JSON tells of a run: the dialect, the text and the selections after the
session's action, and the edits that led there. -/
def resultRecord (s : Session) (b after : Buffer) : Json :=
  let span (r : Span) : Json :=
    .record [("start".toList, .number r.start), ("end".toList, .number r.stop)]
  let kind (d : Delimiter) : Text :=
    if d = .opener then "opener".toList else "closer".toList
  let edit (e : Edit) : Json :=
    .record [("range".toList, span e.span), ("text".toList, .text e.text),
      ("kind".toList, .text (kind e.delimiter))]
  .record [("dialect".toList, .text s.activeName), ("text".toList, .text after.text),
    ("selections".toList, .list (after.selections.map span)),
    ("edits".toList, .list ((s.plan b.text b.selections).edits.map edit))]

/-- The outcome of a run on a buffer whose action gives another buffer: the
command reports the text and the selections of that buffer. -/
def outcomeOf (s : Session) (request : CycleRequest) (b after : Buffer) : Outcome :=
  if request.write then
    ⟨after.selections.flatMap fun selection => selection.words ++ "\n".toList,
      some (request.path, after.text)⟩
  else
    match request.format with
    | .text => ⟨after.text, none⟩
    | .json => ⟨(resultRecord s b after).layout ++ "\n".toList, none⟩

/-- What the command does when it has a session and selections: it reads the file
and edits its text. -/
def editFile (s : Session) (files : Files) (request : CycleRequest)
    (selections : List Span) : Except Failure Outcome :=
  match files request.path with
  | .file text =>
    match (Buffer.ofText text).withSelections selections with
    | .error e => .error (.selectionOutside e)
    | .ok b =>
      match b.applyEdits (s.plan b.text b.selections).edits with
      | (edited, none) =>
        .ok (report s request (s.plan b.text b.selections) edited.text)
      | (_, some e) => .error (.overlappingEdits e)
  | _ => .error .unreadableFile

theorem runCycle_eq (settings : Settings) (files : Files) (request : CycleRequest) :
    runCycle settings files request =
      (readSelections request.selections).bind fun selections =>
        (startSession settings).bind fun started =>
          (chooseDialect started request).bind fun s =>
            editFile s files request selections := rfl

theorem resultJson_eq (s : Session) (b : Buffer) (text : Text) :
    resultJson s.activeName text (s.plan b.text b.selections) =
      resultRecord s b ⟨text, (s.plan b.text b.selections).selections⟩ := by
  have hedit (e : Edit) : editJson e = .record [("range".toList, spanJson e.span),
      ("text".toList, .text e.text),
      ("kind".toList, .text
        (if e.delimiter = .opener then "opener".toList else "closer".toList))] := by
    unfold editJson
    cases e.delimiter <;> rfl
  unfold resultJson
  rw [funext hedit]
  rfl

theorem report_eq_outcomeOf (s : Session) (request : CycleRequest) (b : Buffer)
    (text : Text) :
    report s request (s.plan b.text b.selections) text =
      outcomeOf s request b ⟨text, (s.plan b.text b.selections).selections⟩ := by
  unfold report outcomeOf
  rw [resultJson_eq, Json.render_eq_layout]
  cases request.write <;> cases request.format <;> rfl

/-- The last three checks are made by the part of the command that edits the file. -/
theorem editFile_cases (input : CycleInput) {s : Session}
    (hsession : input.session? = some s) :
    match [Check.file, .bounds, .edits].findSome? (Check.failure? input) with
    | some failure =>
      editFile s input.files input.request input.spans = .error failure
    | none => ∃ b after, input.buffer? = some b ∧ s.cycle b = (after, none) ∧
        editFile s input.files input.request input.spans =
          .ok (outcomeOf s input.request b after) := by
  unfold editFile
  simp only [List.findSome?_cons, List.findSome?_nil]
  cases hfile : input.files input.request.path with
  | missing => simp [Check.failure?, CycleInput.text?, hfile]
  | unreadable => simp [Check.failure?, CycleInput.text?, hfile]
  | file text =>
  have htext : input.text? = some text := by simp [CycleInput.text?, hfile]
  have hreadable : Check.failure? input .file = none := by
    simp [Check.failure?, htext]
  simp only [hreadable]
  cases hbuffer : (Buffer.ofText text).withSelections input.spans with
  | error e => simp [Check.failure?, htext, hbuffer]
  | ok b =>
  have hbuffer? : input.buffer? = some b := by
    simp [CycleInput.buffer?, htext, hbuffer, Except.toOption]
  have hbounds : Check.failure? input .bounds = none := by
    simp [Check.failure?, htext, hbuffer]
  simp only [hbounds]
  cases hoverlap : Edit.overlap? (s.plan b.text b.selections).edits with
  | some spans =>
    simp [Check.failure?, hsession, hbuffer?, hoverlap,
      Buffer.applyEdits_of_overlap hoverlap]
  | none =>
    obtain ⟨result, hresult⟩ := Session.exists_rewrites_plan
      (Buffer.checked_of_withSelections hbuffer) hoverlap
    have hedits : Check.failure? input .edits = none := by
      simp [Check.failure?, hsession, hbuffer?, hoverlap]
    simp only [hedits, Buffer.applyEdits_of_rewrites hresult, report_eq_outcomeOf]
    exact ⟨b, _, hbuffer?, Session.cycle_of_rewrites hresult, rfl⟩

theorem findDocument_eq (input : CycleInput) (path : Text) :
    findDocument input.files path = (input.document path).toSource := by
  unfold findDocument CycleInput.document CycleInput.place? documentPaths
    documentEnding
  cases (path :: (FilePath.withEnding? path ".toml".toList).toList).find? fun p =>
    decide (input.files p ≠ .missing) <;> rfl

theorem load?_toSource (project : FileState) (requested : Option FileState)
    (single : List (Text × Setting)) :
    Settings.load? project.toSource (requested.map FileState.toSource) single =
      (layers? project requested).bind fun documents =>
        Settings.ofLayers? documents single := by
  cases requested with
  | none => cases project <;> rfl
  | some state => cases project <;> cases state <;> rfl

/-- The configuration fails in one way only. -/
theorem settings_eq (input : CycleInput) :
    Invocation.settings ⟨input.config, .cycle input.request⟩ input.files =
    match input.settings? with
    | some settings => .ok settings
    | none => .error .configuration := by
  have hload : Settings.load? (findDocument input.files input.projectDocument)
      (input.config.map (findDocument input.files))
      (overrides (.cycle input.request)) = input.settings? := by
    rw [funext (findDocument_eq input)]
    have hconfig : input.config.map (fun path => (input.document path).toSource) =
        (input.config.map input.document).map FileState.toSource := by
      cases input.config <;> rfl
    rw [hconfig, load?_toSource]
    rfl
  rw [← hload]
  rfl

/-- The command fails with the first check that fails, and else does what
the session does. -/
theorem run_cycle (input : CycleInput) :
    match Check.first? input with
    | some failure =>
      Invocation.run ⟨input.config, .cycle input.request⟩ input.files =
        .error failure
    | none =>
      ∃ s b after, input.session? = some s ∧ input.buffer? = some b ∧
        s.cycle b = (after, none) ∧
        Invocation.run ⟨input.config, .cycle input.request⟩ input.files =
          .ok (outcomeOf s input.request b after) := by
  have hrun : Invocation.run ⟨input.config, .cycle input.request⟩ input.files =
      (Invocation.settings ⟨input.config, .cycle input.request⟩ input.files).bind
        fun settings => runCycle settings input.files input.request := rfl
  obtain ⟨last, hlast⟩ : ∃ last,
      [Check.file, .bounds, .edits].findSome? (Check.failure? input) = last :=
    ⟨_, rfl⟩
  have hall : Check.all = [.configuration, .selections, .dialects, .chosenDialect]
      ++ [.file, .bounds, .edits] := rfl
  rw [hrun, settings_eq, Check.first?, hall, List.findSome?_append, hlast]
  simp only [List.findSome?_cons, List.findSome?_nil]
  cases hsettings : input.settings? with
  | none => simp [Check.failure?, hsettings, Except.bind]
  | some settings =>
  have hconfiguration : Check.failure? input .configuration = none := by
    simp [Check.failure?, hsettings]
  simp only [hconfiguration, Except.bind, runCycle_eq, readSelections_eq]
  cases hfind : input.request.selections.find? fun text =>
    (selection? text).isNone with
  | some text => simp [Check.failure?, hfind]
  | none =>
  have hselections : Check.failure? input .selections = none := by
    simp [Check.failure?, hfind]
  simp only [hselections, startSession_eq]
  cases hregistry : settings.registry with
  | error e => simp [Check.failure?, hsettings, hregistry]
  | ok r =>
  have hdialects : Check.failure? input .dialects = none := by
    simp [Check.failure?, hsettings, hregistry]
  have hregistry? : input.registry? = some r := by
    simp [CycleInput.registry?, hsettings, hregistry, Except.toOption]
  simp only [hdialects, chooseDialect_eq]
  cases hunknown : input.request.dialect.filter fun name => !r.contains name with
  | some name => simp [Check.failure?, hregistry?, hunknown]
  | none =>
  have hchosen : Check.failure? input .chosenDialect = none := by
    simp [Check.failure?, hregistry?, hunknown]
  simp only [hchosen]
  obtain ⟨s, hs⟩ : ∃ s,
      Session.settled r (dialectName? r settings.defaultDialect input.request)
        settings.insertVariant = s :=
    ⟨_, rfl⟩
  have hsession : input.session? = some s := by
    simp [CycleInput.session?, hsettings, hregistry, Except.toOption, hs]
  rw [hs]
  have hcases := editFile_cases input hsession
  rw [hlast] at hcases
  rw [Option.none_or]
  cases last with
  | some failure => exact hcases
  | none =>
    obtain ⟨b, after, hbuffer, hcycle, heq⟩ := hcases
    exact ⟨s, b, after, hsession, hbuffer, hcycle, heq⟩

/-! ## The whole program -/

theorem respond_eq_run {args : List Text} {i : Invocation}
    (hargs : Invocation.ofArguments args = .ok i) (files : Files) :
    respond args files = match i.run files with
      | .error failure => failure.response
      | .ok outcome => outcome.response := by
  unfold respond
  rewrite [hargs]
  rfl

end TemplateTags.Command
