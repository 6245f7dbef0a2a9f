import TemplateTags.Command.FileTree
import TemplateTags.Command.Invocation
import TemplateTags.Command.Outcome
import TemplateTags.Command.Selection
import TemplateTags.Json
/-!
# Running a command

`Invocation.run` computes the outcome of a command from the files that it may
read; `Invocation.reads` are their paths. The checks of the cycle command come in
a fixed order: configuration, selections, dialects, the chosen dialect, the file,
the selections in it, and the edits.
-/

namespace TemplateTags.Command

/-- The files at the paths that a command reads. -/
abbrev Files := Text → FileState

/-- The files of a tree. -/
def filesOfTree (t : FileTree) : Files := fun path =>
  match t.read? path with
  | some text => .file text
  | none => .missing

/-- The file of the configuration in a project's directory. -/
def projectFile : Text := "templater.toml".toList

/-- The ending that a configuration file may be named without. -/
def documentEnding : Text := ".toml".toList

/-- The paths at which a configuration file is looked for. -/
def documentPaths (path : Text) : List Text :=
  path :: (FilePath.withEnding? path documentEnding).toList

/-- The configuration file of a path: the first that exists. -/
def findDocument (files : Files) (path : Text) : Settings.Source :=
  match (documentPaths path).find? fun p => files p ≠ .missing with
  | some found => (files found).toSource
  | none => .absent

/-- The project's configuration file for a template: the one beside it. -/
def projectPath (request : Request) : Text :=
  match request with
  | .cycle request => FilePath.beside request.path projectFile
  | _ => projectFile

/-- The settings that options give. -/
def overrides (request : Request) : List (Text × Setting) :=
  match request with
  | .cycle request =>
    request.insertVariant.toList.map fun (n : Nat) =>
      ("cycle.insert_variant".toList, .integer n)
  | _ => []

namespace Invocation

/-- The paths of all files that the command may read. -/
def reads (i : Invocation) : List Text :=
  let template := match i.request with
    | .cycle request => [request.path]
    | _ => []
  documentPaths (projectPath i.request)
    ++ (i.config.map documentPaths).getD [] ++ template

/-- The configuration for the command. -/
def settings (i : Invocation) (files : Files) : Except Failure Settings :=
  match Settings.load? (findDocument files (projectPath i.request))
    (i.config.map (findDocument files))
    (overrides i.request) with
  | some settings => .ok settings
  | none => .error .configuration

end Invocation

/-! ## Cycle -/

/-- Read selections; the first that cannot be read is the failure. -/
def readSelections (texts : List Text) : Except Failure (List Span) :=
  texts.mapM fun text =>
    match selection? text with
    | some s => .ok s
    | none => .error (.invalidSelection text)

/-- The session of a configuration. -/
def startSession (settings : Settings) : Except Failure Session :=
  match settings.session with
  | .ok session => .ok session
  | .error e => .error (.invalidDialect e)

/-- Switch a session to the dialect that is asked for, or else to the one that the
file's ending names, if there is one of that name. -/
def chooseDialect (session : Session) (request : CycleRequest) :
    Except Failure Session :=
  match request.dialect with
  | some name =>
    if session.knows name then .ok (session.select name)
    else .error (.unknownDialect name)
  | none =>
    match FilePath.extension? request.path with
    | some ending => .ok (session.select ending)
    | none => .ok session

/-- A span as JSON. -/
def spanJson (s : Span) : Json :=
  .record [("start".toList, .number s.start), ("end".toList, .number s.stop)]

/-- An edit as JSON. -/
def editJson (e : Edit) : Json :=
  let kind := match e.delimiter with
    | .opener => "opener".toList
    | .closer => "closer".toList
  .record [("range".toList, spanJson e.span), ("text".toList, .text e.text),
    ("kind".toList, .text kind)]

/-- A result as JSON. -/
def resultJson (dialect text : Text) (plan : Plan) : Json :=
  .record [("dialect".toList, .text dialect), ("text".toList, .text text),
    ("selections".toList, .list (plan.selections.map spanJson)),
    ("edits".toList, .list (plan.edits.map editJson))]

/-- Print or write a result. -/
def report (session : Session) (request : CycleRequest) (plan : Plan)
    (text : Text) : Outcome :=
  if request.write then
    ⟨plan.selections.flatMap fun s => s.render ++ ['\n'], some (request.path, text)⟩
  else
    match request.format with
    | .json => .print ((resultJson session.activeName text plan).render ++ ['\n'])
    | .text => .print text

/-- Cycle or insert the tags at the selections of a file. -/
def runCycle (settings : Settings) (files : Files) (request : CycleRequest) :
    Except Failure Outcome := do
  let selections ← readSelections request.selections
  let session ← chooseDialect (← startSession settings) request
  match files request.path with
  | .file text =>
    match (Buffer.ofText text).withSelections selections with
    | .error e => .error (.selectionOutside e)
    | .ok buffer =>
      let plan := session.plan buffer.text buffer.selections
      match buffer.applyEdits plan.edits with
      | (edited, none) => return report session request plan edited.text
      | (_, some e) => .error (.overlappingEdits e)
  | _ => .error .unreadableFile

/-! ## The other commands -/

/-- A dialect in the list of dialects: its name and its variants. -/
def dialectLines (name : Text) (d : Dialect) : Text :=
  let variants := d.variants.map fun v => v.opener ++ [' '] ++ v.closer
  "  ".toList ++ name ++ "\n    ".toList ++ Text.join "  |  ".toList variants
    ++ "\n\n".toList

/-- List the dialects of the configuration. -/
def runDialects (settings : Settings) : Except Failure Outcome := do
  let session ← startSession settings
  return .print ("Available dialects:\n\n".toList
    ++ session.registry.entries.flatMap fun entry => dialectLines entry.1 entry.2)

/-- Show the patterns of a dialect. -/
def runPatterns (settings : Settings) (name : Text) : Except Failure Outcome := do
  let session ← startSession settings
  match session.registry.get? name with
  | none => .error (.noPatterns name)
  | some d =>
    let guard := match d.openerMatcher.guard with
      | none => []
      | some guard =>
        "        (rejected when followed by ".toList ++ guard.quoted ++ ")\n".toList
    return .print ("opener: ".toList ++ d.openerMatcher.source ++ ['\n'] ++ guard
      ++ "closer: ".toList ++ d.closerMatcher.source ++ ['\n'])

/-- Carry out a command with the files it may read. -/
def Invocation.run (i : Invocation) (files : Files) : Except Failure Outcome :=
  match i.request with
  | .cycle request => do runCycle (← i.settings files) files request
  | .dialects => do runDialects (← i.settings files)
  | .patterns name => do runPatterns (← i.settings files) name
  | .detect syntaxName file =>
    .ok (.print ((Family.detect syntaxName file).name ++ ['\n']))

end TemplateTags.Command
