import TemplateTags.Dialect.Error
import TemplateTags.Document.Edit
import TemplateTags.Settings.Layers
/-!
# Outcomes of a command

A command prints a text and may overwrite one file, or fails for one of the
causes in `Failure`.
-/

namespace TemplateTags.Command

/-- Why a command fails. -/
inductive Failure where
  | configuration
  | invalidSelection (text : Text)
  | invalidDialect (e : DialectError)
  | unknownDialect (name : Text)
  | unreadableFile
  | selectionOutside (e : EditError)
  | overlappingEdits (e : EditError)
  /-- the dialect whose patterns are asked for is unknown -/
  | noPatterns (name : Text)
  | unwritableFile
deriving DecidableEq, Repr

/-- The name of the program. -/
def program : Text := "templater".toList

/-- The program's name and version. -/
def versionLine : Text := program ++ " 0.1.0".toList

namespace Failure

/-- A name between single quotes. -/
def quote (name : Text) : Text := ['\''] ++ name ++ ['\'']

/-- The lines that tell of the failure. -/
def lines : Failure → List Text
  | configuration => ["Error loading configuration".toList]
  | invalidSelection text =>
    ["Invalid selection ".toList ++ quote text ++ ": expected 'N' or 'N..M'".toList]
  | invalidDialect e => ["Invalid dialect in configuration: ".toList ++ e.message]
  | unknownDialect name =>
    ["Unknown dialect ".toList ++ quote name,
      "Run '".toList ++ program
        ++ " dialects' to list the available dialects".toList]
  | unreadableFile => ["Error reading file".toList]
  | selectionOutside e => ["Invalid selection: ".toList ++ e.message]
  | overlappingEdits e => ["Cannot apply edits: ".toList ++ e.message]
  | noPatterns name => ["Unknown dialect ".toList ++ quote name]
  | unwritableFile => ["Error writing file".toList]

/-- The message, one line end behind each line. -/
def message (f : Failure) : Text := f.lines.flatMap fun line => line ++ ['\n']

end Failure

/-- What a command prints, and the file it overwrites with its new text. -/
structure Outcome where
  output : Text
  written : Option (Text × Text)
deriving DecidableEq, Repr

/-- An outcome that only prints. -/
def Outcome.print (output : Text) : Outcome := ⟨output, none⟩

/-- What there is at a path. -/
inductive FileState where
  /-- no file: nothing, or a directory -/
  | missing
  /-- a file that cannot be read as text -/
  | unreadable
  | file (text : Text)
deriving DecidableEq, Repr

/-- A file as a document of the configuration. -/
def FileState.toSource : FileState → Settings.Source
  | missing => .absent
  | unreadable => .unreadable
  | file text => .document text

end TemplateTags.Command
