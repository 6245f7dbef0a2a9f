import TemplateTags.Settings.Basic
import TemplateTags.Settings.Path
import TemplateTags.Toml.Document
/-!
# Layers of the configuration

The configuration is made of layers, later ones over earlier ones: the defaults,
the documents in order, and then single settings. `Settings.ofLayers?` puts them
together. `Settings.load?` does so for the document of a project, which need not
exist, and one that was asked for, which must.
-/

namespace TemplateTags.Settings

/-- What every configuration starts with: ERB, and its first variant. -/
def defaults : Setting :=
  .table [("cycle".toList,
    .table [("default_dialect".toList, .text Family.erb.name),
      ("insert_variant".toList, .integer 0)])]

/-- Lay one entry of a document over the settings. Its key may be a path, and is a
plain key if it is none. -/
def layEntry? (here : Setting) (entry : Text × Setting) : Option Setting :=
  match SettingPath.ofText? entry.1 with
  | some path => Setting.putAt? path entry.2 here
  | none => some (Setting.put entry.1 entry.2 here)

/-- Lay the document of a file over the settings. A byte order mark of the file is
not part of the document, which may have its own. -/
def layDocument? (here : Setting) (document : Text) : Option Setting := do
  let entries ← Toml.read? (Toml.dropMark document)
  (Setting.ofTomlFields entries).foldlM layEntry? here

/-- Lay a single setting over the others. Its key is a path. -/
def layOverride? (here : Setting) (override : Text × Setting) : Option Setting := do
  let path ← SettingPath.ofText? override.1
  Setting.putAt? path override.2 here

/-- The configuration of some documents and single settings. -/
def ofLayers? (documents : List Text) (overrides : List (Text × Setting)) :
    Option Settings := do
  let laid ← documents.foldlM layDocument? defaults
  ofSetting? (← overrides.foldlM layOverride? laid)

/-- A document that may be a layer. -/
inductive Source where
  | absent
  | unreadable
  | document (text : Text)
deriving DecidableEq, Repr

/-- The documents of a layer that need not exist. -/
def Source.ifPresent? : Source → Option (List Text)
  | absent => some []
  | unreadable => none
  | document text => some [text]

/-- The documents of a layer that must exist. -/
def Source.required? : Source → Option (List Text)
  | document text => some [text]
  | _ => none

/-- The configuration of a project's document, one that was asked for, and single
settings. -/
def load? (project : Source) (requested : Option Source)
    (overrides : List (Text × Setting)) : Option Settings := do
  let projectDocuments ← project.ifPresent?
  let requestedDocuments ← match requested with
    | none => some []
    | some source => source.required?
  ofLayers? (projectDocuments ++ requestedDocuments) overrides

end TemplateTags.Settings
