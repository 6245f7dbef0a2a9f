import TemplateTags.Dialect.Registry
import TemplateTags.Cycle.Event
/-!
# Sessions

A session is the choice of a dialect for one document. `Session.select` switches
it, `Session.cycle` puts tags around the selections of a buffer or turns those
they have to their next variants. The variant that is inserted is chosen once and
stays chosen through switches.
-/

namespace TemplateTags

/-- The dialects to choose from, the one in use, and the variant to insert. -/
structure Session where
  registry : Registry
  activeName : Text
  active : Dialect
  insertIndex : Nat

namespace Session

/-- A session that starts with ERB, even where the registry has no
dialect of that name. -/
def start (r : Registry) : Session :=
  ⟨r, Family.erb.name, (r.get? Family.erb.name).getD Family.erb.dialect, 0⟩

/-- Choose the variant to insert, in this dialect and those switched to later. -/
def withInsertVariant (s : Session) (index : Nat) : Session :=
  { s with insertIndex := index, active := s.active.withInsertVariant index }

/-- Switch to the dialect of a name. Under an unknown name the dialect stays. -/
def select (s : Session) (name : Text) : Session :=
  match s.registry.get? name with
  | some d =>
    { s with
      active := d.withInsertVariant s.insertIndex, activeName := name.lowerCase }
  | none => s

/-- Whether there is a dialect of a name to switch to. -/
def knows (s : Session) (name : Text) : Bool := s.registry.contains name

/-- What is told about a switch. -/
def selectEvent (s : Session) (name : Text) : Event :=
  if s.knows name then .switched s.activeName name
  else .unknownDialect name s.activeName

/-- Switch to the family that a syntax and a file name point to. -/
def detect (s : Session) (syntaxName : Text) (fileName : Option Text) : Session :=
  s.select (Family.detect syntaxName fileName).name

/-- The plan for selections of a text in the active dialect. -/
def plan (s : Session) (text : Text) (selections : List Span) : Plan :=
  Plan.make s.active text selections

/-- Cycle or insert the tags at all selections of a buffer. The selections
follow the edits; if an edit cannot be applied they stay. Without
selections nothing happens. -/
def cycle (s : Session) (b : Buffer) : Buffer × Option EditError :=
  if b.selections.isEmpty then (b, none)
  else
    let plan := s.plan b.text b.selections
    match b.applyEdits plan.edits with
    | (edited, none) => ({ edited with selections := plan.selections }, none)
    | (edited, some error) => (edited, some error)

/-- What is told while the tags of a buffer are cycled. -/
def cycleEvents (s : Session) (b : Buffer) : List Event :=
  Event.ofPlan s.active b.text b.selections

end Session

end TemplateTags
