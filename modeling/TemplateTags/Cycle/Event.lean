import TemplateTags.Cycle.Plan
import TemplateTags.Text.Quoted
/-!
# Events

What happens while dialects are switched and tags are planned, one value
per message of the log.
-/

namespace TemplateTags

/-- A message of the log. -/
inductive Event where
  | switched (previous name : Text)
  | unknownDialect (name kept : Text)
  | inserting (selection : Span)
  | cycling (opener closer : Text) (selection : Span)
  /-- a tag is written like no variant, so the first one comes next -/
  | unknownVariant (opener closer : Text) (next : Variant)
deriving DecidableEq, Repr

/-- How a variant is shown in a message. -/
def Variant.describe (v : Variant) : Text :=
  "Variant \x7b opener: ".toList ++ v.opener.quoted ++ ", closer: ".toList
    ++ v.closer.quoted
    ++ " \x7d".toList

namespace Event

/-- The weight of the message. -/
def level : Event → Text
  | switched .. => "DEBUG".toList
  | unknownDialect .. => "WARN".toList
  | inserting .. => "TRACE".toList
  | cycling .. => "TRACE".toList
  | unknownVariant .. => "DEBUG".toList

/-- The message in words. -/
def message : Event → Text
  | switched previous name =>
    "switching dialect ".toList ++ previous ++ " -> ".toList ++ name
  | unknownDialect name kept =>
    "unknown dialect ".toList ++ name.quoted ++ ", keeping ".toList ++ kept
  | inserting selection => "inserting tag around ".toList ++ selection.render
  | cycling opener closer selection =>
    "cycling ".toList ++ opener.quoted ++ "..".toList ++ closer.quoted
      ++ " around ".toList
      ++ selection.render
  | unknownVariant opener closer next =>
    "unknown variant ".toList ++ opener.quoted ++ " ".toList ++ closer.quoted
      ++ ", falling back to ".toList ++ next.describe

/-- The line in the log. -/
def render (e : Event) : Text := e.level ++ [' '] ++ e.message

/-- What is told of one action. -/
def ofAction (d : Dialect) (selection : Span) : Action → List Event
  | .insert => [inserting selection]
  | .cycle opener closer =>
    cycling opener.text closer.text selection ::
      if (d.variantIndex? opener.text closer.text).isSome then []
      else [unknownVariant opener.text closer.text (d.next opener.text closer.text)]

/-- What is told while a plan is made, in the order of the selections' starts. -/
def ofPlan (d : Dialect) (text : Text) (selections : List Span) : List Event :=
  (sortBy Plan.startsBefore selections).flatMap fun s =>
    ofAction d s (Action.choose d text s)

end Event

end TemplateTags
