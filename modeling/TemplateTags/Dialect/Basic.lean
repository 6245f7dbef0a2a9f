import TemplateTags.Dialect.Addon
import TemplateTags.Dialect.Error
import TemplateTags.Pattern.Matcher
/-!
# Dialects

A dialect is a way to write template tags: an opener, a closer and the addons that
make its variants. `Dialect.compile` builds the matchers that find its delimiters
in a text. `Dialect.next` is the cycle of its variants: it looks a tag up among
them by how it is written and gives the one after it.
-/

namespace TemplateTags

/-- How the two delimiters of a tag are written. -/
structure Variant where
  opener : Text
  closer : Text
deriving DecidableEq, Repr

/-- A dialect whose delimiters can be looked for. -/
structure Dialect where
  opener : Text
  closer : Text
  addons : List Addon
  openerMatcher : Matcher
  closerMatcher : Matcher
  /-- place in the cycle of the variant to insert -/
  insertIndex : Nat
deriving Repr

namespace Dialect

/-- The variant that an addon makes of two delimiters. -/
def variantOf (opener closer : Text) (a : Addon) : Variant :=
  ⟨opener ++ a.left, a.right ++ closer⟩

/-- The variants in cycle order. Without addons the bare tag is the only one. -/
def variants (d : Dialect) : List Variant :=
  if d.addons.isEmpty then [⟨d.opener, d.closer⟩]
  else d.addons.map (variantOf d.opener d.closer)

theorem variants_ne_nil (d : Dialect) : d.variants ≠ [] := by
  unfold variants
  split <;> simp_all

theorem length_variants_pos (d : Dialect) : 0 < d.variants.length :=
  List.length_pos_iff.2 d.variants_ne_nil

/-- The variant at a place of the cycle, which starts again after the last one. -/
def variantAt (d : Dialect) (index : Nat) : Variant :=
  d.variants.get ⟨index % d.variants.length, Nat.mod_lt _ d.length_variants_pos⟩

/-- The variant that is put around untagged text. -/
def insertVariant (d : Dialect) : Variant := d.variantAt d.insertIndex

/-- The dialect with another variant to insert, counted around the cycle. -/
def withInsertVariant (d : Dialect) (index : Nat) : Dialect :=
  { d with insertIndex := index % d.variants.length }

/-- The first place in the cycle of the variant that is written like this. -/
def variantIndex? (d : Dialect) (opener closer : Text) : Option Nat :=
  d.variants.findIdx? fun v => v.opener == opener && v.closer == closer

/-- The variant after the one that is written like this. After an unknown
one comes the first. -/
def next (d : Dialect) (opener closer : Text) : Variant :=
  match d.variantIndex? opener closer with
  | some index => d.variantAt (index + 1)
  | none => d.variantAt 0

/-- Whether a text has a line feed or a carriage return in it. -/
def hasLineBreak (text : Text) : Bool := text.any fun c => c == '\n' || c == '\r'

/-- The first delimiter or symbol with a line break, the delimiters
before the addons. -/
def multiline? (opener closer : Text) (addons : List Addon) : Option Text :=
  (opener :: closer :: addons.flatMap fun a => [a.left, a.right]).find? hasLineBreak

/-- The pattern of the opener with one of the left symbols behind it. -/
def openerPattern (opener : Text) (addons : List Addon) : Text :=
  Pattern.escape opener ++ Addon.classPattern .left addons

/-- The pattern of the closer with one of the right symbols in front of it. -/
def closerPattern (closer : Text) (addons : List Addon) : Text :=
  Addon.classPattern .right addons ++ Pattern.escape closer

/-- The matcher of a written pattern. -/
def matcher (source : Text) : Except DialectError Matcher :=
  match Matcher.ofText? source with
  | some m => .ok m
  | none => .error (.unreadablePattern source)

/-- Make a dialect of its delimiters and addons. Delimiters are not empty, and
nothing in a dialect spans lines. An opener does not count where the closer stands
anywhere behind it. -/
def compile (opener closer : Text) (addons : List Addon) :
    Except DialectError Dialect :=
  if opener.isEmpty then .error .emptyOpener
  else if closer.isEmpty then .error .emptyCloser
  else
    match multiline? opener closer addons with
    | some symbol => .error (.lineBreak symbol)
    | none => do
      let openerMatcher ← matcher (openerPattern opener addons)
      let closerMatcher ← matcher (closerPattern closer addons)
      return ⟨opener, closer, addons, openerMatcher.withGuard closer,
        closerMatcher, 0⟩

end Dialect

end TemplateTags
