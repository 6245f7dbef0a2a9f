import TemplateTags.Dialect.Table
import TemplateTags.Text.LowerCase
/-!
# The built-in dialects

Four families of templating languages are known from the start. `Family.detect`
picks one from the name of an editor's syntax and the name of a file.
-/

namespace TemplateTags

/-- A family of templating languages that write their tags alike. -/
inductive Family where
  /-- ERB, Underscore, EJS -/
  | erb
  /-- Mustache, Handlebars, Angular -/
  | mustache
  /-- Jinja, Twig, Nunjucks -/
  | bracePercent
  /-- PHP -/
  | php
deriving DecidableEq, Repr

namespace Family

def all : List Family := [erb, mustache, bracePercent, php]

/-- The name of the family in a configuration. -/
def name : Family → Text
  | erb => "erb".toList
  | mustache => "mustache".toList
  | bracePercent => "brace-percent".toList
  | php => "php".toList

/-- The languages of the family. -/
def aliases : Family → List Text
  | erb => ["erb".toList, "underscore".toList, "ejs".toList]
  | mustache => ["mustache".toList, "handlebars".toList, "angular".toList]
  | bracePercent => ["jinja".toList, "twig".toList, "nunjucks".toList]
  | php => ["php".toList]

/-- How the family writes its tags. -/
def table (f : Family) : DialectTable :=
  match f with
  | erb =>
    ⟨['<', '%'], ['%', '>'],
      [⟨[], []⟩, ⟨['='], []⟩, ⟨['#'], []⟩, ⟨['-'], ['-']⟩, ⟨['='], ['-']⟩,
        ⟨[], ['-']⟩], f.aliases⟩
  | mustache => ⟨['{', '{'], ['}', '}'], [], f.aliases⟩
  | bracePercent => ⟨['{'], ['}'], [⟨['%'], ['%']⟩, ⟨['{'], ['}']⟩], f.aliases⟩
  | php =>
    ⟨['<', '?'], ['?', '>'],
      [⟨[], []⟩, ⟨['='], []⟩, ⟨['#'], []⟩, ⟨['p', 'h', 'p'], []⟩], f.aliases⟩

theorem isSome_compile_table (f : Family) : f.table.compile.toOption.isSome := by
  cases f <;> rfl

/-- The dialect of the family. -/
def dialect (f : Family) : Dialect :=
  f.table.compile.toOption.get f.isSome_compile_table

/-- The words in a syntax name that point to a family, in the order they are
tried. -/
def keywords : List (Text × Family) :=
  [("javascript".toList, erb), ("angularjs".toList, mustache),
    ("python".toList, bracePercent),
    ("ruby".toList, erb), ("rails".toList, erb), ("php".toList, php)]

/-- The family that a syntax name points to, whatever its case; the first keyword
in it decides, and without one it is ERB. A file name that ends in `erb` decides
for ERB before all. -/
def detect (syntaxName : Text) (fileName : Option Text) : Family :=
  let isErbFile := fileName.any fun name => ['e', 'r', 'b'].isSuffixOf name.lowerCase
  if isErbFile then erb
  else
    match keywords.find? fun k => Text.contains k.1 syntaxName.lowerCase with
    | some (_, family) => family
    | none => erb

end Family

end TemplateTags
