import TemplateTags.Text.Basic
/-!
# Options of the command line

Options have a long name behind two hyphens and some a letter behind one. The
value of an option may be attached to it, behind an equals sign or right behind
the letter, or be the next argument if that does not itself look like an option.
`OptionTable.scan` goes through arguments once.
-/

namespace TemplateTags.Command

/-- What an option sets. -/
inductive OptionName where
  | config | selection | dialect | insertVariant | format | write
  | syntaxName | file
  | help | version
deriving DecidableEq, Repr

/-- An option that a command takes. -/
structure OptionSpec where
  name : OptionName
  long : Text
  short : Option Char
  takesValue : Bool
  /-- whether it may be given more than once -/
  repeatable : Bool
  /-- the values it takes -/
  accepts : Text → Bool

/-- The options of a command. -/
abbrev OptionTable := List OptionSpec

/-- Why arguments are not carried out. -/
inductive Stop where
  /-- they do not fit the command -/
  | usage
  | help
  | version
deriving DecidableEq, Repr

/-- The options and other arguments given so far, in order. -/
structure Given where
  options : List (OptionName × Text)
  others : List Text
deriving DecidableEq, Repr

namespace Given

def nothing : Given := ⟨[], []⟩

/-- The values that an option was given. -/
def values (g : Given) (name : OptionName) : List Text :=
  (g.options.filter (·.1 == name)).map Prod.snd

/-- The value that an option was given last. -/
def value? (g : Given) (name : OptionName) : Option Text := (g.values name).getLast?

def has (g : Given) (name : OptionName) : Bool := g.options.any (·.1 == name)

end Given

namespace OptionSpec

/-- Record an option with its value. Help and the version are asked for as
soon as they are met. -/
def give (o : OptionSpec) (g : Given) (value : Text) : Except Stop Given :=
  match o.name with
  | .help => .error .help
  | .version => .error .version
  | name =>
    if g.has name && !o.repeatable || !o.accepts value then .error .usage
    else .ok { g with options := g.options ++ [(name, value)] }

end OptionSpec

namespace OptionTable

def findLong? (table : OptionTable) (long : Text) : Option OptionSpec :=
  table.find? (·.long == long)

def findShort? (table : OptionTable) (c : Char) : Option OptionSpec :=
  table.find? (·.short == some c)

/-- What an argument of letters behind one hyphen gives, and the option that
waits for its value. -/
def giveShort (table : OptionTable) (g : Given) :
    Text → Except Stop (Given × Option OptionSpec)
  | [] => .ok (g, none)
  | c :: rest =>
    match table.findShort? c with
    | none => .error .usage
    | some o =>
      if !o.takesValue then (o.give g []).bind fun g => giveShort table g rest
      else
        match rest with
        | [] => .ok (g, some o)
        | '=' :: value => (o.give g value).map fun g => (g, none)
        | value => (o.give g value).map fun g => (g, none)

/-- The name and the attached value of a long option. -/
def splitLong (text : Text) : Text × Option Text :=
  match Text.splitFirst? ['='] text with
  | none => (text, none)
  | some (name, value) => (name, some value)

/-- What a long option gives, and the option that waits for its value. -/
def giveLong (table : OptionTable) (g : Given) (text : Text) :
    Except Stop (Given × Option OptionSpec) :=
  let parts := splitLong text
  match table.findLong? parts.1, parts.2 with
  | none, _ => .error .usage
  | some o, none =>
    if o.takesValue then .ok (g, some o) else (o.give g []).map fun g => (g, none)
  | some o, some value =>
    if o.takesValue then (o.give g value).map fun g => (g, none) else .error .usage

/-- What an option gives, or `none` if an argument is no option. An option that
still waits for its value does not get one from another option. -/
def giveOption? (table : OptionTable) (waiting : Option OptionSpec) (g : Given)
    (arg : Text) :
    Option (Except Stop (Given × Option OptionSpec)) :=
  match arg with
  | '-' :: '-' :: text =>
    some (if waiting.isSome then .error .usage else giveLong table g text)
  | '-' :: c :: text =>
    some (if waiting.isSome then .error .usage else giveShort table g (c :: text))
  | _ => none

/-- Record arguments that are no options, of which there may be so many. -/
def giveOthers (most : Nat) (g : Given) (args : List Text) : Except Stop Given :=
  let others := g.others ++ args
  if most < others.length then .error .usage else .ok { g with others }

/-- Go through arguments up to one that names a command, and return what was
given and the arguments from there on. Behind a double hyphen nothing is an
option or names a command. -/
def scan (table : OptionTable) (most : Nat) (isCommand : Text → Bool)
    (waiting : Option OptionSpec) (g : Given) :
    List Text → Except Stop (Given × List Text)
  | [] => if waiting.isSome then .error .usage else .ok (g, [])
  | arg :: rest =>
    if waiting.isNone && isCommand arg then .ok (g, arg :: rest)
    else if arg = ['-', '-'] then
      if waiting.isSome then .error .usage
      else (giveOthers most g rest).map fun g => (g, [])
    else
      match giveOption? table waiting g arg, waiting with
      | some given, _ =>
        given.bind fun next => scan table most isCommand next.2 next.1 rest
      | none, some o =>
        (o.give g arg).bind fun g => scan table most isCommand none g rest
      | none, none =>
        (giveOthers most g [arg]).bind fun g => scan table most isCommand none g rest

end OptionTable

end TemplateTags.Command
