import TemplateTags.Command.Option
import TemplateTags.Text.Number
/-!
# Invocations

`Invocation.ofArguments` reads the arguments of the program: a command
with its own options, and the configuration file, which may be named
before or behind the command.
-/

namespace TemplateTags.Command

/-- How the result of a cycle is printed. -/
inductive Format where
  | text | json
deriving DecidableEq, Repr

/-- What the cycle command is asked to do. -/
structure CycleRequest where
  path : Text
  selections : List Text
  dialect : Option Text
  insertVariant : Option Nat
  format : Format
  /-- whether to overwrite the file -/
  write : Bool
deriving DecidableEq, Repr

/-- A command with its arguments. -/
inductive Request where
  | cycle (request : CycleRequest)
  | dialects
  | patterns (dialect : Text)
  | detect (syntaxName : Text) (file : Option Text)
deriving DecidableEq, Repr

/-- A command, and the configuration file to use with it. -/
structure Invocation where
  config : Option Text
  request : Request
deriving DecidableEq, Repr

/-- The commands of the program. -/
inductive CommandName where
  | cycle | dialects | patterns | detect | help
deriving DecidableEq, Repr

namespace CommandName

def ofText? (t : Text) : Option CommandName :=
  if t = "cycle".toList then some cycle
  else if t = "dialects".toList then some dialects
  else if t = "patterns".toList then some patterns
  else if t = "detect".toList then some detect
  else if t = "help".toList then some help
  else none

end CommandName

/-- The greatest variant that can be given. -/
def maxVariant : Nat := Nat.pow 2 32 - 1

/-- A variant to insert, as an option gives it. A zero may have a minus sign. -/
def variant? (t : Text) : Option Nat :=
  match t with
  | '-' :: digits => if digits.head? = some '+' then none else Text.toNat? 0 digits
  | t => Text.toNat? maxVariant t

/-- An output format by its name. -/
def Format.ofText? (t : Text) : Option Format :=
  if t = "text".toList then some .text
  else if t = "json".toList then some .json else none

/-- The options of every command. -/
def sharedOptions : OptionTable :=
  [⟨.config, "config".toList, some 'c', true, false, fun _ => true⟩,
    ⟨.help, "help".toList, some 'h', false, false, fun _ => true⟩]

/-- The options in front of the command. -/
def rootOptions : OptionTable :=
  sharedOptions ++ [⟨.version, "version".toList, some 'V', false,
    false, fun _ => true⟩]

namespace CommandName

/-- The options behind the command. -/
def options : CommandName → OptionTable
  | cycle =>
    sharedOptions ++
      [⟨.selection, "selection".toList, some 's', true, true, fun _ => true⟩,
        ⟨.dialect, "dialect".toList, some 'd', true, false, fun _ => true⟩,
        ⟨.insertVariant, "insert-variant".toList, some 'i', true, false, fun t =>
          (variant? t).isSome⟩,
        ⟨.format, "format".toList, some 'f', true, false, fun t =>
          (Format.ofText? t).isSome⟩,
        ⟨.write, "write".toList, some 'w', false, false, fun _ => true⟩]
  | detect =>
    sharedOptions ++
      [⟨.syntaxName, "syntax".toList, none, true, false, fun _ => true⟩,
        ⟨.file, "file".toList, none, true, false, fun _ => true⟩]
  | _ => sharedOptions

/-- How many arguments besides options the command takes. -/
def mostOthers : CommandName → Nat
  | cycle => 1
  | patterns => 1
  | _ => 0

end CommandName

/-- The cycle command's request. It needs a file and at least one selection. -/
def cycleRequest? (g : Given) : Option Request :=
  match g.others, g.values .selection with
  | path :: _, selection :: selections =>
    some (.cycle
      { path, selections := selection :: selections, dialect := g.value? .dialect,
        insertVariant := (g.value? .insertVariant).bind variant?,
        format := ((g.value? .format).bind Format.ofText?).getD .text, write :=
          g.has .write })
  | _, _ => none

/-- The request that a command's arguments make, if none is missing. -/
def request? (name : CommandName) (g : Given) : Option Request :=
  match name with
  | .cycle => cycleRequest? g
  | .dialects => some .dialects
  | .patterns => g.others.head?.map .patterns
  | .detect =>
    (g.value? .syntaxName).map fun syntaxName => .detect syntaxName (g.value? .file)
  | .help => none

/-- What a call for help comes to: help on all commands, or on the one that is
named. -/
def helpStop (args : List Text) : Stop :=
  if args.length ≤ 1 && args.all fun t =>
    (CommandName.ofText? t).isSome then .help else .usage

namespace Invocation

/-- Read the arguments behind a command. -/
def ofCommand (name : CommandName) (root : Given) (args : List Text) :
    Except Stop Invocation := do
  let (g, _) ← name.options.scan name.mostOthers (fun _ => false) none .nothing args
  match request? name g with
  | none => .error .usage
  | some request =>
    return ⟨(g.value? .config).orElse fun _ => root.value? .config, request⟩

/-- Read the arguments of the program. -/
def ofArguments (args : List Text) : Except Stop Invocation := do
  let (root, rest) ← rootOptions.scan 0 (fun t => (CommandName.ofText? t).isSome)
    none .nothing args
  match rest with
  | [] => .error .usage
  | arg :: args =>
    match CommandName.ofText? arg with
    | none => .error .usage
    | some .help => .error (helpStop args)
    | some name => ofCommand name root args

end Invocation

end TemplateTags.Command
