import TemplateTags.Command.Run
/-!
# Responses

`respond` is the whole program as a function: from its arguments and the files it
may read to what it prints, the file it overwrites and its exit code. The code is
0 for a command that is carried out, 1 for one that fails, and 2 for arguments
that make no command.
-/

namespace TemplateTags.Command

/-- What the program does in the end. -/
structure Response where
  exitCode : Nat
  output : Text
  /-- what is told of a failure -/
  errors : Text
  written : Option (Text × Text)
deriving DecidableEq, Repr

/-- The forms in which the program is called. -/
def usage : Text :=
  "Usage: templater [-c CONFIG] cycle PATH -s SELECTION... [-d DIALECT] ".toList
    ++ "[-i INDEX] [-f text|json] [-w]\n".toList
    ++ "       templater [-c CONFIG] dialects\n".toList
    ++ "       templater [-c CONFIG] patterns DIALECT\n".toList
    ++ "       templater [-c CONFIG] detect --syntax SYNTAX [--file FILE]\n".toList

/-- The response to arguments that no command is carried out for. -/
def Stop.response : Stop → Response
  | usage => ⟨2, [], Command.usage, none⟩
  | help => ⟨0, Command.usage, [], none⟩
  | version => ⟨0, versionLine ++ ['\n'], [], none⟩

def Failure.response (f : Failure) : Response := ⟨1, [], f.message, none⟩

def Outcome.response (o : Outcome) : Response := ⟨0, o.output, [], o.written⟩

/-- The files that the program may read when it is called with these arguments. -/
def filesRead (args : List Text) : List Text :=
  match Invocation.ofArguments args with
  | .ok invocation => invocation.reads
  | .error _ => []

/-- The response to arguments. -/
def respond (args : List Text) (files : Files) : Response :=
  match Invocation.ofArguments args with
  | .error stop => stop.response
  | .ok invocation =>
    match invocation.run files with
    | .error failure => failure.response
    | .ok outcome => outcome.response

/-- The files after a response. -/
def Response.applyTo (r : Response) (t : FileTree) : FileTree :=
  match r.written with
  | none => t
  | some (path, text) => t.write path text

end TemplateTags.Command
