import TemplateTags.Command.Response
/-!
# The program

Reads the files that a command asks for, prints the response and writes the
file that it overwrites.
-/

namespace TemplateTags

open Command

/-- What there is at a path. -/
def readState (path : Text) : IO FileState := do
  try
    return .file (← IO.FS.readFile (String.ofList path)).toList
  catch e =>
    match e with
    | .noFileOrDirectory .. | .inappropriateType .. => return .missing
    | _ => return .unreadable

/-- The states of the files at some paths. -/
def readStates (paths : List Text) : IO (List (Text × FileState)) :=
  paths.mapM fun path => do return (path, ← readState path)

/-- The files that were read. -/
def filesOf (states : List (Text × FileState)) : Files := fun path =>
  match states.find? (·.1 == path) with
  | some (_, state) => state
  | none => .missing

/-- Write the file of a response. The response is another one if that fails. -/
def writeFile (r : Response) : IO Response := do
  match r.written with
  | none => return r
  | some (path, text) =>
    try
      IO.FS.writeFile (String.ofList path) (String.ofList text)
      return r
    catch _ => return Failure.unwritableFile.response

end TemplateTags

open TemplateTags Command in
def main (args : List String) : IO UInt32 := do
  let args := args.map String.toList
  let states ← readStates (filesRead args)
  let response ← writeFile (respond args (filesOf states))
  IO.print (String.ofList response.output)
  IO.eprint (String.ofList response.errors)
  return response.exitCode.toUInt32
