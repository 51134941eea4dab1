/-
**The program.**

It reads the environment, the one file that the arguments name, and nothing else; it writes what
the library makes of them, and exits.  Events go to the standard error, so that they do not mix
with the output.
-/
import RouteTree.CommandLine.Run
import RouteTree.Log.Line

set_option autoImplicit false
set_option relaxedAutoImplicit false

namespace RouteTree

/-- The names of the variables that the program reads. -/
def variableNames : List String :=
  [Command.fileVariable, Session.filterVariable, "BRRTR_REDIRECT_TRAILING_SLASH",
    "BRRTR_PRINT_ROUTES", "BRRTR_SLOW_MATCH_US", "BRRTR_LOG_LEVEL", "BRRTR_LOG_FORMAT",
    "BRRTR_LOG_TARGET_FILTER", "BRRTR_LOG_INCLUDE_LOCATION"]

/-- The environment, as far as the program reads it. -/
def readEnvironment : IO Environment := do
  let found ← variableNames.filterMapM fun name => do
    return (← IO.getEnv name).map fun value => (name, value.toList)
  return .ofList found

/-- The text of a file, if it can be read as text. -/
def readText (file : Text) : IO (Option Text) := do
  try return some (← IO.FS.readFile (String.ofList file)).toList
  catch _ => return none

/-- The text of the file that some arguments name, if they name one. -/
def readNamedFile (env : Environment) (arguments : List Text) : IO (Option Text) := do
  match Command.ofArguments env arguments with
  | .ok command => readText command.file
  | .error _ => return none

/-- Tell why there is no result. -/
def report (s : Session) : IO Unit := do
  if let some complaint := s.complaint? then IO.eprintln complaint
  if let some u := s.usage then
    if u = .displayHelp then IO.print helpText
    else if !u.isRequest then IO.eprint helpText

end RouteTree

open RouteTree in
/-- Run the program. -/
def main (arguments : List String) : IO UInt32 := do
  let env ← readEnvironment
  let arguments := arguments.map String.toList
  let contents ← readNamedFile env arguments
  let s := Session.ofArguments (fun _ => contents) env arguments
  for warning in s.warnings do
    IO.eprintln warning
  for e in s.logged do
    IO.eprintln (e.line s.log.format)
  IO.print (String.ofList s.stdout)
  report s
  return UInt32.ofNat s.exitCode
