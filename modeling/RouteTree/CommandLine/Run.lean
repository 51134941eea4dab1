/-
**Carrying commands out.**

A command is carried out against the files and the environment, both given as data, and gives the
text for the standard output, what a new router drew before it, and a report.

Main definitions:

* `Files` — the text of each file that can be read;
* `CommandRun`, `Command.run` — what carrying a command out leaves behind;
* `Session`, `Session.ofArguments` — the whole program: arguments in, output, exit code and the
  logged events out.
-/
import RouteTree.CommandLine.Arguments
import RouteTree.Log.Filter
import RouteTree.RouteTable.Document
import RouteTree.Router.Basic

set_option autoImplicit false
set_option relaxedAutoImplicit false

namespace RouteTree

/-- The text of each file that can be read as text. -/
abbrev Files := Text → Option Text

/-- What carrying a command out leaves behind. -/
structure CommandRun where
  /-- Whether something was found, or why the command failed. -/
  outcome : Except Failure Bool
  /-- The output of the command. -/
  out : Text
  /-- What a new router drew, before any output. -/
  drawn : Text
  events : List Event

namespace CommandRun

/-- A command that failed before it wrote anything. -/
def failed (f : Failure) (events : List Event) : CommandRun := ⟨.error f, [], [], events⟩

end CommandRun

namespace Command

/-- The tree of the table in a file. -/
def treeOfFile (files : Files) (file : Text) : Built (Tree Text) :=
  match RouteTable.ofFile file (files file) with
  | .error f => ⟨.error f, []⟩
  | .ok table => table.buildTree

/-- Go on with the tree of the table in a file. -/
def withTree (files : Files) (file : Text) (next : Tree Text → CommandRun) : CommandRun :=
  let b := treeOfFile files file
  match b.outcome with
  | .error f => .failed f b.events
  | .ok t =>
      let r := next t
      { r with events := b.events ++ r.events }

/-- Go on with the method that a word means. -/
def withMethod (word : Text) (next : Method → CommandRun) : CommandRun :=
  match Method.ofWord word with
  | .error cause => .failed (.plain cause) []
  | .ok m => next m

/-- An answer to a request, as it is written: the handler and a line for each parameter, the
target of a redirect, or that there is no match. -/
def answerText : RouteLookup Text → Text
  | .matched m =>
      m.route.handler ++ ['\n'] ++
        m.pathParams.flatMap fun p => [' ', ' '] ++ p.1 ++ [' ', '=', ' '] ++ p.2 ++ ['\n']
  | .redirect target => "redirect -> ".toList ++ target ++ ['\n']
  | .notFound => "no match\n".toList

/-- Whether an answer counts as a find. -/
def isFind : RouteLookup Text → Bool
  | .notFound => false
  | _ => true

/-- The line for the URL that a route with just this method and template makes of some values. -/
def urlOf (t : Tree Text) (m : Method) (template : Text) (values : List Text) : CommandRun :=
  match t.routeOf? m template with
  | none => .failed (.plain (.unregistered m.name template)) []
  | some route =>
      match route.url values with
      | .error e => .failed (.plain (.route e)) []
      | .ok line => ⟨.ok true, line ++ ['\n'], [], []⟩

/-- **Carry a command out.**  The method of a request is judged before the file is read. -/
def run (files : Files) (env : Environment) : Command → CommandRun
  | .print file => withTree files file fun t => ⟨.ok true, t.rendering, [], []⟩
  | .lookup file method path =>
      withMethod method fun m => withTree files file fun t =>
        let launch := Router.ofTree t (RouterConfig.ofEnvironment env)
        let (answer, events) := launch.router.route m path
        ⟨.ok (isFind answer), answerText answer, launch.drawn, launch.events ++ events⟩
  | .url file method template values =>
      withMethod method fun m => withTree files file fun t => urlOf t m template values

end Command

/-! ### The whole program -/

/-- The name and the version of the program, as it is shown on request. -/
def versionLine : Text := "brrtree 0.1.0-alpha.1\n".toList

/-- How the program is called. -/
def helpText : String :=
  "Inspect and query route tables\n\n" ++
    "Usage: brrtree print [-r FILE]\n" ++
    "       brrtree match [-r FILE] METHOD PATH\n" ++
    "       brrtree url [-r FILE] METHOD PATTERN [VALUES]...\n\n" ++
    "  -r, --routes FILE  Path to the route table (YAML), else the value of BRRTR_ROUTES\n" ++
    "  -h, --help         Print help\n" ++
    "  -V, --version      Print version\n"

/-- What a run of the program leaves behind. -/
structure Session where
  exitCode : Nat
  stdout : Text
  /-- Why a command failed, or why there was none. -/
  failure : Option Failure
  usage : Option UsageError
  /-- The directives for the log that cannot be read. -/
  badDirectives : List Text
  /-- The events that are logged. -/
  logged : List Event
  log : LogConfig

namespace Session

/-- The directives that come as a whole. -/
def filterVariable : String := "RUST_LOG"

/-- **The whole program.**  It exits with 0 if something was found, with 1 if not or on a failure,
and with 2 if the arguments lead to no command. -/
def ofArguments (files : Files) (env : Environment) (arguments : List Text) : Session :=
  let log := LogConfig.ofEnvironment env
  let (filter, badDirectives) := Filter.ofSettings log (env filterVariable)
  match Command.ofArguments env arguments with
  | .error usage =>
      let stdout := if usage = .displayVersion then versionLine else []
      ⟨if usage.isRequest then 0 else 2, stdout, none, some usage, badDirectives, [], log⟩
  | .ok command =>
      let r := command.run files env
      let logged := r.events.filter filter.shows
      match r.outcome with
      | .error f => ⟨1, r.drawn ++ r.out, some f, none, badDirectives, logged, log⟩
      | .ok found =>
          ⟨if found then 0 else 1, r.drawn ++ r.out, none, none, badDirectives, logged, log⟩

/-- What the program tells on its standard error before the events. -/
def warnings (s : Session) : List String :=
  s.badDirectives.map fun d => "Warning: Invalid log filter directive: " ++ String.ofList d

/-- What the program tells on its standard error in the end, if a command failed. -/
def complaint? (s : Session) : Option String := s.failure.map fun f => "Error: " ++ f.report

end Session

end RouteTree
