/-
**The arguments of the command line.**

The program has three commands, each with a file option and some words, and a command for help.
Arguments are read from left to right.  An argument that begins with a hyphen is an option, up to
a pair of hyphens, behind which everything is a word.  An option whose value is still to come is
only judged when something else than a value follows it.

Main definitions:

* `Command` — what a command line asks for;
* `UsageError` — why there is nothing to be done;
* `Command.ofArguments` — reading the arguments in an environment.
-/
import RouteTree.Settings

set_option autoImplicit false
set_option relaxedAutoImplicit false

namespace RouteTree

/-- What a command line asks for.  Each command reads the route table of a file. -/
inductive Command where
  /-- Draw the tree. -/
  | print (file : Text)
  /-- Look a request up. -/
  | lookup (file method path : Text)
  /-- Fill a template in. -/
  | url (file method template : Text) (values : List Text)
  deriving DecidableEq, Repr

/-- Why a command line leads to no command. -/
inductive UsageError where
  /-- The version is asked for. -/
  | displayVersion
  /-- Help is asked for. -/
  | displayHelp
  /-- There is nothing at all. -/
  | nothingAsked
  /-- The command is unknown. -/
  | invalidSubcommand
  /-- Something is missing. -/
  | missingRequiredArgument
  /-- An option is unknown, or a word is one too many. -/
  | unknownArgument
  /-- An option has no value, or one that cannot be. -/
  | invalidValue
  /-- An option is given twice. -/
  | argumentConflict
  /-- An option that takes no value is given one. -/
  | tooManyValues
  deriving DecidableEq, Repr

namespace UsageError

/-- Asking for help or for the version is not an error. -/
def isRequest : UsageError → Bool
  | displayVersion => true
  | displayHelp => true
  | _ => false

end UsageError

namespace Command

/-- The file whose table a command reads. -/
def file : Command → Text
  | print file => file
  | lookup file .. => file
  | url file .. => file

/-! ### The words of a command -/

/-- The three commands. -/
inductive Kind where
  | print
  | lookup
  | url
  deriving DecidableEq, Repr

namespace Kind

/-- The name of a command. -/
def name : Kind → Text
  | print => "print".toList
  | lookup => "match".toList
  | url => "url".toList

/-- The command with some name. -/
def ofName? (t : Text) : Option Kind := [print, lookup, url].find? fun k => k.name = t

/-- How many words a command takes at most; nothing means any number. -/
def wordLimit : Kind → Option Nat
  | print => some 0
  | lookup => some 2
  | url => none

end Kind

/-! ### Reading the arguments of a command -/

/-- What has been read of the arguments of a command. -/
structure Progress where
  /-- The file that has been given. -/
  file : Option Text
  /-- The file option without its value, or with a value that has not been judged yet. -/
  pending : Option (Option Text)
  words : List Text

namespace Progress

/-- Nothing has been read. -/
def start : Progress := ⟨none, none, []⟩

/-- Take a value for the file option. -/
def giveFile (p : Progress) (value : Text) : Except UsageError Progress :=
  if p.file.isSome then .error .argumentConflict
  else if value = [] then .error .invalidValue
  else .ok { p with file := some value }

/-- Judge the file option that is still open. -/
def settle (p : Progress) : Except UsageError Progress :=
  match p.pending with
  | none => .ok p
  | some none => .error .invalidValue
  | some (some value) => { p with pending := none }.giveFile value

/-- Open the file option. -/
def openFile (p : Progress) : Except UsageError Progress := do
  let p ← p.settle
  return { p with pending := some none }

/-- Take the file option together with its value. -/
def attachFile (p : Progress) (value : Text) : Except UsageError Progress := do
  (← p.settle).giveFile value

/-- Whether the next word is the value of the file option. -/
def expectsFile (p : Progress) : Bool := p.pending = some none

/-- Take a word. -/
def giveWord (kind : Kind) (p : Progress) (word : Text) : Except UsageError Progress := do
  if kind.wordLimit.any (· ≤ p.words.length) then .error .unknownArgument
  let p ← p.settle
  return { p with words := p.words ++ [word] }

/-- Take a long option. -/
def longOption (p : Progress) (name : Text) (value : Option Text) : Except UsageError Progress :=
  if name = "routes".toList then
    match value with
    | some value => p.attachFile value
    | none => p.openFile
  else if name = "help".toList then
    match value with
    | some _ => .error .tooManyValues
    | none => do
        let _ ← p.settle
        .error .displayHelp
  else .error .unknownArgument

/-- Take short options that stand together.  The file option takes the rest of them as its
value, with or without an equals sign between. -/
def shortOptions (p : Progress) (letters : Text) : Except UsageError Progress :=
  match letters with
  | 'r' :: [] => p.openFile
  | 'r' :: '=' :: value => p.attachFile value
  | 'r' :: value => p.attachFile value
  | 'h' :: _ => do
      let _ ← p.settle
      .error .displayHelp
  | _ => .error .unknownArgument

end Progress

/-- Cut a long option at its equals sign. -/
def nameAndValue (t : Text) : Text × Option Text :=
  match t.dropWhile (· ≠ '=') with
  | [] => (t, none)
  | _ :: value => (t.takeWhile (· ≠ '='), some value)

/-- Read the arguments behind the name of a command. -/
def readArguments (kind : Kind) : (isTrailing : Bool) → Progress → List Text →
    Except UsageError Progress
  | _, p, [] => .ok p
  | true, p, word :: rest => do readArguments kind true (← p.giveWord kind word) rest
  | false, p, arg :: rest =>
      match arg with
      | ['-', '-'] => readArguments kind true p rest
      | '-' :: '-' :: option => do
          let (name, value) := nameAndValue option
          readArguments kind false (← p.longOption name value) rest
      | '-' :: x :: letters => do
          readArguments kind false (← p.shortOptions (x :: letters)) rest
      | word => do
          let p ←
            if p.expectsFile then pure { p with pending := some (some word) }
            else p.giveWord kind word
          readArguments kind false p rest

/-- The variable that stands in for the file option. -/
def fileVariable : String := "BRRTR_ROUTES"

/-- Take the file from the environment if no option gives it. -/
def Progress.withDefault (p : Progress) (env : Environment) : Except UsageError Progress := do
  let p ← p.settle
  match p.file, env fileVariable with
  | none, some value => p.giveFile value
  | _, _ => .ok p

/-- The command that has been read, if nothing is missing. -/
def ofProgress (kind : Kind) (p : Progress) : Except UsageError Command :=
  match p.file, kind, p.words with
  | some file, .print, [] => .ok (.print file)
  | some file, .lookup, [method, path] => .ok (.lookup file method path)
  | some file, .url, method :: template :: values => .ok (.url file method template values)
  | _, _, _ => .error .missingRequiredArgument

/-! ### Reading a command line -/

/-- The answer to a request for help about some commands. -/
def helpAbout : List Text → UsageError
  | [] => .displayHelp
  | [name] =>
      if (Kind.ofName? name).isSome || name = "help".toList then .displayHelp
      else .invalidSubcommand
  | _ => .invalidSubcommand

/-- The answer to options before any command. -/
def leadingOption (arg : Text) : UsageError :=
  match arg with
  | '-' :: '-' :: option =>
      let (name, value) := nameAndValue option
      if name = "help".toList then if value.isSome then .tooManyValues else .displayHelp
      else if name = "version".toList then
        if value.isSome then .tooManyValues else .displayVersion
      else .unknownArgument
  | '-' :: 'h' :: _ => .displayHelp
  | '-' :: 'V' :: _ => .displayVersion
  | _ => .unknownArgument

/-- The answer to a first argument behind a pair of hyphens, where no command can stand. -/
def afterHyphens : List Text → UsageError
  | [] => .nothingAsked
  | word :: _ =>
      if (Kind.ofName? word).isSome || word = "help".toList then .unknownArgument
      else .invalidSubcommand

/-- **The command that some arguments ask for** in an environment. -/
def ofArguments (env : Environment) : List Text → Except UsageError Command
  | [] => .error .nothingAsked
  | ['-', '-'] :: rest => .error (afterHyphens rest)
  | first :: rest =>
      match Kind.ofName? first with
      | some kind => do
          let p ← readArguments kind false .start rest
          ofProgress kind (← p.withDefault env)
      | none =>
          if first = "help".toList then .error (helpAbout rest)
          else match first with
            | '-' :: _ :: _ => .error (leadingOption first)
            | _ => .error .invalidSubcommand

end Command

end RouteTree
