/-
**Settings.**

Settings are read from named variables, each of which may be unset.  One part of them says how a
router behaves, another one how the program logs.

Main definitions:

* `Environment` — the value of each variable that is set;
* `RouterConfig` — the settings of a router, with their defaults;
* `RouterConfig.ofEnvironment` — those that an environment asks for; a value that cannot be read
  counts as unset;
* `LogFormat`, `LogConfig` — the settings of the log, with `LogFormat.ofWord` for the form of the
  lines;
* `LogConfig.ofEnvironment`, `LogConfig.forDevelopment` — the settings that an environment asks
  for, and those for development;
* `LogConfig.level` — the level that is meant by a word.
-/
import RouteTree.Event
import RouteTree.Text.Decimal

set_option autoImplicit false
set_option relaxedAutoImplicit false

namespace RouteTree

/-! ### The environment -/

/-- The value of each variable that is set. -/
abbrev Environment := String → Option Text

/-- The environment in which just these variables are set. -/
def Environment.ofList (vars : List (String × Text)) : Environment := fun name => vars.lookup name

/-! ### Routers -/

/-- The settings of a router. -/
structure RouterConfig where
  /-- Send a request on when it has a route but for a slash at its end. -/
  redirectTrailingSlash : Bool := true
  /-- Draw the routes when the router is made. -/
  printRoutes : Bool := false
  /-- A look-up that takes more microseconds than this is slow. -/
  slowMatchMicros : Nat := 1000
  deriving DecidableEq, Repr

namespace RouterConfig

/-- A switch is on or off by one of four words each, in any letter case and between blanks.  No
capital outside ASCII folds to a letter of these words. -/
def flag? (value : Text) : Option Bool :=
  let word := value.trimmed
  if ["1", "true", "yes", "on"].any (Text.sameLetters word ·.toList) then some true
  else if ["0", "false", "no", "off"].any (Text.sameLetters word ·.toList) then some false
  else none

/-- **The settings that an environment asks for.** -/
def ofEnvironment (env : Environment) : RouterConfig :=
  let defaults : RouterConfig := {}
  { redirectTrailingSlash :=
      ((env "BRRTR_REDIRECT_TRAILING_SLASH").bind flag?).getD defaults.redirectTrailingSlash
    printRoutes := ((env "BRRTR_PRINT_ROUTES").bind flag?).getD defaults.printRoutes
    slowMatchMicros :=
      ((env "BRRTR_SLOW_MATCH_US").bind fun value => Text.word64? value.trimmed).getD
        defaults.slowMatchMicros }

end RouterConfig

/-! ### The log -/

/-- The form of log lines: one object each, or for reading. -/
inductive LogFormat where
  | json
  | pretty
  deriving DecidableEq, Repr

/-- One word in any letter case asks for objects; everything else is for reading.  No capital
outside ASCII folds to a letter of the word. -/
def LogFormat.ofWord (word : Text) : LogFormat :=
  if word.sameLetters "json".toList then .json else .pretty

/-- The settings of the log. -/
structure LogConfig where
  /-- The word for the level up to which events are logged. -/
  levelWord : Text
  format : LogFormat
  /-- Further directives, separated by commas. -/
  targetFilter : Option Text
  /-- Whether lines say where in the program an event arose. -/
  includeLocation : Bool
  deriving DecidableEq, Repr

namespace LogConfig

/-- The settings for development. -/
def forDevelopment : LogConfig := ⟨"debug".toList, .pretty, none, true⟩

/-- **The settings that an environment asks for.**  Locations are included for just one spelling of
the word. -/
def ofEnvironment (env : Environment) : LogConfig :=
  { levelWord := (env "BRRTR_LOG_LEVEL").getD "info".toList
    format := LogFormat.ofWord ((env "BRRTR_LOG_FORMAT").getD "pretty".toList)
    targetFilter := env "BRRTR_LOG_TARGET_FILTER"
    includeLocation := env "BRRTR_LOG_INCLUDE_LOCATION" = some "true".toList }

/-- The level that the settings mean; an unknown word means the middle one. -/
def level (c : LogConfig) : Level :=
  let word := c.levelWord
  if word.sameLetters "trace".toList then .trace
  else if word.sameLetters "debug".toList then .debug
  else if word.sameLetters "warn".toList then .warn
  else if word.sameLetters "error".toList then .error
  else .info

end LogConfig

end RouteTree
