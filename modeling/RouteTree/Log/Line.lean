/-
**Lines of the log.**

A logged event is one line: an object with its level, its fields and its target, or a sentence for
reading.

Main definitions:

* `Text.asString` — a text as a string of an object;
* `Event.objectLine`, `Event.readingLine` — the two forms of a line;
* `Event.line` — the form that the settings ask for.
-/
import RouteTree.Settings

set_option autoImplicit false
set_option relaxedAutoImplicit false

namespace RouteTree

namespace Text

/-- A control character by its number, in four hexadecimal digits. -/
def controlEscape (c : Char) : Text :=
  let digits := Nat.toDigits 16 c.toNat
  ['\\', 'u'] ++ List.replicate (4 - digits.length) '0' ++ digits

/-- How one character is written in a string of an object. -/
def stringChar (c : Char) : Text :=
  match c with
  | '"' => ['\\', '"']
  | '\\' => ['\\', '\\']
  | '\n' => ['\\', 'n']
  | '\r' => ['\\', 'r']
  | '\t' => ['\\', 't']
  | c => if c.toNat < 0x20 then controlEscape c else [c]

/-- A text as a string of an object. -/
def asString (t : Text) : String := String.ofList (['"'] ++ t.flatMap stringChar ++ ['"'])

end Text

/-- The value of a field in an object. -/
def FieldValue.inObject : FieldValue → String
  | text t => Text.asString t.toList
  | number n => toString n

namespace Event

/-- An object with a value for each name. -/
def object (members : List (String × String)) : String :=
  "\x7b" ++ ",".intercalate (members.map fun m => Text.asString m.1.toList ++ ":" ++ m.2) ++ "\x7d"

/-- An event as an object. -/
def objectLine (e : Event) : String :=
  object
    [("level", Text.asString e.level.name.toList),
      ("fields", object (e.fields.map fun f => (f.1, f.2.inObject))),
      ("target", Text.asString e.target.toList)]

/-- An event for reading. -/
def readingLine (e : Event) : String :=
  e.level.name ++ " " ++ e.target ++ ": " ++ e.message ++
    String.join (e.details.map fun f => ", " ++ f.1 ++ ": " ++ f.2.plain)

/-- **An event in the form that the settings ask for.** -/
def line (format : LogFormat) (e : Event) : String :=
  match format with
  | .json => e.objectLine
  | .pretty => e.readingLine

end Event

end RouteTree
