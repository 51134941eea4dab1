/-
**Failures, and what was being done when they arose.**

A failure has a cause, and a chain of contexts that say, from the outside in, what the program was
about when the cause arose.

Main definitions:

* `Cause` — what went wrong;
* `Context` — what was being done;
* `Failure` — the two together, with `Failure.within` to add a context around a failure;
* `Failure.headline` — the outermost message.
-/
import RouteTree.RouteError

set_option autoImplicit false
set_option relaxedAutoImplicit false

namespace RouteTree

/-- What went wrong. -/
inductive Cause where
  /-- A file cannot be read as text. -/
  | unreadable
  /-- A document is not well formed, or not of the expected shape. -/
  | malformed
  /-- A name is no token. -/
  | invalidMethod (name : Text)
  /-- A route is rejected, or its values are. -/
  | route (error : RouteError)
  /-- No route is registered under just this method and template. -/
  | unregistered (method template : Text)
  deriving DecidableEq, Repr

/-- The wording of a cause. -/
def Cause.message : Cause → String
  | unreadable => "cannot be read as text"
  | malformed => "not a well-formed route table"
  | invalidMethod name => "invalid HTTP method '" ++ String.ofList name ++ "'"
  | route error => error.message
  | unregistered method template =>
      "no " ++ String.ofList method ++ " route registered as " ++ String.ofList template

/-- What was being done. -/
inductive Context where
  /-- Reading the file of a route table. -/
  | reading (file : Text)
  /-- Making a route table of the contents of a file. -/
  | loading (file : Text)
  /-- Reading the text of a route table. -/
  | parsing
  /-- Working out the methods of an entry. -/
  | resolving (path handler : Text)
  /-- Registering an entry. -/
  | registering (path handler : Text)
  deriving DecidableEq, Repr

/-- The wording of a context. -/
def Context.message : Context → String
  | reading file => "Failed to read route table " ++ String.ofList file
  | loading file => "Invalid route table " ++ String.ofList file
  | parsing => "Failed to parse route table"
  | resolving path handler => "Route " ++ String.ofList path ++ " -> " ++ String.ofList handler
  | registering path handler =>
      "Failed to register " ++ String.ofList path ++ " -> " ++ String.ofList handler

/-- A cause, and the contexts that it arose in, outermost first. -/
structure Failure where
  contexts : List Context
  cause : Cause
  deriving DecidableEq, Repr

namespace Failure

/-- A failure outside of any context. -/
def plain (cause : Cause) : Failure := ⟨[], cause⟩

/-- A failure that arose while something was being done. -/
def within (f : Failure) (context : Context) : Failure :=
  { f with contexts := context :: f.contexts }

/-- All messages of a failure, outermost first. -/
def messages (f : Failure) : List String := f.contexts.map Context.message ++ [f.cause.message]

/-- The outermost message. -/
def headline (f : Failure) : String := f.messages.headD f.cause.message

/-- A line that is indented. -/
def indented (line : String) : String := "    " ++ line

/-- A failure in full: the outermost message, and the lines of the others below it, indented. -/
def report (f : Failure) : String :=
  let inner := f.messages.tail.flatMap (·.splitOn "\n")
  let block := if inner = [] then [] else "" :: "Caused by:" :: inner.map indented
  "\n".intercalate (f.headline :: block)

end Failure

end RouteTree
