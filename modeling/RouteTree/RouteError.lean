/-
**Why a route cannot be registered, or a URL not be made.**

Looking a request up never fails.  Registering a route can fail in five ways, and filling in a
template in one.

Main definitions:

* `RouteError` — the six causes;
* `RouteError.message` — the wording of each.
-/
import RouteTree.Text.Basic

set_option autoImplicit false
set_option relaxedAutoImplicit false

namespace RouteTree

/-- A reason to reject a route, or a list of values for one. -/
inductive RouteError where
  /-- The template does not begin with a slash. -/
  | invalidPath (template : Text)
  /-- The template clashes with what is registered already, or with itself. -/
  | routeConflict (existing new : Text)
  /-- A placeholder of the template has no name. -/
  | emptyParamName (template : Text)
  /-- The method is not one of the nine verbs. -/
  | unsupportedMethod (method : Text)
  /-- The tree takes no more routes. -/
  | sealedTree (template : Text)
  /-- A route with `expected` parameters was given `got` values. -/
  | paramCountMismatch (expected got : Nat)
  deriving DecidableEq, Repr

namespace RouteError

/-- The wording of an error. -/
def message : RouteError → String
  | invalidPath t =>
      "invalid route path '" ++ String.ofList t ++ "': path must begin with '/'"
  | routeConflict existing new =>
      "route conflict: '" ++ String.ofList new ++ "' conflicts with existing route '" ++
        String.ofList existing ++ "'"
  | emptyParamName t =>
      "invalid route path '" ++ String.ofList t ++ "': ':' and '*' must be followed by a name"
  | unsupportedMethod m => "unsupported HTTP method '" ++ String.ofList m ++ "'"
  | sealedTree t =>
      "cannot register '" ++ String.ofList t ++ "': the route tree is sealed for serving"
  | paramCountMismatch expected got =>
      "route expects " ++ toString expected ++ " parameter value(s) but " ++ toString got ++
        " were supplied"

end RouteError

end RouteTree
