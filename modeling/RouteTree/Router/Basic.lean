/-
**Routing requests.**

A router is a sealed tree with settings.  It pairs the values that a look-up captures with the
names of the parameters, and turns the news that a slash more or less would have given a route
into a redirect.

Main definitions:

* `Router`, `Router.ofTree` — a router, and making one;
* `RouteMatch` — a route with the parameters of a request;
* `RouteLookup`, `Router.route` — the answers to a request;
* `toggleSlash` — the other spelling of a path;
* `RouteLookup.describe` — an answer written out.
-/
import RouteTree.Settings
import RouteTree.Tree.Lookup
import RouteTree.Tree.Rendering

set_option autoImplicit false
set_option relaxedAutoImplicit false

namespace RouteTree

/-! ### Matches -/

/-- A route that a request matches, and the values of its parameters in order. -/
structure RouteMatch (H : Type) where
  route : Route H
  pathParams : List (Text × Text)
  deriving DecidableEq

namespace RouteMatch

variable {H : Type}

/-- The value of a parameter; of several parameters with one name, the last counts. -/
def getParam? (m : RouteMatch H) (name : Text) : Option Text := m.pathParams.reverse.lookup name

/-- Set the value of a name, in its old place if it has one. -/
def assign (pairs : List (Text × Text)) (name value : Text) : List (Text × Text) :=
  match pairs with
  | [] => [(name, value)]
  | (n, v) :: rest => if n = name then (name, value) :: rest else (n, v) :: assign rest name value

/-- The parameters as a table: each name once, with its last value. -/
def paramTable (m : RouteMatch H) : List (Text × Text) :=
  m.pathParams.foldl (fun table p => assign table p.1 p.2) []

end RouteMatch

/-- The answer to a request. -/
inductive RouteLookup (H : Type) where
  | matched (found : RouteMatch H)
  | redirect (target : Text)
  | notFound
  deriving DecidableEq

/-! ### Answers written out -/

namespace RouteMatch

/-- A match written out: the template of its route, and its parameters. -/
def describe {H : Type} (m : RouteMatch H) : String :=
  "RouteMatch \x7b route: " ++ String.ofList (Text.quoted m.route.template) ++ ", path_params: " ++
    String.ofList (Text.quotedList (m.pathParams.map fun p =>
      Text.quotedPair (Text.quoted p.1) (Text.quoted p.2))) ++ " \x7d"

end RouteMatch

/-- An answer written out. -/
def RouteLookup.describe {H : Type} : RouteLookup H → String
  | matched m => "Matched(" ++ m.describe ++ ")"
  | redirect target => "Redirect \x7b to: " ++ String.ofList (Text.quoted target) ++ " \x7d"
  | notFound => "NotFound"

/-- A route written out: its template and its parameter names. -/
def Route.describe {H : Type} (r : Route H) : String :=
  "Route \x7b path: " ++ String.ofList (Text.quoted r.template) ++ ", params: " ++
    String.ofList (Text.quotedList (r.params.map Text.quoted)) ++ ", .. \x7d"

/-! ### Routers -/

/-- The path without the slash at its end, or with one if it has none. -/
def toggleSlash (path : Text) : Text :=
  if path.getLast? = some '/' then path.dropLast else path ++ ['/']

/-- A tree that serves requests. -/
structure Router (H : Type) where
  tree : Tree H
  config : RouterConfig

/-- What the making of a router leaves behind: the router, what it drew, and its report. -/
structure Launch (H : Type) where
  router : Router H
  drawn : Text
  events : List Event

namespace Router

variable {H : Type}

/-- The number of routes, then the drawing of the tree. -/
def dump (r : Router H) : Text :=
  "[routes] count=".toList ++ (toString r.tree.size).toList ++ ['\n'] ++ r.tree.rendering

/-- How many routes the report on a new router lists at most. -/
def summaryLimit : Nat := 10

/-- **Make a router of a tree**, which takes no more routes then. -/
def ofTree (t : Tree H) (config : RouterConfig) : Launch H :=
  let router : Router H := ⟨t.sealed, config⟩
  let summary := (t.walk.take summaryLimit).map fun p => p.1.name ++ [' '] ++ p.2.template
  ⟨router, if config.printRoutes then router.dump else [],
    [.routingLoaded t.size t.maxParams summary]⟩

/-- **Answer a request**, and report on it. -/
def route (r : Router H) (m : Method) (path : Text) : RouteLookup H × List Event :=
  let found := r.tree.find m path r.tree.buffer
  let attempt := Event.matchAttempted m.name path
  match found.route with
  | some route =>
      let params := route.params.zip found.values
      (.matched ⟨route, params⟩, [attempt, .routeMatched m.name path route.template params])
  | none =>
      if found.toggled && r.config.redirectTrailingSlash then
        let target := toggleSlash path
        (.redirect target, [attempt, .slashRedirected m.name path target])
      else (.notFound, [attempt, .noRouteMatched m.name path])

end Router

end RouteTree
