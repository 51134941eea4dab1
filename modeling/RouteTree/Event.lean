/-
**What the library reports while it works.**

Registering and looking up return, beside their answer, the events that they gave rise to, in
order.  An event is a fact of the domain; its level, its target and its fields are read off it
when it is written to a log.

Main definitions:

* `Event` — the facts that are reported;
* `Event.level`, `Event.target`, `Event.fields` — how each is logged;
* `Event.fieldNames` — the names of the fields, that of a duration among them;
* `Level` — how grave an event is, `Level.rank` from errors up to the finest detail.
-/
import RouteTree.Method
import RouteTree.RouteError
import RouteTree.Text.Quoted

set_option autoImplicit false
set_option relaxedAutoImplicit false

namespace RouteTree

/-! ### Levels -/

/-- How grave an event is. -/
inductive Level where
  | error
  | warn
  | info
  | debug
  | trace
  deriving DecidableEq, Repr

namespace Level

/-- The word for a level in a log line. -/
def name : Level → String
  | error => "ERROR"
  | warn => "WARN"
  | info => "INFO"
  | debug => "DEBUG"
  | trace => "TRACE"

/-- The finer the detail, the higher the rank. -/
def rank : Level → Nat
  | error => 1
  | warn => 2
  | info => 3
  | debug => 4
  | trace => 5

end Level

/-! ### Events -/

/-- A fact that is reported. -/
inductive Event where
  /-- The literal node at `node` was split into `keep` and `tail`. -/
  | nodeSplit (node keep tail : Text)
  /-- A route was registered under one verb. -/
  | routeRegistered (verb : Verb) (template : Text) (params : Nat)
  /-- A template could not be brought into the tree. -/
  | templateRejected (template : Text) (error : RouteError)
  /-- A verb is taken already at the node of a template. -/
  | verbRejected (verb : Verb) (template existing : Text)
  /-- A tree was built from a table with `entries` entries. -/
  | tableLoaded (entries routes maxParams : Nat)
  /-- A router was made; the summary lists its first routes. -/
  | routingLoaded (routes maxParams : Nat) (summary : List Text)
  /-- A request is about to be looked up. -/
  | matchAttempted (method path : Text)
  /-- A request matched a route. -/
  | routeMatched (method path template : Text) (params : List (Text × Text))
  /-- A request is sent to `target`, which differs by a trailing slash. -/
  | slashRedirected (method path target : Text)
  /-- A request matched nothing. -/
  | noRouteMatched (method path : Text)
  deriving DecidableEq, Repr

/-- The value of a field of a log line. -/
inductive FieldValue where
  | text (t : String)
  | number (n : Nat)
  deriving DecidableEq, Repr

namespace FieldValue

/-- A text as a field value. -/
def ofText (t : Text) : FieldValue := .text (String.ofList t)

/-- The value as it reads on a line of plain text. -/
def plain : FieldValue → String
  | text t => t
  | number n => toString n

end FieldValue

namespace Event

/-- The level at which an event is logged. -/
def level : Event → Level
  | nodeSplit .. => .trace
  | routeRegistered .. => .debug
  | templateRejected .. => .warn
  | verbRejected .. => .warn
  | tableLoaded .. => .info
  | routingLoaded .. => .info
  | matchAttempted .. => .debug
  | routeMatched .. => .debug
  | slashRedirected .. => .debug
  | noRouteMatched .. => .debug

/-- The part of the program that an event is attributed to in a log. -/
def target : Event → String
  | nodeSplit .. => "brrtrouter_radix::tree::node"
  | routeRegistered .. => "brrtrouter_radix::tree::core"
  | templateRejected .. => "brrtrouter_radix::tree::core"
  | verbRejected .. => "brrtrouter_radix::tree::core"
  | tableLoaded .. => "brrtrouter_radix::route_table"
  | routingLoaded .. => "brrtrouter_radix::router::core"
  | matchAttempted .. => "brrtrouter_radix::router::core"
  | routeMatched .. => "brrtrouter_radix::router::core"
  | slashRedirected .. => "brrtrouter_radix::router::core"
  | noRouteMatched .. => "brrtrouter_radix::router::core"

/-- The sentence that names an event in a log. -/
def message : Event → String
  | nodeSplit .. => "Splitting static node"
  | routeRegistered .. => "Route registered"
  | templateRejected .. => "Route registration rejected"
  | verbRejected .. => "Route registration rejected"
  | tableLoaded .. => "Route table loaded"
  | routingLoaded .. => "Routing table loaded"
  | matchAttempted .. => "Route match attempt"
  | routeMatched .. => "Route matched"
  | slashRedirected .. => "Trailing slash redirect"
  | noRouteMatched .. => "No route matched"

/-- What an event says besides its message. -/
def details : Event → List (String × FieldValue)
  | nodeSplit node keep tail =>
      [("node", .ofText node), ("keep", .ofText keep), ("tail", .ofText tail)]
  | routeRegistered verb template params =>
      [("method", .ofText verb.name), ("path", .ofText template), ("params", .number params)]
  | templateRejected template error =>
      [("path", .ofText template), ("error", .text error.message)]
  | verbRejected verb template existing =>
      [("method", .ofText verb.name), ("path", .ofText template), ("existing", .ofText existing)]
  | tableLoaded entries routes maxParams =>
      [("entries", .number entries), ("routes_count", .number routes),
        ("max_param", .number maxParams)]
  | routingLoaded routes maxParams summary =>
      [("routes_count", .number routes), ("max_param", .number maxParams),
        ("routes_summary", .ofText (Text.quotedList (summary.map Text.quoted))),
        ("routing_algorithm", .text "radix_tree")]
  | matchAttempted method path => [("method", .ofText method), ("path", .ofText path)]
  | routeMatched method path template params =>
      [("method", .ofText method), ("path", .ofText path), ("route_pattern", .ofText template),
        ("path_params", .ofText (Text.quotedList (params.map fun p =>
          Text.quotedPair (Text.quoted p.1) (Text.quoted p.2))))]
  | slashRedirected method path target =>
      [("method", .ofText method), ("path", .ofText path), ("to", .ofText target)]
  | noRouteMatched method path => [("method", .ofText method), ("path", .ofText path)]

/-- The fields of an event in a log, the message first. -/
def fields (e : Event) : List (String × FieldValue) := ("message", .text e.message) :: e.details

/-- Whether an event ends a look-up, so that its duration is known. -/
def endsLookup : Event → Bool
  | routeMatched .. => true
  | noRouteMatched .. => true
  | _ => false

/-- The names of the fields of an event.  A duration is a field like others, but as it is not the
same twice, its value is not among those above. -/
def fieldNames (e : Event) : List String :=
  e.fields.map (·.1) ++ if e.endsLookup then ["duration_us"] else []

end Event

end RouteTree
