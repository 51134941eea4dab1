/-
**The nodes of a route tree.**

A node stands for a beginning of templates.  It carries the last piece of that beginning, the
whole of it, the parameter names along it, and the routes whose template it is.  Its children
continue the beginning: with a literal run, of which there may be many, with a `:name` placeholder,
or with a `*name` placeholder, of which there is at most one each.

Main definitions:

* `Node` — a node with everything below it;
* `Node.route?` — the route that a node has for a method;
* `Node.child`, `Node.attach` — a fresh child, and a node with one more child;
* `Node.split` — a literal node cut in two.
-/
import RouteTree.Method
import RouteTree.Route

set_option autoImplicit false
set_option relaxedAutoImplicit false

namespace RouteTree

/-- At most one route for each verb. -/
abbrev Slots (H : Type) := Verb → Option (Route H)

/-- A node of a route tree, with everything below it. -/
structure Node (H : Type) where
  /-- The piece of template that this node adds to its parent's path. -/
  text : Text
  /-- The beginning of templates that this node stands for. -/
  path : Text
  /-- The names of the placeholders in `path`, in order. -/
  params : List Text
  /-- The routes whose template is `path`. -/
  routes : Slots H
  /-- The children that continue with a literal run, oldest first. -/
  literals : List (Node H)
  /-- The child that continues with a `:name` placeholder. -/
  param : Option (Node H)
  /-- The child that continues with a `*name` placeholder. -/
  wildcard : Option (Node H)

namespace Node

variable {H : Type}

/-- A node without routes and children. -/
def bare (text path : Text) (params : List Text) : Node H :=
  ⟨text, path, params, fun _ => none, [], none, none⟩

/-- The root of an empty tree. -/
def emptyRoot : Node H := bare [] [] []

/-! ### Routes of a node -/

/-- The route that a node has for a method.  Extension methods have none. -/
def route? (n : Node H) (m : Method) : Option (Route H) := m.verb?.bind n.routes

/-- The routes of a node with their verbs, in the order of the verbs. -/
def ownRoutes (n : Node H) : List (Verb × Route H) :=
  Verb.all.filterMap fun v => (n.routes v).map (v, ·)

/-! ### Children -/

/-- A fresh child of `n` for a segment. -/
def child (n : Node H) (s : Segment) : Node H :=
  bare s.text (n.path ++ s.text) (n.params ++ s.name?.toList)

/-- The node with `c` as its child in the place that belongs to a segment: literal children queue
up behind the older ones, a placeholder has one place. -/
def attach (n : Node H) (s : Segment) (c : Node H) : Node H :=
  match s with
  | .literal _ => { n with literals := n.literals ++ [c] }
  | .param _ => { n with param := some c }
  | .wildcard _ => { n with wildcard := some c }

/-- All children of a node: the literal ones, then the parameter, then the wildcard. -/
def children (n : Node H) : List (Node H) :=
  n.literals ++ n.param.toList ++ n.wildcard.toList

/-- The place of a placeholder's value among the values of a request. -/
def slot (n : Node H) : Nat := n.params.length - 1

/-! ### Splitting -/

/-- The node with its text cut after `k` characters.  What was the node becomes the only child,
with the tail of the text; the head keeps neither routes nor other children. -/
def split (n : Node H) (k : Nat) : Node H :=
  let tail := n.text.drop k
  { bare (n.text.take k) (n.path.take (n.path.length - tail.length)) n.params with
    literals := [{ n with text := tail }] }

end Node

end RouteTree
