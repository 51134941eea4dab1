/-
**Going through a tree.**

The nodes of a tree are visited from the root on, each before its children: the literal children
oldest first, then the parameter, then the wildcard.  Listing the routes and drawing the tree both
follow this order.

Main definitions:

* `Node.visits` — the nodes at and below a node with their depths, in order;
* `Tree.walk` — the routes of a tree with their verbs, in order.

Main results:

* `Node.visits_eq` — a node, then its children one by one.
-/
import RouteTree.Tree.Basic

set_option autoImplicit false
set_option relaxedAutoImplicit false

namespace RouteTree

/-- A node that is come by, and how far it is below the start. -/
structure Visit (H : Type) where
  depth : Nat
  node : Node H

namespace Node

variable {H : Type}

mutual

/-- **The nodes at and below a node**, which is itself at the given depth. -/
def visits (depth : Nat) : Node H → List (Visit H)
  | n@⟨_, _, _, _, literals, param, wildcard⟩ =>
      ⟨depth, n⟩ :: (visitsList (depth + 1) literals ++ visitsPlace (depth + 1) param ++
        visitsPlace (depth + 1) wildcard)

/-- The nodes at and below some nodes, one after another. -/
def visitsList (depth : Nat) : List (Node H) → List (Visit H)
  | [] => []
  | c :: cs => c.visits depth ++ visitsList depth cs

/-- The nodes at and below a child that may be missing. -/
def visitsPlace (depth : Nat) : Option (Node H) → List (Visit H)
  | none => []
  | some c => c.visits depth

end

theorem visitsList_eq (depth : Nat) (cs : List (Node H)) :
    visitsList depth cs = cs.flatMap (·.visits depth) := by
  induction cs with
  | nil => simp [visitsList]
  | cons c cs ih => simp [visitsList, ih]

theorem visitsPlace_eq (depth : Nat) (place : Option (Node H)) :
    visitsPlace depth place = place.toList.flatMap (·.visits depth) := by
  cases place <;> simp [visitsPlace]

/-- **A node is visited before its children, and these one by one.** -/
theorem visits_eq (depth : Nat) (n : Node H) :
    n.visits depth = ⟨depth, n⟩ :: n.children.flatMap (·.visits (depth + 1)) := by
  cases n
  simp [visits, children, visitsList_eq, visitsPlace_eq]

end Node

namespace Tree

variable {H : Type}

/-- **The routes of a tree with their verbs.** -/
def walk (t : Tree H) : List (Verb × Route H) :=
  (t.root.visits 0).flatMap (·.node.ownRoutes)

/-- The first route for a method with exactly this template. -/
def routeOf? (t : Tree H) (m : Method) (template : Text) : Option (Route H) :=
  (t.walk.find? fun p => m.verb? = some p.1 && p.2.template = template).map (·.2)

end Tree

end RouteTree
