/-
**Route trees and registration.**

A tree is filled first and asked afterwards; sealing it ends the filling.  A route is registered
under a template for some of the nine verbs at once, and either for all of them or for none.

Main definitions:

* `Tree` — the root node with the counts that are kept beside it;
* `Tree.add`, `Tree.addAny`, `Tree.sealed` — the three operations of the filling;
* `Registration` — what one call of `add` leaves behind;
* `Call`, `Tree.run` — calls as data, and the tree that a history of calls leaves.

Main results:

* `Tree.add_of_sealed` — a sealed tree takes nothing.
-/
import RouteTree.Tree.Insertion

set_option autoImplicit false
set_option relaxedAutoImplicit false

namespace RouteTree

/-! ### Registering at a node -/

/-- A verb that is taken, and the template it is taken by. -/
structure Occupied where
  verb : Verb
  existing : Text
  deriving DecidableEq, Repr

namespace Node

variable {H : Type}

/-- The first of some verbs that a node has a route for. -/
def occupied? (n : Node H) (verbs : List Verb) : Option Occupied :=
  verbs.findSome? fun v => (n.routes v).map fun r => ⟨v, r.template⟩

/-- Give a node a route for each of some verbs, unless one of them is taken.  The answer is the
number of parameters of the new routes. -/
def register (template : Text) (handler : H) (verbs : List Verb) (n : Node H) :
    Node H × Except Occupied Nat :=
  match n.occupied? verbs with
  | some o => (n, .error o)
  | none =>
      let routes : Slots H := fun v =>
        if v ∈ verbs then some ⟨template, n.params, handler⟩ else n.routes v
      ({ n with routes }, .ok n.params.length)

end Node

/-! ### Trees -/

/-- A tree of routes. -/
structure Tree (H : Type) where
  /-- The node of the empty beginning, with all others below it. -/
  root : Node H
  /-- The number of pairs of a verb and a template that are registered. -/
  size : Nat
  /-- The largest number of parameters that a registered route has. -/
  maxParams : Nat
  /-- Whether the tree takes no more routes. -/
  isSealed : Bool

/-- What one registration leaves behind. -/
structure Registration (H : Type) where
  tree : Tree H
  outcome : Except RouteError Unit
  events : List Event

namespace Tree

variable {H : Type}

/-- A tree without routes. -/
def empty : Tree H := ⟨.emptyRoot, 0, 0, false⟩

/-- Whether no route is registered. -/
def isEmpty (t : Tree H) : Bool := t.size = 0

/-- End the filling. -/
def sealed (t : Tree H) : Tree H := { t with isSealed := true }

/-! ### Registration -/

/-- The verbs that some methods ask for, in the order of the verbs and each once. -/
def requestedVerbs (methods : List Method) : List Verb :=
  Verb.all.filter fun v => methods.any fun m => m.verb? = some v

/-- Bring a template into the tree and register a handler at its node. -/
def place (t : Tree H) (template : Text) (handler : H) (verbs : List Verb) : Registration H :=
  match Template.segments template with
  | .error e => ⟨t, .error e, [.templateRejected template e]⟩
  | .ok segs =>
      let i := t.root.insert template (Node.register template handler verbs) segs
      match i.outcome with
      | .error e =>
          ⟨{ t with root := i.result }, .error e, i.events ++ [.templateRejected template e]⟩
      | .ok (.error o) =>
          ⟨{ t with root := i.result }, .error (.routeConflict o.existing template),
            i.events ++ [.verbRejected o.verb template o.existing]⟩
      | .ok (.ok params) =>
          ⟨{ t with
              root := i.result
              size := t.size + verbs.length
              maxParams := if verbs = [] then t.maxParams else max t.maxParams params },
            .ok (),
            i.events ++ verbs.map (.routeRegistered · template params)⟩

/-- **Register a handler under a template for some methods.**  Without methods the template is
checked and brought into the tree, but nothing is routed to it. -/
def add (t : Tree H) (template : Text) (handler : H) (methods : List Method) : Registration H :=
  if t.isSealed then ⟨t, .error (.sealedTree template), []⟩
  else if template.head? ≠ some '/' then ⟨t, .error (.invalidPath template), []⟩
  else match methods.find? (·.verb?.isNone) with
    | some m => ⟨t, .error (.unsupportedMethod m.name), []⟩
    | none => t.place template handler (requestedVerbs methods)

/-- Register a handler under a template for all nine verbs. -/
def addAny (t : Tree H) (template : Text) (handler : H) : Registration H :=
  t.add template handler (Verb.all.map Verb.method)

/-- A sealed tree takes nothing. -/
theorem add_of_sealed {t : Tree H} (h : t.isSealed = true) (template : Text) (handler : H)
    (methods : List Method) :
    t.add template handler methods = ⟨t, .error (.sealedTree template), []⟩ := by
  simp [add, h]

@[simp] theorem isSealed_sealed (t : Tree H) : t.sealed.isSealed = true := rfl

@[simp] theorem root_sealed (t : Tree H) : t.sealed.root = t.root := rfl

end Tree

/-! ### Histories -/

/-- A call that fills a tree. -/
inductive Call (H : Type) where
  | add (template : Text) (handler : H) (methods : List Method)
  | addAny (template : Text) (handler : H)
  | sealing

namespace Tree

variable {H : Type}

/-- What a call leaves behind.  Sealing always succeeds and reports nothing. -/
def serve (t : Tree H) : Call H → Registration H
  | .add template handler methods => t.add template handler methods
  | .addAny template handler => t.addAny template handler
  | .sealing => ⟨t.sealed, .ok (), []⟩

/-- **The tree that a history of calls leaves**, failed calls included. -/
def run (t : Tree H) (calls : List (Call H)) : Tree H :=
  calls.foldl (fun t call => (t.serve call).tree) t

@[simp] theorem run_nil (t : Tree H) : t.run [] = t := rfl

@[simp] theorem run_cons (t : Tree H) (call : Call H) (calls : List (Call H)) :
    t.run (call :: calls) = (t.serve call).tree.run calls := rfl

theorem run_append (t : Tree H) (before later : List (Call H)) :
    t.run (before ++ later) = (t.run before).run later := by
  simp [run, List.foldl_append]

end Tree

end RouteTree
