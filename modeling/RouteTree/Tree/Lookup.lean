/-
**Looking a request up.**

A request path is followed from the root.  At every node the literal children are tried first,
then the parameter, then the wildcard.  The first route that is met wins; a branch without one is
left again, and that is all the backtracking there is.  Values are captured in a buffer that the
caller hands in: the value of a placeholder goes to its own place, and a place that the buffer
does not have is passed over.

A path that leads to no route may still lead to one when a slash is added to its end, or taken
away from it.  Such chances are noted on the way, and reported when no route is met.

Main definitions:

* `Lookup` — a route, or the news whether the other spelling has one;
* `Node.lookup` — following the rest of a path below a node;
* `Tree.find` — looking a path up in a tree.
-/
import RouteTree.Tree.Basic

set_option autoImplicit false
set_option relaxedAutoImplicit false

namespace RouteTree

/-! ### Answers -/

/-- What following a path leads to. -/
inductive Lookup (H : Type) where
  /-- A route. -/
  | hit (route : Route H)
  /-- No route; `toggled` says that a slash more or less at the end may give one. -/
  | miss (toggled : Bool)

/-- Values in the places of placeholders. -/
abbrev Values := List Text

/-- Fall back to another branch after a miss, and keep what the miss had noted. -/
def Lookup.orElse {H : Type} (first : Lookup H × Values) (next : Values → Lookup H × Values) :
    Lookup H × Values :=
  match first with
  | (.hit r, values) => (.hit r, values)
  | (.miss noted, values) =>
      match next values with
      | (.hit r, values) => (.hit r, values)
      | (.miss toggled, values) => (.miss (noted || toggled), values)

namespace Node

variable {H : Type}

/-! ### The end of a path -/

/-- The route for a path that ends at a node: its own, or that of its wildcard, which then
captures nothing. -/
def endRoute? (n : Node H) (m : Method) : Option (Route H) :=
  n.route? m <|> n.wildcard.bind (·.route? m)

/-- Whether a path that ends at a node has a route. -/
def routesAtEnd (n : Node H) (m : Method) : Bool := (n.endRoute? m).isSome

/-- Whether a path that ends at a node has a route once a slash is added. -/
def routesAfterSlash (n : Node H) (m : Method) : Bool :=
  n.literals.any fun c => c.text = ['/'] && c.routesAtEnd m

/-- The values after a path has ended at a node. -/
def endValues (n : Node H) (m : Method) (values : Values) : Values :=
  match n.route? m, n.wildcard with
  | none, some w => if (w.route? m).isSome then values.set w.slot [] else values
  | _, _ => values

/-- The answer for a path that ends at a node. -/
def lookupEnd (n : Node H) (m : Method) (values : Values) : Lookup H × Values :=
  match n.endRoute? m with
  | some r => (.hit r, n.endValues m values)
  | none => (.miss (n.routesAfterSlash m), values)

/-! ### The way of a path -/

/-- The answer for a rest of the path that the wildcard of a node takes. -/
def lookupWildcard (m : Method) (wildcard : Option (Node H)) (rest : Text) (values : Values) :
    Lookup H × Values :=
  match wildcard with
  | none => (.miss false, values)
  | some w =>
      match w.route? m with
      | some r => (.hit r, values.set w.slot rest)
      | none => (.miss false, values)

mutual

/-- **Follow the rest of a path below a node.**  The rest is not empty.  A lone slash that the
node itself could do without is noted as a chance. -/
def lookup (m : Method) : Node H → Text → Values → Lookup H × Values
  | n@⟨_, _, _, _, literals, param, wildcard⟩, rest, values =>
      Lookup.orElse (.miss (rest = ['/'] && (n.route? m).isSome), values) fun values =>
        Lookup.orElse (lookupLiteral m literals rest values) fun values =>
          Lookup.orElse (lookupParam m param rest values) fun values =>
            lookupWildcard m wildcard rest values

/-- Follow the rest of a path through the literal child that it begins with.  A child that lacks
nothing but the slash at its end is a chance. -/
def lookupLiteral (m : Method) : List (Node H) → Text → Values → Lookup H × Values
  | [], _, values => (.miss false, values)
  | c :: cs, rest, values =>
      match Text.after? c.text rest with
      | some [] => c.lookupEnd m values
      | some (x :: more) => c.lookup m (x :: more) values
      | none =>
          if c.text = rest ++ ['/'] then (.miss (c.routesAtEnd m), values)
          else lookupLiteral m cs rest values

/-- Follow the rest of a path through the parameter, which captures all up to the next slash, and
at least one character. -/
def lookupParam (m : Method) : Option (Node H) → Text → Values → Lookup H × Values
  | none, _, values => (.miss false, values)
  | some c, rest, values =>
      match rest.takeWhile Template.isWithin, rest.dropWhile Template.isWithin with
      | [], _ => (.miss false, values)
      | x :: value, [] => c.lookupEnd m (values.set c.slot (x :: value))
      | x :: value, y :: more => c.lookup m (y :: more) (values.set c.slot (x :: value))

end

end Node

/-! ### Looking up in a tree -/

/-- The answer of a look-up: the route if there is one, whether the path with its trailing slash
toggled has one instead, and the buffer afterwards. -/
structure Found (H : Type) where
  route : Option (Route H)
  toggled : Bool
  values : Values

namespace Tree

variable {H : Type}

/-- **Look a path up for a method.** -/
def find (t : Tree H) (m : Method) (path : Text) (values : Values) : Found H :=
  if path = [] then ⟨none, false, values⟩
  else
    match t.root.lookup m path values with
    | (.hit r, values) => ⟨some r, false, values⟩
    | (.miss toggled, values) => ⟨none, toggled, values⟩

/-- A buffer that has a place for every value of every route. -/
def buffer (t : Tree H) : Values := List.replicate t.maxParams []

/-- The empty path has no route. -/
@[simp] theorem find_nil (t : Tree H) (m : Method) (values : Values) :
    t.find m [] values = ⟨none, false, values⟩ := rfl

end Tree

end RouteTree
