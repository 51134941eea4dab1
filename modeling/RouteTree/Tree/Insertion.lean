/-
**Bringing a template into a tree.**

To bring the segments of a template into a tree is to follow them from the root as far as nodes
for them exist, and to grow a fresh branch from there.  A literal run that leaves an existing
literal child half way splits it first.  At the node that the last segment leads to, a *visit* is
made: it may change that node, and gives the answer.

The way can be barred in one manner only.  Each node has one place for a parameter and one for a
wildcard, and the place may be taken by a placeholder with another name.

Main definitions:

* `Insertion` — what an attempt leaves behind: what has been rebuilt, the answer or the conflict,
  and the events on the way, which are splits here;
* `Node.grow` — a fresh branch;
* `Node.insert` — the whole way.

Main results:

* `Node.insert_nil`, `Node.insert_literal`, `Node.insert_param`, `Node.insert_wildcard` — where
  the first segment leads.
-/
import RouteTree.Tree.Node
import RouteTree.Event

set_option autoImplicit false
set_option relaxedAutoImplicit false

namespace RouteTree

/-! ### What an attempt leaves behind -/

/-- What has been rebuilt, the answer or the conflict that barred the way, and the events on the
way. -/
structure Insertion (β α : Type) where
  result : β
  outcome : Except RouteError α
  events : List Event

/-- Put the rebuilt part into its surroundings. -/
def Insertion.map {β γ α : Type} (f : β → γ) (i : Insertion β α) : Insertion γ α :=
  { i with result := f i.result }

/-- The way was free, and the visit gave a node and an answer. -/
def Insertion.arrived {β α : Type} (visited : β × α) : Insertion β α :=
  ⟨visited.1, .ok visited.2, []⟩

namespace Node

variable {H α : Type}

/-! ### Growing -/

/-- Grow a fresh branch for some segments, and visit its last node. -/
def grow (visit : Node H → Node H × α) : Node H → List Segment → Node H × α
  | n, [] => visit n
  | n, s :: rest =>
      let (c, answer) := grow visit (n.child s) rest
      (n.attach s c, answer)

/-! ### Inserting -/

mutual

/-- **Follow some segments below a node, grow what is missing, and visit the node they lead to.**
The template as a whole is named in a conflict. -/
def insert (template : Text) (visit : Node H → Node H × α) :
    Node H → List Segment → Insertion (Node H) α
  | n, [] => .arrived (visit n)
  | n@⟨_, _, _, _, literals, _, _⟩, .literal run :: rest =>
      (insertLiteral template visit n literals run rest).map ({ n with literals := · })
  | n@⟨_, _, _, _, _, param, _⟩, .param name :: rest =>
      (insertPlaced template visit n (.param name) param rest).map ({ n with param := · })
  | n@⟨_, _, _, _, _, _, wildcard⟩, .wildcard name :: rest =>
      (insertPlaced template visit n (.wildcard name) wildcard rest).map ({ n with wildcard := · })

/-- Follow a literal run, and then further segments, among the literal children of `parent`.
Children differ in their first character, so at most one of them can take part of the run. -/
def insertLiteral (template : Text) (visit : Node H → Node H × α) (parent : Node H) :
    List (Node H) → Text → List Segment → Insertion (List (Node H)) α
  | [], run, rest =>
      let (c, answer) := grow visit (parent.child (.literal run)) rest
      .arrived ([c], answer)
  | c :: cs, run, rest =>
      match Text.fork c.text run with
      | ⟨[], _, _⟩ => (insertLiteral template visit parent cs run rest).map (c :: ·)
      | ⟨_ :: _, [], more⟩ =>
          (c.insert template visit (Segment.literalThen more rest)).map (· :: cs)
      | ⟨x :: keep, y :: tail, more⟩ =>
          let (c', answer) :=
            grow visit (c.split (x :: keep).length) (Segment.literalThen more rest)
          ⟨c' :: cs, .ok answer, [.nodeSplit c.path (x :: keep) (y :: tail)]⟩

/-- Follow a placeholder, and then further segments, through the place that `parent` has for it. -/
def insertPlaced (template : Text) (visit : Node H → Node H × α) (parent : Node H) (s : Segment) :
    Option (Node H) → List Segment → Insertion (Option (Node H)) α
  | none, rest =>
      let (c, answer) := grow visit (parent.child s) rest
      .arrived (some c, answer)
  | some c, rest =>
      if c.text = s.text then (c.insert template visit rest).map some
      else ⟨some c, .error (.routeConflict c.path template), []⟩

end

/-! ### The way of one segment -/

/-- No segments lead to the node itself. -/
theorem insert_nil (template : Text) (visit : Node H → Node H × α) (n : Node H) :
    n.insert template visit [] = .arrived (visit n) := by
  cases n; simp only [insert]

/-- A literal run leads among the literal children. -/
theorem insert_literal (template : Text) (visit : Node H → Node H × α) (n : Node H) (run : Text)
    (rest : List Segment) :
    n.insert template visit (.literal run :: rest) =
      (insertLiteral template visit n n.literals run rest).map ({ n with literals := · }) := by
  cases n; simp only [insert]

/-- A `:name` placeholder leads to the place for the parameter. -/
theorem insert_param (template : Text) (visit : Node H → Node H × α) (n : Node H) (name : Text)
    (rest : List Segment) :
    n.insert template visit (.param name :: rest) =
      (insertPlaced template visit n (.param name) n.param rest).map ({ n with param := · }) := by
  cases n; simp only [insert]

/-- A `*name` placeholder leads to the place for the wildcard. -/
theorem insert_wildcard (template : Text) (visit : Node H → Node H × α) (n : Node H) (name : Text)
    (rest : List Segment) :
    n.insert template visit (.wildcard name :: rest) =
      (insertPlaced template visit n (.wildcard name) n.wildcard rest).map
        ({ n with wildcard := · }) := by
  cases n; simp only [insert]

end Node

end RouteTree
