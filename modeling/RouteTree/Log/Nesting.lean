/-
**How deep the parts of a pattern are nested.**

A character or a place has depth zero.  A sign for repetition, a group, a class in brackets, parts
in a row, alternatives and combined classes are one level around what they hold.

Main definitions:

* `Nesting` — parts side by side, with `Nesting.push` and `Nesting.depth`;
* `Alternatives` — alternatives, each of them parts in a row;
* `Combination` — members of a class, and what they are combined with.
-/
import RouteTree.Text.Basic

set_option autoImplicit false
set_option relaxedAutoImplicit false

namespace RouteTree

/-! ### Parts side by side -/

/-- Parts that stand side by side: how many they are, and how deep they are. -/
structure Nesting where
  count : Nat
  /-- The depth of the last part. -/
  last : Nat
  /-- The depth of the deepest part before it. -/
  earlier : Nat
  deriving DecidableEq, Repr

namespace Nesting

/-- Some parts of depth zero. -/
def flat (count : Nat) : Nesting := ⟨count, 0, 0⟩

/-- One more part. -/
def push (n : Nesting) (depth : Nat) : Nesting := ⟨n.count + 1, depth, max n.earlier n.last⟩

/-- A level around the last part. -/
def wrapLast (n : Nesting) : Nesting := { n with last := n.last + 1 }

/-- The depth of all parts together.  Several parts are a level around each of them. -/
def depth (n : Nesting) : Nat := max n.earlier n.last + if n.count ≤ 1 then 0 else 1

end Nesting

/-! ### Alternatives -/

/-- Alternatives: those that have ended, and the parts of the last one. -/
structure Alternatives where
  ended : Nesting
  parts : Nesting
  deriving DecidableEq, Repr

namespace Alternatives

/-- A single alternative without parts. -/
def empty : Alternatives := ⟨.flat 0, .flat 0⟩

/-- One more part of the last alternative. -/
def push (a : Alternatives) (depth : Nat) : Alternatives := { a with parts := a.parts.push depth }

/-- A level around the last part. -/
def wrapLast (a : Alternatives) : Alternatives := { a with parts := a.parts.wrapLast }

/-- Begin one more alternative. -/
def next (a : Alternatives) : Alternatives := ⟨a.ended.push a.parts.depth, .flat 0⟩

/-- The depth of all alternatives together. -/
def depth (a : Alternatives) : Nat := (a.ended.push a.parts.depth).depth

end Alternatives

/-! ### Combined classes -/

/-- The last members of a class, and the depth of what they are combined with. -/
structure Combination where
  before : Option Nat
  members : Nesting
  deriving DecidableEq, Repr

namespace Combination

/-- A class with some plain members. -/
def flat (count : Nat) : Combination := ⟨none, .flat count⟩

/-- One more member. -/
def push (c : Combination) (depth : Nat) : Combination :=
  { c with members := c.members.push depth }

/-- The depth of a class inside of its brackets. -/
def depth (c : Combination) : Nat :=
  match c.before with
  | none => c.members.depth
  | some before => max before c.members.depth + 1

/-- Combine all that stands there with further members. -/
def next (c : Combination) : Combination := ⟨some c.depth, .flat 0⟩

end Combination

end RouteTree
