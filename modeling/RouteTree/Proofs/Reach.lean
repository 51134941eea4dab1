/-
**Ways through a tree, and trees in order.**

A node branches into its children, each behind one segment.  The segments along a way from a node
to one below it spell what the paths of the two differ by, if the tree is *in order*: texts,
paths and parameter names fit together everywhere, children can be told apart by their first
character, and the routes of a node carry its path as their template.

Main definitions:

* `Node.Branch`, `Node.Reach` — one step down, and a whole way down;
* `Node.Holds` — a route is somewhere at or below a node;
* `Node.Regular`, `Node.Valid` — a node fits to its children; all nodes at and below it do.

Main results:

* `Node.induction` — induction from the children to their parent;
* `Node.valid_iff` — a valid node is a regular one with valid children;
* `Node.linked_of_reach`, `Node.path_of_reach` — the segments along a way are linked, and lead
  from path to path;
* `Node.template_of_holds` — routes below a node have templates that begin with its path.
-/
import RouteTree.Proofs.Cut
import RouteTree.Tree.Node

set_option autoImplicit false
set_option relaxedAutoImplicit false

namespace RouteTree

namespace Node

variable {H : Type}

/-! ### Ways down -/

/-- A child, and the segment that leads to it. -/
inductive Branch (n : Node H) : Segment → Node H → Prop
  | literal {c : Node H} (h : c ∈ n.literals) : Branch n (.literal c.text) c
  | param {c : Node H} (h : n.param = some c) : Branch n (.param c.text) c
  | wildcard {c : Node H} (h : n.wildcard = some c) : Branch n (.wildcard c.text) c

/-- A way from a node to one at or below it, and the segments along the way. -/
inductive Reach : Node H → List Segment → Node H → Prop
  | here (n : Node H) : Reach n [] n
  | step {n c d : Node H} {s : Segment} {segs : List Segment} (first : n.Branch s c)
      (rest : Reach c segs d) : Reach n (s :: segs) d

/-- **A route is registered for a verb somewhere at or below a node.** -/
def Holds (n : Node H) (v : Verb) (r : Route H) : Prop :=
  ∃ segs d, n.Reach segs d ∧ d.routes v = some r

/-- **Induction from the children of a node, of whatever kind, to the node.** -/
@[elab_as_elim]
theorem induction {motive : Node H → Prop}
    (step : ∀ n : Node H, (∀ s c, n.Branch s c → motive c) → motive n) (n : Node H) :
    motive n := by
  refine @Node.rec H motive (fun cs => ∀ c ∈ cs, motive c) (fun place => ∀ c ∈ place, motive c)
    ?_ ?_ ?_ ?_ ?_ n
  · intro text path params routes literals param wildcard hl hp hw
    refine step _ fun s c h => ?_
    cases h with
    | literal h => exact hl c h
    | param h => exact hp c h
    | wildcard h => exact hw c h
  · intro c hc
    cases hc
  · intro c cs hc hcs
    exact List.forall_mem_cons.2 ⟨hc, hcs⟩
  · intro c hc
    cases hc
  · intro c hc d hd
    cases hd
    exact hc

theorem reach_nil_iff {n d : Node H} : n.Reach [] d ↔ d = n := by
  constructor
  · intro h; cases h; rfl
  · rintro rfl; exact .here d

/-- A route is held by a node itself or by one of its children. -/
theorem holds_iff {n : Node H} {v : Verb} {r : Route H} :
    n.Holds v r ↔ n.routes v = some r ∨ ∃ s c, n.Branch s c ∧ c.Holds v r := by
  constructor
  · rintro ⟨segs, d, hreach, hd⟩
    cases hreach with
    | here => exact Or.inl hd
    | step first rest => exact Or.inr ⟨_, _, first, _, _, rest, hd⟩
  · rintro (h | ⟨s, c, first, segs, d, rest, hd⟩)
    · exact ⟨[], n, .here n, h⟩
    · exact ⟨s :: segs, d, .step first rest, hd⟩

/-! ### Trees in order -/

/-- A node fits to its children and its routes. -/
structure Regular (n : Node H) : Prop where
  /-- Each child stands behind a segment that a template can have. -/
  proper : ∀ {s c}, n.Branch s c → s.Proper
  /-- The path of a child is continued by its text. -/
  path : ∀ {s c}, n.Branch s c → c.path = n.path ++ s.text
  /-- The parameters of a child are continued by its own name, if it is a placeholder. -/
  params : ∀ {s c}, n.Branch s c → c.params = n.params ++ s.name?.toList
  /-- A parameter is followed by slashes only, and a wildcard by nothing. -/
  follows : ∀ {s c s' d}, n.Branch s c → c.Branch s' d → s.CanPrecede s'
  /-- Literal children differ in their first characters. -/
  apart : (n.literals.map fun c => c.text.head?).Nodup
  /-- The routes of a node are for the node's path and have its parameters. -/
  own : ∀ {v r}, n.routes v = some r → r.template = n.path ∧ r.params = n.params

/-- **A node from which only regular nodes are reached.** -/
def Valid (n : Node H) : Prop := ∀ segs d, n.Reach segs d → d.Regular

/-- A valid node is a regular one with valid children. -/
theorem valid_iff {n : Node H} : n.Valid ↔ n.Regular ∧ ∀ s c, n.Branch s c → c.Valid := by
  constructor
  · intro h
    exact ⟨h [] n (.here n), fun s c first segs d rest => h (s :: segs) d (.step first rest)⟩
  · rintro ⟨hn, hc⟩ segs d hreach
    cases hreach with
    | here => exact hn
    | step first rest => exact hc _ _ first _ _ rest

theorem Valid.regular {n : Node H} (h : n.Valid) : n.Regular := (valid_iff.1 h).1

theorem Valid.branch {n c : Node H} {s : Segment} (h : n.Valid) (first : n.Branch s c) :
    c.Valid := (valid_iff.1 h).2 s c first

/-- A literal child has the names of its parent. -/
theorem Regular.params_literal {n c : Node H} (hn : n.Regular) (hc : c ∈ n.literals) :
    c.params = n.params := by
  simpa [Segment.name?] using hn.params (.literal hc)

/-- The segments along a way are linked. -/
theorem linked_of_reach {n d : Node H} {segs : List Segment} (hn : n.Valid)
    (h : n.Reach segs d) : Template.Linked segs := by
  induction h with
  | here => exact Template.linked_nil
  | step first rest ih =>
      refine Template.linked_cons.2 ⟨hn.regular.proper first, ?_, ih (hn.branch first)⟩
      cases rest with
      | here => simp
      | step second _ =>
          intro s' hs'
          obtain rfl := Option.some.inj hs'
          exact hn.regular.follows first second

/-- The segments along a way lead from path to path, and from names to names. -/
theorem path_of_reach {n d : Node H} {segs : List Segment} (hn : n.Valid)
    (h : n.Reach segs d) :
    d.path = n.path ++ Template.spelled segs ∧
      d.params = n.params ++ Template.paramNames segs := by
  induction h with
  | here => simp
  | step first rest ih =>
      obtain ⟨hpath, hparams⟩ := ih (hn.branch first)
      rw [hpath, hparams, hn.regular.path first, hn.regular.params first]
      simp

/-- Routes below a node have templates that begin with its path. -/
theorem template_of_holds {n : Node H} (hn : n.Valid) {v : Verb} {r : Route H}
    (h : n.Holds v r) : ∃ more, r.template = n.path ++ more := by
  obtain ⟨segs, d, hreach, hd⟩ := h
  exact ⟨Template.spelled segs,
    ((hn segs d hreach).own hd).1.trans (path_of_reach hn hreach).1⟩

end Node

end RouteTree
