/-
**A node is known by its path.**

The children of a node in order can be told apart by the first character behind the node's path:
literal children differ in it from each other, and a placeholder begins with its marker.  So a text
leads down a tree on one way at most, and two ways that spell the same beginning have it in common.
No two nodes have the same path, and no two routes for one verb have the same template.

Main results:

* `Segment.Proper.rank_eq` — what a segment begins with says of which kind it is;
* `Node.Regular.branch_unique` — one character tells the children apart;
* `Node.reach_of_spelled_append` — **a way that spells the beginning of another one is a beginning
  of it**;
* `Node.reach_unique`, `Node.eq_of_path_eq` — a text leads to one node, and a path has one;
* `Node.holds_unique` — a verb and a template have one route.
-/
import Mathlib.Data.List.Nodup
import RouteTree.Proofs.Matching
import RouteTree.Proofs.Reach

set_option autoImplicit false
set_option relaxedAutoImplicit false

namespace RouteTree

/-! ### First characters -/

/-- What a segment begins with says of which kind it is. -/
theorem Segment.Proper.rank_eq {s : Segment} (h : s.Proper) :
    s.rank = if s.text.head? = some ':' then 1 else if s.text.head? = some '*' then 2 else 0 := by
  cases h with
  | @literal run nonempty plain =>
      obtain ⟨c, run, rfl⟩ := List.exists_cons_of_ne_nil nonempty
      have hc := plain c List.mem_cons_self
      have hcolon : c ≠ ':' := by
        rintro rfl
        cases hc
      have hstar : c ≠ '*' := by
        rintro rfl
        cases hc
      simp [text, rank, hcolon, hstar]
  | param _ _ => rfl
  | wildcard _ _ => rfl

namespace Node

variable {H : Type}

/-- **One character tells the children of a node apart.** -/
theorem Regular.branch_unique {n : Node H} (hn : n.Regular) {s s' : Segment} {c c' : Node H}
    (first : n.Branch s c) (second : n.Branch s' c') (head : s.text.head? = s'.text.head?) :
    s = s' ∧ c = c' := by
  have hrank : s.rank = s'.rank := by
    rw [(hn.proper first).rank_eq, (hn.proper second).rank_eq, head]
  -- of each kind but the literal ones, a node has one child at most
  cases first with
  | literal h =>
      cases second with
      | literal h' =>
          obtain rfl := List.inj_on_of_nodup_map hn.apart h h' head
          exact ⟨rfl, rfl⟩
      | param h' => cases hrank
      | wildcard h' => cases hrank
  | param h =>
      cases second with
      | literal h' => cases hrank
      | param h' =>
          obtain rfl := Option.some.inj (h.symm.trans h')
          exact ⟨rfl, rfl⟩
      | wildcard h' => cases hrank
  | wildcard h =>
      cases second with
      | literal h' => cases hrank
      | param h' => cases hrank
      | wildcard h' =>
          obtain rfl := Option.some.inj (h.symm.trans h')
          exact ⟨rfl, rfl⟩

/-! ### Whole ways -/

/-- One way goes on where another one ends. -/
theorem Reach.append {n d e : Node H} {segs more : List Segment} (h : n.Reach segs d)
    (h' : d.Reach more e) : n.Reach (segs ++ more) e := by
  induction h with
  | here => exact h'
  | step first _ ih => exact .step first (ih h')

/-- A step goes on where a way ends. -/
theorem Reach.concat {n d e : Node H} {segs : List Segment} {s : Segment} (h : n.Reach segs d)
    (last : d.Branch s e) : n.Reach (segs ++ [s]) e := h.append (.step last (.here e))

theorem spelled_ne_nil_of_step {n c d : Node H} {s : Segment} {segs : List Segment} (hn : n.Valid)
    (first : n.Branch s c) (_rest : c.Reach segs d) : Template.spelled (s :: segs) ≠ [] := by
  intro h
  exact (hn.regular.proper first).ne_nil (List.append_eq_nil_iff.1 h).1

/-- A way that spells nothing goes nowhere. -/
theorem eq_of_spelled_nil {n d : Node H} {segs : List Segment} (hn : n.Valid)
    (h : n.Reach segs d) (hnil : Template.spelled segs = []) : segs = [] ∧ d = n := by
  cases h with
  | here => exact ⟨rfl, rfl⟩
  | step first rest => exact absurd hnil (spelled_ne_nil_of_step hn first rest)

/-- **A way that spells the beginning of another one is a beginning of it.** -/
theorem reach_of_spelled_append {n d d' : Node H} {segs segs' : List Segment} {more : Text}
    (hn : n.Valid) (h : n.Reach segs d) (h' : n.Reach segs' d')
    (heq : Template.spelled segs' = Template.spelled segs ++ more) :
    ∃ rest, segs' = segs ++ rest ∧ d.Reach rest d' ∧ Template.spelled rest = more := by
  induction h generalizing segs' with
  | here => exact ⟨segs', rfl, h', heq⟩
  | @step n c d s segs first rest ih =>
      have hs := (hn.regular.proper first).ne_nil
      cases h' with
      | here =>
          have hnil := (List.append_eq_nil_iff.1 heq.symm).1
          exact absurd hnil (spelled_ne_nil_of_step hn first rest)
      | @step _ c' _ s' segs' first' rest' =>
          have hs' := (hn.regular.proper first').ne_nil
          -- both texts begin with the first segment of their ways
          have head : s.text.head? = s'.text.head? := by
            have h := congrArg List.head? heq
            rw [Template.spelled_cons, Template.spelled_cons, List.append_assoc,
              List.head?_append_of_ne_nil _ hs, List.head?_append_of_ne_nil _ hs'] at h
            exact h.symm
          obtain ⟨rfl, rfl⟩ := hn.regular.branch_unique first first' head
          rw [Template.spelled_cons, Template.spelled_cons, List.append_assoc,
            List.append_cancel_left_eq] at heq
          obtain ⟨rest, rfl, hreach, hspelled⟩ := ih (hn.branch first) rest' heq
          exact ⟨rest, rfl, hreach, hspelled⟩

/-- A text leads down a tree on one way. -/
theorem reach_unique {n d d' : Node H} {segs segs' : List Segment} (hn : n.Valid)
    (h : n.Reach segs d) (h' : n.Reach segs' d')
    (heq : Template.spelled segs = Template.spelled segs') : segs = segs' ∧ d = d' := by
  obtain ⟨rest, rfl, hreach, hspelled⟩ :=
    reach_of_spelled_append hn h h' (heq.symm.trans (List.append_nil _).symm)
  have hd : d.Valid := fun more e hmore => hn _ e (h.append hmore)
  obtain ⟨rfl, rfl⟩ := eq_of_spelled_nil hd hreach hspelled
  exact ⟨(List.append_nil _).symm, rfl⟩

/-- **No two nodes of a tree have the same path.** -/
theorem eq_of_path_eq {n d d' : Node H} {segs segs' : List Segment} (hn : n.Valid)
    (h : n.Reach segs d) (h' : n.Reach segs' d') (heq : d.path = d'.path) :
    segs = segs' ∧ d = d' := by
  refine reach_unique hn h h' ?_
  rw [(path_of_reach hn h).1, (path_of_reach hn h').1, List.append_cancel_left_eq] at heq
  exact heq

/-- A verb and a template have one route. -/
theorem holds_unique {n : Node H} (hn : n.Valid) {v : Verb} {r r' : Route H} (h : n.Holds v r)
    (h' : n.Holds v r') (heq : r.template = r'.template) : r = r' := by
  obtain ⟨segs, d, hreach, hd⟩ := h
  obtain ⟨segs', d', hreach', hd'⟩ := h'
  rw [((hn segs d hreach).own hd).1, ((hn segs' d' hreach').own hd').1] at heq
  obtain ⟨_, rfl⟩ := eq_of_path_eq hn hreach hreach' heq
  exact Option.some.inj (hd.symm.trans hd')

end Node

end RouteTree
