/-
**What the walk through a tree lists.**

The walk comes by every node that a way leads to, and lists the routes of each.  So it lists what
the tree holds, and a tree that a history has left can be asked for the route that belongs to a
registration.

Main results:

* `Node.exists_visit_iff` — the nodes that a walk comes by are those that are reached;
* `Tree.mem_walk_iff` — **the walk lists what the tree holds**;
* `Tree.routeOf?_eq_some_iff` — **the route of a registration**.
-/
import RouteTree.Proofs.History
import RouteTree.Proofs.Paths
import RouteTree.Tree.Walk

set_option autoImplicit false
set_option relaxedAutoImplicit false

namespace RouteTree

variable {H : Type}

namespace Node

/-- The nodes that a walk comes by are those that are reached. -/
theorem exists_visit_iff {n d : Node H} {depth : Nat} :
    (∃ v ∈ n.visits depth, v.node = d) ↔ ∃ segs, n.Reach segs d := by
  induction n using Node.induction generalizing depth with
  | step n ih =>
      rw [visits_eq]
      constructor
      · rintro ⟨v, hv, rfl⟩
        rcases List.mem_cons.1 hv with rfl | hv
        · exact ⟨[], .here n⟩
        · obtain ⟨c, hc, hv⟩ := List.mem_flatMap.1 hv
          obtain ⟨s, first⟩ := mem_children.1 hc
          obtain ⟨segs, rest⟩ := (ih s c first).1 ⟨v, hv, rfl⟩
          exact ⟨s :: segs, .step first rest⟩
      · rintro ⟨segs, h⟩
        cases h with
        | here => exact ⟨⟨depth, d⟩, List.mem_cons_self, rfl⟩
        | @step _ c _ s segs first rest =>
            obtain ⟨v, hv, rfl⟩ := (@ih s c first (depth + 1)).2 ⟨segs, rest⟩
            have hmem := List.mem_flatMap.2 ⟨c, mem_children.2 ⟨s, first⟩, hv⟩
            exact ⟨v, List.mem_cons_of_mem _ hmem, rfl⟩

theorem mem_ownRoutes_iff {n : Node H} {v : Verb} {r : Route H} :
    (v, r) ∈ n.ownRoutes ↔ n.routes v = some r := by
  simp [ownRoutes, List.mem_filterMap, Verb.mem_all]

end Node

namespace Tree

/-- **The walk lists what the tree holds.** -/
theorem mem_walk_iff {t : Tree H} {v : Verb} {r : Route H} :
    (v, r) ∈ t.walk ↔ t.root.Holds v r := by
  rw [walk, List.mem_flatMap]
  constructor
  · rintro ⟨visit, hvisit, hroute⟩
    obtain ⟨segs, hreach⟩ := Node.exists_visit_iff.1 ⟨visit, hvisit, rfl⟩
    exact ⟨segs, visit.node, hreach, Node.mem_ownRoutes_iff.1 hroute⟩
  · rintro ⟨segs, d, hreach, hd⟩
    obtain ⟨visit, hvisit, rfl⟩ := Node.exists_visit_iff.2 ⟨segs, hreach⟩
    exact ⟨visit, hvisit, Node.mem_ownRoutes_iff.2 hd⟩

/-- Only templates that can be cut are registered. -/
theorem exists_segments_of_registered {calls : List (Call H)} {m : Method} {template : Text}
    {handler : H} (h : Registered calls m template handler) :
    ∃ segs, Template.segments template = .ok segs := by
  obtain ⟨before, call, after, rfl, hasks, hok⟩ := h
  rcases (empty.run before).serve_cases call with
    hrefused | rfl | ⟨_, _, _, _, _, hiff, _, segs, _, _, _, hcut, _⟩
  · obtain ⟨error, warnings, hg, _⟩ := hrefused
    rw [hg] at hok
    cases hok
  · exact hasks.elim
  · obtain ⟨rfl, _⟩ := (hiff _ _ _).1 hasks
    exact ⟨segs, hcut⟩

/-- The route that a sound tree has for a method and a template is the one that it holds. -/
theorem Sound.routeOf?_eq_some_iff {t : Tree H} (ht : t.Sound) {m : Method} {template : Text}
    {r : Route H} : t.routeOf? m template = some r ↔
      r.template = template ∧ ∃ v, m.verb? = some v ∧ t.root.Holds v r := by
  constructor
  · intro h
    obtain ⟨⟨v, r'⟩, hfind, rfl⟩ := Option.map_eq_some_iff.1 h
    have hmem := mem_walk_iff.1 (List.mem_of_find?_eq_some hfind)
    have hp := List.find?_some hfind
    simp only [Bool.and_eq_true, decide_eq_true_eq] at hp
    exact ⟨hp.2, v, hp.1, hmem⟩
  · rintro ⟨rfl, v, hverb, hholds⟩
    -- some route is listed for the verb and the template, and there is no second one
    have hmem := mem_walk_iff.2 hholds
    have hsome :
        (t.walk.find? fun p => m.verb? = some p.1 && p.2.template = r.template).isSome := by
      rw [List.find?_isSome]
      exact ⟨(v, r), hmem, by simp [hverb]⟩
    obtain ⟨⟨v', r'⟩, hfind⟩ := Option.isSome_iff_exists.1 hsome
    have hholds' := mem_walk_iff.1 (List.mem_of_find?_eq_some hfind)
    have hp := List.find?_some hfind
    simp only [Bool.and_eq_true, decide_eq_true_eq, hverb, Option.some.injEq] at hp
    obtain ⟨rfl, htemplate⟩ := hp
    rw [routeOf?, hfind, Option.map_some, Node.holds_unique ht.valid hholds' hholds htemplate]

/-- **The route of a registration**: the tree has one for a method and a template exactly when a
handler is registered for them, and it has the handler and the names of the template. -/
theorem routeOf?_eq_some_iff {calls : List (Call H)} {m : Method} {template : Text}
    {r : Route H} : (empty.run calls).routeOf? m template = some r ↔
      r.template = template ∧ Registered calls m template r.handler ∧
        ∃ segs, Template.segments template = .ok segs ∧
          r.params = Template.paramNames segs := by
  rw [(run_sound calls).routeOf?_eq_some_iff]
  constructor
  · rintro ⟨rfl, v, hverb, hholds⟩
    obtain ⟨hreg, hparams⟩ := holds_run_iff.1 hholds
    rw [Method.verb?_eq_some_iff.1 hverb]
    exact ⟨rfl, hreg, hparams⟩
  · rintro ⟨rfl, hreg, hparams⟩
    obtain ⟨v, rfl⟩ := exists_verb_of_registered hreg
    exact ⟨rfl, v, v.verb?_method, holds_run_iff.2 ⟨hreg, hparams⟩⟩

end Tree

end RouteTree
