/-
**What a history of calls registers, and the tree that it leaves.**

A history registers a handler for a method and a template when one of its calls asks for that and
succeeds.  The tree that the history leaves is in order, and it holds these routes and no others:
how its nodes were split and in which order they came does not matter for what is in it.

Main definitions:

* `Call.Asks`, `Registered` — what a call asks for, and what a history has registered;
* `Tree.Sound` — a tree in order, with room for the values of all its routes.

Main results:

* `Tree.run_sound` — **every history leaves a sound tree**;
* `Tree.holds_run_iff` — **the tree holds exactly what the history has registered**.
-/
import RouteTree.Proofs.Registration
import RouteTree.Proofs.Upkeep

set_option autoImplicit false
set_option relaxedAutoImplicit false

namespace RouteTree

variable {H : Type}

/-! ### What is asked for -/

/-- A call asks for a handler to be registered for a method under a template. -/
def Call.Asks : Call H → Method → Text → H → Prop
  | .add template handler methods, m, t, h => t = template ∧ h = handler ∧ m ∈ methods
  | .addAny template handler, m, t, h =>
      t = template ∧ h = handler ∧ m ∈ Verb.all.map Verb.method
  | .sealing, _, _, _ => False

/-- The template that a call is about. -/
def Call.template? : Call H → Option Text
  | .add template _ _ => some template
  | .addAny template _ => some template
  | .sealing => none

/-- **A history has registered a handler for a method under a template**: one of its calls asked
for it and succeeded on the tree that the calls before it had left. -/
def Registered (calls : List (Call H)) (m : Method) (template : Text) (handler : H) : Prop :=
  ∃ before call after, calls = before ++ call :: after ∧ call.Asks m template handler ∧
    ((Tree.empty.run before).serve call).outcome = .ok ()

theorem not_registered_nil {m : Method} {template : Text} {handler : H} :
    ¬ Registered [] m template handler := by
  rintro ⟨before, call, after, h, _⟩
  simp at h

/-- What has happened at some call of a history happened before the last call, or at it. -/
theorem exists_call_concat_iff {calls : List (Call H)} {last : Call H}
    {happened : List (Call H) → Call H → Prop} :
    (∃ before call after, calls ++ [last] = before ++ call :: after ∧ happened before call) ↔
      (∃ before call after, calls = before ++ call :: after ∧ happened before call) ∨
        happened calls last := by
  constructor
  · rintro ⟨before, call, after, h, hcall⟩
    rcases List.eq_nil_or_concat after with rfl | ⟨after, last', rfl⟩
    · obtain ⟨rfl, hlast⟩ := List.append_inj' h rfl
      obtain rfl := List.singleton_inj.1 hlast
      exact Or.inr hcall
    · have h' : calls ++ [last] = (before ++ call :: after) ++ [last'] := by simpa using h
      obtain ⟨rfl, _⟩ := List.append_inj' h' rfl
      exact Or.inl ⟨before, call, after, rfl, hcall⟩
  · rintro (⟨before, call, after, rfl, hcall⟩ | hcall)
    · exact ⟨before, call, after ++ [last], by simp, hcall⟩
    · exact ⟨calls, last, [], rfl, hcall⟩

/-- The last call adds what it asks for, if it succeeds. -/
theorem registered_concat {calls : List (Call H)} {call : Call H} {m : Method} {template : Text}
    {handler : H} :
    Registered (calls ++ [call]) m template handler ↔
      Registered calls m template handler ∨
        call.Asks m template handler ∧ ((Tree.empty.run calls).serve call).outcome = .ok () :=
  exists_call_concat_iff

theorem Method.verb?_eq_some_iff {m : Method} {v : Verb} : m.verb? = some v ↔ m = v.method := by
  rw [Method.verb?, Verb.ofName?_eq_some_iff]
  constructor
  · intro h
    exact Method.ext_name h
  · rintro rfl
    rfl

theorem mem_requestedVerbs {methods : List Method} {v : Verb} :
    v ∈ Tree.requestedVerbs methods ↔ v.method ∈ methods := by
  simp [Tree.requestedVerbs, Verb.mem_all, Method.verb?_eq_some_iff]

/-! ### Sound trees -/

/-- A tree in order: its root stands for the empty beginning and has no routes, all that follows
the root opens with a slash, and no route has more parameters than the tree knows of. -/
structure Tree.Sound (t : Tree H) : Prop where
  valid : t.root.Valid
  path : t.root.path = []
  params : t.root.params = []
  bare : t.root.routes = fun _ => none
  opens : ∀ s c, t.root.Branch s c → (Segment.param []).CanPrecede s
  room : ∀ v r, t.root.Holds v r → r.params.length ≤ t.maxParams

section Sound

variable {t : Tree H} {segs : List Segment} {d : Node H}

/-- The way to a node spells its path and has its names. -/
theorem Tree.Sound.path_of_reach (ht : t.Sound) (h : t.root.Reach segs d) :
    d.path = Template.spelled segs ∧ d.params = Template.paramNames segs := by
  simpa [ht.path, ht.params] using Node.path_of_reach ht.valid h

/-- The way to a route spells its template and has its parameters. -/
theorem Tree.Sound.template_of_reach (ht : t.Sound) (h : t.root.Reach segs d) {v : Verb}
    {r : Route H} (hr : d.routes v = some r) :
    r.template = Template.spelled segs ∧ r.params = Template.paramNames segs := by
  obtain ⟨htemplate, hparams⟩ := (ht.valid segs d h).own hr
  obtain ⟨hpath, hnames⟩ := ht.path_of_reach h
  exact ⟨htemplate.trans hpath, hparams.trans hnames⟩

end Sound

namespace Node

theorem keepsShape_register (template : Text) (handler : H) (verbs : List Verb) :
    KeepsShape (register template handler verbs) := by
  intro d
  unfold register
  split
  · cases d; rfl
  · rfl

/-- A node that takes routes has the old ones and the new ones afterwards. -/
theorem register_routes_iff {template : Text} {handler : H} {verbs : List Verb} {n : Node H}
    {k : Nat} (h : (n.register template handler verbs).2 = .ok k) {v : Verb} {r : Route H} :
    (n.register template handler verbs).1.routes v = some r ↔
      n.routes v = some r ∨ v ∈ verbs ∧ r = ⟨template, n.params, handler⟩ := by
  obtain ⟨_, hfree, hroutes⟩ := register_of_ok h
  rw [hroutes]
  by_cases hv : v ∈ verbs
  · simp [hv, hfree v hv, eq_comm]
  · simp [hv]

/-- A node whose path is a template stays in order when it is given routes for the template. -/
theorem own_of_register {template : Text} {handler : H} {verbs : List Verb} {n : Node H}
    (path : n.path = template) (hn : n.Regular) {v : Verb} {r : Route H}
    (h : (n.register template handler verbs).1.routes v = some r) :
    r.template = n.path ∧ r.params = n.params := by
  unfold register at h
  split at h
  · exact hn.own h
  · by_cases hv : v ∈ verbs
    · obtain rfl := Option.some.inj ((if_pos hv).symm.trans h)
      exact ⟨path.symm, rfl⟩
    · exact hn.own ((if_neg hv).symm.trans h)

/-- Following at least one segment leaves the routes of the node where the way begins. -/
theorem Brought.routes_of_cons {α : Type} {visit : Node H → Node H × α} {n n' : Node H}
    {s : Segment} {rest : List Segment} {a : α} {es : List Event}
    (h : Brought visit n (s :: rest) n' a es) : n'.routes = n.routes := by
  cases h with
  | fresh _ _ => exact attach_routes ..
  | shared _ _ _ => rfl
  | split _ _ _ _ _ _ => rfl
  | placed _ _ _ => exact attach_routes ..

end Node

namespace Tree

theorem sound_empty : (empty : Tree H).Sound where
  valid := Node.valid_bare _ _ _
  path := rfl
  params := rfl
  bare := rfl
  opens _ _ h := (Node.not_branch_bare h).elim
  room _ _ h := (Node.not_holds_bare h).elim

/-- A tree holds the new routes beside the old ones after a registration that succeeds. -/
theorem Placed.holds_iff {t : Tree H} (ht : t.Sound) {template : Text} {handler : H}
    {verbs : List Verb} {g : Registration H} (h : t.Placed template handler verbs g) {v : Verb}
    {r : Route H} :
    g.tree.root.Holds v r ↔ t.root.Holds v r ∨ v ∈ verbs ∧ r.template = template ∧
      r.handler = handler ∧
        ∃ segs, Template.segments template = .ok segs ∧ r.params = Template.paramNames segs := by
  obtain ⟨segs, root, params, splits, hcut, hbrought, rfl⟩ := h
  refine hbrought.holds_iff (Node.keepsShape_register template handler verbs) ht.valid
    (Template.linked_of_segments hcut) fun d hd hk => ?_
  rw [ht.params, List.nil_append] at hd
  rw [Node.register_routes_iff hk, hd]
  cases r
  simp only [hcut, Route.mk.injEq, Except.ok.injEq, exists_eq_left']
  tauto

/-- Bringing a template into a sound tree leaves a valid one, whether its node takes the routes or
not. -/
theorem Sound.valid_of_brought {t : Tree H} (ht : t.Sound) {template : Text} {handler : H}
    {verbs : List Verb} {segs : List Segment} {root : Node H} {a : Except Occupied Nat}
    {splits : List Event} (hcut : Template.segments template = .ok segs)
    (h : Node.Brought (Node.register template handler verbs) t.root segs root a splits) :
    root.Valid := by
  refine h.valid (Node.keepsShape_register template handler verbs) ht.valid
    (Template.linked_of_segments hcut) fun d hd _ hreg _ _ hr => ?_
  rw [ht.path, List.nil_append, Template.spelled_of_segments hcut] at hd
  exact Node.own_of_register hd hreg hr

/-- Bringing a template that opens with a slash into a sound tree leaves one that is sound again, if
the routes are in order and have room. -/
theorem Sound.of_brought {t t' : Tree H} (ht : t.Sound) {α : Type} {visit : Node H → Node H × α}
    (keeps : Node.KeepsShape visit) {template : Text} (slash : template.head? = some '/')
    {segs : List Segment} (hcut : Template.segments template = .ok segs) {a : α} {es : List Event}
    (h : Node.Brought visit t.root segs t'.root a es) (valid : t'.root.Valid)
    (room : ∀ v r, t'.root.Holds v r → r.params.length ≤ t'.maxParams) : t'.Sound := by
  have hspelled := Template.spelled_of_segments hcut
  obtain ⟨_, hpath, hparams⟩ := h.frame keeps
  have hopens : ∀ s ∈ segs.head?, (Segment.param []).CanPrecede s :=
    (Template.linked_of_segments hcut).head_follows (by simp [hspelled, slash]) []
  refine ⟨valid, hpath.trans ht.path, hparams.trans ht.params, ?_, ?_, room⟩
  · cases segs with
    | nil => simp [← hspelled] at slash
    | cons s rest => exact h.routes_of_cons.trans ht.bare
  · exact fun s c hb => h.canPrecede keeps ht.opens hopens hb

/-- A registration that succeeds leaves a sound tree. -/
theorem Placed.sound {t : Tree H} (ht : t.Sound) {template : Text} {handler : H}
    {verbs : List Verb} {g : Registration H} (slash : template.head? = some '/')
    (h : t.Placed template handler verbs g) : g.tree.Sound := by
  obtain ⟨segs, root, params, splits, hcut, hbrought, rfl⟩ := h
  have hkeeps := Node.keepsShape_register template handler verbs
  refine ht.of_brought hkeeps slash hcut hbrought (ht.valid_of_brought hcut hbrought) ?_
  intro v r hr
  -- the visit answers with the number of names, which the new routes have
  have hnew : root.Holds v r ↔ t.root.Holds v r ∨ v ∈ verbs ∧
      r = ⟨template, Template.paramNames segs, handler⟩ ∧ r.params.length = params := by
    refine hbrought.holds_iff hkeeps ht.valid (Template.linked_of_segments hcut) fun d hd hk => ?_
    rw [ht.params, List.nil_append] at hd
    have hlen := (Node.register_of_ok hk).1
    rw [Node.register_routes_iff hk, hd, hlen, hd]
    grind
  rcases hnew.1 hr with hold | ⟨hv, _, hlen⟩
  · have := ht.room v r hold
    dsimp only
    split
    · exact this
    · omega
  · have hne : verbs ≠ [] := List.ne_nil_of_mem hv
    simp only [hne, if_false]
    omega

/-! ### Histories -/

/-- A call is refused, ends the filling, or registers what it asks for. -/
theorem serve_cases (t : Tree H) (call : Call H) :
    t.Refused (t.serve call) ∨ call = .sealing ∨
      ∃ template handler methods, template.head? = some '/' ∧ call.template? = some template ∧
        (∀ m template' handler', call.Asks m template' handler' ↔
          template' = template ∧ handler' = handler ∧ m ∈ methods) ∧
        (∀ m ∈ methods, ∃ v, m.verb? = some v) ∧
        t.Placed template handler (requestedVerbs methods) (t.serve call) := by
  have hadd := t.add_cases
  cases call with
  | add template handler methods =>
      refine (hadd template handler methods).imp id fun ⟨slash, hverbs, hplaced⟩ => Or.inr ?_
      exact ⟨template, handler, methods, slash, rfl, fun _ _ _ => Iff.rfl, hverbs, hplaced⟩
  | addAny template handler =>
      refine (hadd template handler (Verb.all.map Verb.method)).imp id
        fun ⟨slash, hverbs, hplaced⟩ => Or.inr ?_
      exact ⟨template, handler, _, slash, rfl, fun _ _ _ => Iff.rfl, hverbs, hplaced⟩
  | sealing => exact Or.inr (Or.inl rfl)

/-- A sound tree is left sound by every call. -/
theorem Sound.serve {t : Tree H} (ht : t.Sound) (call : Call H) : (t.serve call).tree.Sound := by
  rcases t.serve_cases call with hrefused | rfl | ⟨_, _, _, slash, _, _, _, hplaced⟩
  · rwa [hrefused.tree_eq]
  · exact ⟨ht.valid, ht.path, ht.params, ht.bare, ht.opens, ht.room⟩
  · exact hplaced.sound ht slash

/-- **Every history of calls leaves a sound tree.** -/
theorem run_sound (calls : List (Call H)) : (empty.run calls).Sound := by
  induction calls using List.reverseRecOn with
  | nil => exact sound_empty
  | append_singleton calls call ih =>
      rw [run_append]
      exact ih.serve call

/-- A call adds to a sound tree the routes that it asks for, if it succeeds. -/
theorem Sound.holds_serve_iff {t : Tree H} (ht : t.Sound) (call : Call H) {v : Verb}
    {r : Route H} :
    (t.serve call).tree.root.Holds v r ↔ t.root.Holds v r ∨
      (call.Asks v.method r.template r.handler ∧ (t.serve call).outcome = .ok ()) ∧
        ∃ segs, Template.segments r.template = .ok segs ∧
          r.params = Template.paramNames segs := by
  rcases t.serve_cases call with
    hrefused | rfl | ⟨template, handler, methods, _, _, hasks, _, hplaced⟩
  · obtain ⟨error, warnings, hg, _⟩ := hrefused
    simp [hg]
  · simp [Call.Asks, Tree.serve]
  · rw [hplaced.holds_iff ht, hplaced.outcome_eq, hasks, mem_requestedVerbs]
    constructor
    · rintro (hold | ⟨hv, rfl, rfl, hparams⟩)
      · exact Or.inl hold
      · exact Or.inr ⟨⟨⟨rfl, rfl, hv⟩, rfl⟩, hparams⟩
    · rintro (hold | ⟨⟨⟨rfl, rfl, hv⟩, _⟩, hparams⟩)
      · exact Or.inl hold
      · exact Or.inr ⟨hv, rfl, rfl, hparams⟩

/-- **The tree that a history leaves holds exactly what the history has registered.** -/
theorem holds_run_iff {calls : List (Call H)} {v : Verb} {r : Route H} :
    (empty.run calls).root.Holds v r ↔ Registered calls v.method r.template r.handler ∧
      ∃ segs, Template.segments r.template = .ok segs ∧
        r.params = Template.paramNames segs := by
  induction calls using List.reverseRecOn with
  | nil =>
      have hno : ¬ (empty : Tree H).root.Holds v r := Node.not_holds_bare
      simp [hno, not_registered_nil]
  | append_singleton calls call ih =>
      rw [run_append, run_cons, run_nil, (run_sound calls).holds_serve_iff, ih,
        registered_concat]
      exact or_and_right.symm

/-- Routes are registered for verbs only. -/
theorem exists_verb_of_registered {calls : List (Call H)} {m : Method} {template : Text}
    {handler : H} (h : Registered calls m template handler) : ∃ v : Verb, m = v.method := by
  obtain ⟨before, call, after, rfl, hasks, hok⟩ := h
  rcases (empty.run before).serve_cases call with
    hrefused | rfl | ⟨_, _, _, _, _, hiff, hverbs, _⟩
  · obtain ⟨error, warnings, hg, _⟩ := hrefused
    simp [hg] at hok
  · exact hasks.elim
  · obtain ⟨_, _, hm⟩ := (hiff _ _ _).1 hasks
    obtain ⟨v, hv⟩ := hverbs m hm
    exact ⟨v, Method.verb?_eq_some_iff.1 hv⟩

end Tree

end RouteTree
