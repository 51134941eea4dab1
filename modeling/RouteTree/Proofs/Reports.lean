/-
**The reports on registrations are faithful.**

Each registration reports on itself.  One that succeeds reports the split that it has made, if it
has made one, and then each verb that it has given a route to.  One that comes to grief at its
template reports a warning and nothing else, and one that is turned away before reports nothing.
So the routes that a tree lists can be read off what has been reported while it was filled.  A store
that is filled by the same calls reports the same.

Main definitions:

* `Event.SplitsFor`, `Event.WarnsOf` — the reports on a split, and on a rejection;
* `Registration.Told` — **what a registration has to report**;
* `Tree.reports`, `Store.reports?` — all that is reported during a history;
* `Event.registered?` — the verb and the template of a report on a new route.

Main results:

* `Node.Brought.splitsFor` — a way splits at most one node, which its template leaves half way;
* `Tree.Sound.told_add` — a registration reports what it has to;
* `Store.reports?_eq` — a store reports what the tree reports;
* `Tree.reports_run_perm` — the routes that have been reported are those that the walk lists;
* `Tree.reports_faithful` — **the reports of every history are a faithful account of it**.
-/
import RouteTree.Proofs.ByteArena
import RouteTree.Proofs.Grammar
import RouteTree.Proofs.Stores
import RouteTree.Proofs.Tally
import RouteTree.Proofs.Verdicts

set_option autoImplicit false
set_option relaxedAutoImplicit false

namespace RouteTree

variable {H α : Type}

/-! ### What is reported -/

/-- A split of a node that a template leaves half way: the path of the node ends in the two parts
of its text, and the template goes on behind the first part of it. -/
inductive Event.SplitsFor (template : Text) : Event → Prop
  | intro {start keep tail more : Text} (kept : keep ≠ []) (cut : tail ≠ [])
      (whole : template = start ++ keep ++ more) :
      SplitsFor template (.nodeSplit (start ++ (keep ++ tail)) keep tail)

/-- A warning that a template was rejected with an error, for its own sake or for a verb that was
asked for and is taken. -/
inductive Event.WarnsOf (template : Text) (methods : List Method) : RouteError → Event → Prop
  | template (error : RouteError) :
      WarnsOf template methods error (.templateRejected template error)
  | verb {v : Verb} {existing : Text} (asked : v.method ∈ methods) :
      WarnsOf template methods (.routeConflict existing template)
        (.verbRejected v template existing)

/-- How an event is announced in a log: its level and its message. -/
def Event.heading (e : Event) : Level × String := (e.level, e.message)

/-- **What a registration has to report.** -/
structure Registration.Told (g : Registration H) (template : Text) (methods : List Method) :
    Prop where
  /-- When it succeeds, there is at most one split, and then the verbs that were asked for, each
  once and in their order, with the template and the number of its placeholders. -/
  registered : g.outcome = .ok () → ∃ (segs : List Segment) (splits : List Event)
    (verbs : List Verb), Template.segments template = .ok segs ∧
      g.events = splits ++
        verbs.map (.routeRegistered · template (Template.paramNames segs).length) ∧
      splits.length ≤ 1 ∧ (∀ e ∈ splits, e.SplitsFor template) ∧
      verbs.Sublist Verb.all ∧ (∀ v, v ∈ verbs ↔ v.method ∈ methods) ∧
      ∀ m ∈ methods, ∃ v : Verb, m = v.method
  /-- None of these is a warning. -/
  calm : g.outcome = .ok () → ∀ e ∈ g.events,
    e.heading = (.trace, "Splitting static node") ∨ e.heading = (.debug, "Route registered")
  /-- When it is turned away before its template is looked at, nothing is reported. -/
  silent : ∀ error, g.outcome = .error error → error.TurnsAway → g.events = []
  /-- When it is rejected at its template, there is one warning and nothing else. -/
  warned : ∀ error, g.outcome = .error error → ¬ error.TurnsAway →
    ∃ e, g.events = [e] ∧ e.heading = (.warn, "Route registration rejected") ∧
      e.WarnsOf template methods error

namespace Event

/-- The verb and the template of a report on a new route. -/
def registered? : Event → Option (Verb × Text)
  | routeRegistered verb template _ => some (verb, template)
  | _ => none

/-- A warning speaks of a rejection. -/
theorem WarnsOf.heading_eq {template : Text} {methods : List Method} {error : RouteError}
    {e : Event} (h : e.WarnsOf template methods error) :
    e.heading = (.warn, "Route registration rejected") := by
  cases h <;> rfl

/-- A split is a detail. -/
theorem SplitsFor.heading_eq {template : Text} {e : Event} (h : e.SplitsFor template) :
    e.heading = (.trace, "Splitting static node") := by
  cases h
  rfl

/-- New routes are announced as such, and nothing else is. -/
theorem registered?_eq_none_iff {e : Event} :
    e.registered? = none ↔ e.heading ≠ (.debug, "Route registered") := by
  cases e <;> simp [registered?, heading, level, message]

end Event

/-! ### Splits -/

namespace Node

variable {visit : Node H → Node H × α}

/-- A way splits at most one node, and the template leaves that half way. -/
theorem Brought.splitsFor {n n' : Node H} {segs : List Segment} {a : α} {es : List Event}
    (h : Brought visit n segs n' a es) (hn : n.Valid) :
    es.length ≤ 1 ∧ ∀ e ∈ es, e.SplitsFor (n.path ++ Template.spelled segs) := by
  induction h with
  | here n => simp
  | fresh free onward ih => simp
  | @shared n c c' before after more rest a es among nonempty onward ih =>
      have first : n.Branch (.literal c.text) c := .literal (by simp [among])
      have hpath := hn.regular.path first
      have hc := ih (hn.branch first)
      rw [hpath] at hc
      simpa [Template.spelled_literalThen, Segment.text] using hc
  | @split n c c' before after keep tail more rest a among text kept cut parts onward ih =>
      have first : n.Branch (.literal c.text) c := .literal (by simp [among])
      have hpath : c.path = n.path ++ (keep ++ tail) := by
        rw [hn.regular.path first, Segment.text, text]
      refine ⟨le_rfl, fun e he => ?_⟩
      obtain rfl := List.mem_singleton.1 he
      rw [hpath]
      refine @Event.SplitsFor.intro _ n.path keep tail (more ++ Template.spelled rest) kept cut ?_
      simp [Segment.text]
  | @placed n c c' s rest a es place same onward ih =>
      have first : n.Branch s c := branch_of_place place same
      have hc := ih (hn.branch first)
      rw [hn.regular.path first] at hc
      simpa using hc

end Node

namespace Tree

/-! ### One registration -/

/-- The number of placeholders that a registration reports is that of its template. -/
theorem Placed.exists_report {t : Tree H} (ht : t.Sound) {template : Text} {handler : H}
    {verbs : List Verb} {g : Registration H} (h : t.Placed template handler verbs g) :
    ∃ segs splits, Template.segments template = .ok segs ∧
      g.events = splits ++
        verbs.map (.routeRegistered · template (Template.paramNames segs).length) ∧
      splits.length ≤ 1 ∧ ∀ e ∈ splits, e.SplitsFor template := by
  obtain ⟨segs, root, params, splits, hcut, hbrought, rfl⟩ := h
  obtain ⟨d, hparams, hvisit, _⟩ :=
    hbrought.exists_listing (Node.keepsShape_register template handler verbs) ht.valid
      (Template.linked_of_segments hcut)
  have hlength : params = (Template.paramNames segs).length := by
    rw [(Node.register_of_ok hvisit).1, hparams, ht.params, List.nil_append]
  have hsplits := hbrought.splitsFor ht.valid
  rw [ht.path, List.nil_append, Template.spelled_of_segments hcut] at hsplits
  refine ⟨segs, splits, hcut, ?_, hsplits⟩
  rw [hlength]

/-- The errors of a cut are about the template. -/
theorem not_turnsAway_of_segments {template : Text} {error : RouteError}
    (h : Template.segments template = .error error) : ¬ error.TurnsAway := by
  have hfault := Template.segments_eq_error_iff.1 h
  cases hfault <;> exact id

/-- A registration that is rejected at its template, and warns of that, reports what it has to. -/
theorem told_of_warns {t : Tree H} {template : Text} {methods : List Method} {error : RouteError}
    {e : Event} (hkind : ¬ error.TurnsAway) (h : e.WarnsOf template methods error) :
    Registration.Told ⟨t, .error error, [e]⟩ template methods where
  registered hok := by cases hok
  calm hok := by cases hok
  silent error' herror hearly := by
    obtain rfl := Except.error.inj herror
    exact absurd hearly hkind
  warned error' herror _ := by
    obtain rfl := Except.error.inj herror
    exact ⟨e, rfl, h.heading_eq, h⟩

/-- A registration that succeeds reports what it has to. -/
theorem Placed.told {t : Tree H} (ht : t.Sound) {template : Text} {handler : H}
    {methods : List Method} {g : Registration H}
    (h : t.Placed template handler (requestedVerbs methods) g)
    (hverbs : ∀ m ∈ methods, ∃ v, m.verb? = some v) : g.Told template methods := by
  obtain ⟨segs, splits, hcut, hevents, hfew, hsplits⟩ := h.exists_report ht
  have hno : ∀ error, g.outcome ≠ .error error := by
    intro error herror
    rw [h.outcome_eq] at herror
    cases herror
  refine ⟨fun _ => ?_, fun _ e he => ?_, fun error herror => absurd herror (hno error),
    fun error herror => absurd herror (hno error)⟩
  · refine ⟨segs, splits, requestedVerbs methods, hcut, hevents, hfew, hsplits,
      List.filter_sublist, fun v => mem_requestedVerbs, fun m hm => ?_⟩
    obtain ⟨v, hv⟩ := hverbs m hm
    exact ⟨v, Method.verb?_eq_some_iff.1 hv⟩
  · rw [hevents, List.mem_append, List.mem_map] at he
    rcases he with he | ⟨v, _, rfl⟩
    · exact Or.inl (hsplits e he).heading_eq
    · exact Or.inr rfl

/-- A registration that reaches the tree reports what it has to. -/
theorem Sound.told_place {t : Tree H} (ht : t.Sound) (template : Text) (handler : H)
    {methods : List Method} (hverbs : ∀ m ∈ methods, ∃ v, m.verb? = some v) :
    (t.place template handler (requestedVerbs methods)).Told template methods := by
  have hplacing := t.place_placing template handler (requestedVerbs methods)
  generalize t.place template handler (requestedVerbs methods) = g at hplacing ⊢
  cases hplacing with
  | uncut cut => exact told_of_warns (not_turnsAway_of_segments cut) (.template _)
  | barred cut bar =>
      obtain ⟨start, old, _, rfl⟩ := Node.exists_conflict_of_error ht.valid bar
      exact told_of_warns id (.template _)
  | @taken segs o cut onward =>
      -- the verb that is taken is one of those that were asked for
      obtain ⟨d, _, hvisit, _⟩ :=
        onward.exists_listing (Node.keepsShape_register template handler _) ht.valid
          (Template.linked_of_segments cut)
      obtain ⟨v, hv, r, _, rfl⟩ := Node.exists_of_register_error hvisit
      exact told_of_warns id (.verb (mem_requestedVerbs.1 hv))
  | placed h => exact h.told ht hverbs

/-- **A registration reports what it has to.** -/
theorem Sound.told_add {t : Tree H} (ht : t.Sound) (template : Text) (handler : H)
    (methods : List Method) : (t.add template handler methods).Told template methods := by
  rcases t.add_eq_or_place template handler methods with ⟨error, hearly, hadd⟩ | ⟨_, hverbs, hadd⟩
  · rw [hadd]
    refine ⟨fun hok => ?_, fun hok => ?_, fun _ _ _ => rfl, fun error' herror hkind => ?_⟩
    · cases hok
    · cases hok
    · obtain rfl := Except.error.inj herror
      exact absurd hearly hkind
  · rw [hadd]
    exact ht.told_place template handler hverbs

/-! ### A whole history -/

/-- **All that is reported while a history fills a tree**, in order. -/
def reports (t : Tree H) : List (Call H) → List Event
  | [] => []
  | call :: calls => (t.serve call).events ++ (t.serve call).tree.reports calls

theorem reports_append (t : Tree H) (before later : List (Call H)) :
    t.reports (before ++ later) = t.reports before ++ (t.run before).reports later := by
  induction before generalizing t with
  | nil => rfl
  | cons call before ih =>
      rw [List.cons_append, reports, ih, reports, run_cons, List.append_assoc]

theorem reports_concat (t : Tree H) (calls : List (Call H)) (call : Call H) :
    t.reports (calls ++ [call]) = t.reports calls ++ ((t.run calls).serve call).events := by
  rw [reports_append, reports, reports, List.append_nil]

/-- A refused call reports no new route. -/
theorem Refused.filterMap_registered {t : Tree H} {g : Registration H} (h : t.Refused g) :
    g.events.filterMap Event.registered? = [] := by
  obtain ⟨error, warnings, rfl, hwarnings⟩ := h
  rw [List.filterMap_eq_nil_iff]
  intro e he
  have hlevel := hwarnings e he
  cases e with
  | routeRegistered verb template params => cases hlevel
  | _ => rfl

/-- A registration that succeeds reports its verbs. -/
theorem Placed.filterMap_registered {t : Tree H} (ht : t.Sound) {template : Text} {handler : H}
    {verbs : List Verb} {g : Registration H} (h : t.Placed template handler verbs g) :
    g.events.filterMap Event.registered? = verbs.map fun v => (v, template) := by
  obtain ⟨segs, splits, _, hevents, _, hsplits⟩ := h.exists_report ht
  have hnone : splits.filterMap Event.registered? = [] := by
    rw [List.filterMap_eq_nil_iff]
    intro e he
    rw [Event.registered?_eq_none_iff, (hsplits e he).heading_eq]
    simp
  rw [hevents, List.filterMap_append, hnone, List.nil_append, List.filterMap_map]
  exact congrFun (List.filterMap_eq_map (f := fun v : Verb => (v, template))) verbs

/-- **The routes that have been reported are those that the walk lists**, each as often. -/
theorem reports_run_perm (calls : List (Call H)) :
    ((empty.reports calls).filterMap Event.registered?).Perm
      ((empty.run calls).walk.map fun p => (p.1, p.2.template)) := by
  induction calls using List.reverseRecOn with
  | nil => exact .refl _
  | append_singleton calls call ih =>
      have ht := run_sound calls
      rw [reports_concat, List.filterMap_append, run_append, run_cons, run_nil]
      rcases (empty.run calls).serve_cases call with
        hrefused | rfl | ⟨template, handler, methods, _, _, _, _, hplaced⟩
      · rw [hrefused.filterMap_registered, List.append_nil, hrefused.tree_eq]
        exact ih
      · exact (List.append_nil _).symm ▸ ih
      · obtain ⟨names, hperm, _⟩ := hplaced.walk_perm ht (nodup_requestedVerbs methods)
        have hlisted := hperm.map fun p => (p.1, p.2.template)
        rw [List.map_append, List.map_map] at hlisted
        rw [hplaced.filterMap_registered ht]
        exact (ih.append_right _).trans hlisted.symm

/-- **The reports of every history are a faithful account of it.**  Whatever calls have been made
before, a registration reports what it has to, and sealing reports nothing; and the routes that
have been reported are exactly those that the walk lists. -/
theorem reports_faithful (calls : List (Call H)) :
    (∀ template handler methods,
      ((empty.run calls).add template handler methods).Told template methods) ∧
    (∀ template handler,
      ((empty.run calls).addAny template handler).Told template (Verb.all.map Verb.method)) ∧
    ((empty.run calls).serve .sealing).events = [] ∧
    ((empty.reports calls).filterMap Event.registered?).Perm
      ((empty.run calls).walk.map fun p => (p.1, p.2.template)) := by
  have ht := run_sound calls
  refine ⟨?_, ?_, rfl, reports_run_perm calls⟩
  · intro template handler methods
    exact ht.told_add template handler methods
  · intro template handler
    exact ht.told_add template handler _

/-- A template that parts from an older one half way splits its node, and says so first. -/
theorem reports_faithful_split :
    let calls := [Call.add "/team".toList 0 [Verb.get.method]]
    let g := (empty.run calls).add "/teal".toList 1 [Verb.post.method, Verb.get.method]
    g.outcome = .ok () ∧
      g.events = [.nodeSplit "/team".toList "/tea".toList "m".toList,
        .routeRegistered .get "/teal".toList 0, .routeRegistered .post "/teal".toList 0] ∧
      ∀ e ∈ g.events, e.heading = (.trace, "Splitting static node") ∨
        e.heading = (.debug, "Route registered") := by
  intro calls g
  have hok : g.outcome = .ok () := by decide +kernel
  exact ⟨hok, by decide +kernel, ((reports_faithful calls).1 _ _ _).calm hok⟩

end Tree

/-! ### The reports of a store -/

namespace Store

/-- All that a store reports while a history fills it, in order. -/
def reports? (s : Store H) : List (Call H) → Option (List Event)
  | [] => some []
  | call :: calls => do
      let i ← s.serve? call
      let later ← i.result.reports? calls
      some (i.events ++ later)

/-- A store reports what the tree reports that it stands for. -/
theorem Stands.reports?_eq {s : Store H} {t : Tree H} (hs : s.Stands t) (ht : t.Sound)
    (calls : List (Call H)) : s.reports? calls = some (t.reports calls) := by
  induction calls generalizing s t with
  | nil => rfl
  | cons call calls ih =>
      obtain ⟨s', hserve, hs', _⟩ := hs.serve ht call
      have hlater := ih hs' (ht.serve call)
      rw [reports?, serve?_eq, hserve, Option.bind_eq_bind, Option.bind_some]
      rw [hlater, Option.bind_eq_bind, Option.bind_some, Tree.reports]

/-- **While a history fills a store, it reports what the tree reports**: the splits of its cells
with their paths, the routes that they are given, and the rejections. -/
theorem reports?_eq (calls : List (Call H)) :
    (empty : Store H).reports? calls = some (Tree.empty.reports calls) :=
  stands_empty.reports?_eq Tree.sound_empty calls

end Store

end RouteTree
