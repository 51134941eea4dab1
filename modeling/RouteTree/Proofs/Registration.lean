/-
**What a registration does to a tree.**

A registration cuts its template, brings it into the tree and gives routes to the node that the
template leads to.  It may be refused on three occasions: before the tree is looked at, on the
way, and at the node, when one of the verbs is taken there.  A refusal at the node can only happen
at a node that was there before, and then nothing was made on the way to it.  So whatever the
occasion, a refused registration leaves the tree exactly as it was.

Main definitions:

* `RouteError.TurnsAway` — the errors that are found before a template is cut;
* `Tree.Placed` — a registration that succeeded, with the tree that it leaves;
* `Tree.Placing` — how bringing a template into a tree can end.

Main results:

* `Node.register_eq_of_error`, `Node.register_of_ok` — giving routes to a node;
* `Tree.place_cases`, `Tree.add_cases` — **a registration is refused and changes nothing, or it
  brings its template to an end**;
* `Tree.unchanged_of_error` — **a refused call changes nothing**, and splits no node.
-/
import RouteTree.Proofs.Growth
import RouteTree.Tree.Basic

set_option autoImplicit false
set_option relaxedAutoImplicit false

namespace RouteTree

variable {H : Type}

/-! ### Giving routes to a node -/

namespace Node

/-- A node refuses routes when a verb is taken, and stays as it is then. -/
theorem register_eq_of_error {template : Text} {handler : H} {verbs : List Verb} {n : Node H}
    {o : Occupied} (h : (n.register template handler verbs).2 = .error o) :
    (n.register template handler verbs).1 = n := by
  unfold register at h ⊢
  split
  · rfl
  · rename_i hfree
    simp [hfree] at h

/-- A node that takes routes has none for their verbs yet, and keeps all others. -/
theorem register_of_ok {template : Text} {handler : H} {verbs : List Verb} {n : Node H} {k : Nat}
    (h : (n.register template handler verbs).2 = .ok k) :
    k = n.params.length ∧ (∀ v ∈ verbs, n.routes v = none) ∧
      (n.register template handler verbs).1 = { n with
        routes := fun v =>
          if v ∈ verbs then some ⟨template, n.params, handler⟩ else n.routes v } := by
  unfold register at h ⊢
  split
  · rename_i o htaken
    simp [htaken] at h
  · rename_i hfree
    refine ⟨?_, ?_, rfl⟩
    · simpa [hfree, eq_comm] using h
    · simpa [occupied?, List.findSome?_eq_none_iff] using hfree

/-- A node without routes takes all. -/
theorem register_ok_of_bare {template : Text} {handler : H} {verbs : List Verb} {n : Node H}
    (h : n.routes = fun _ => none) :
    (n.register template handler verbs).2 = .ok n.params.length := by
  have hfree : n.occupied? verbs = none := by simp [occupied?, List.findSome?_eq_none_iff, h]
  simp [register, hfree]

/-- A template whose visit is refused was brought nowhere: it led to a node that is occupied. -/
theorem Brought.eq_of_occupied {template : Text} {handler : H} {verbs : List Verb}
    {n n' : Node H} {segs : List Segment} {o : Occupied} {es : List Event}
    (h : Brought (register template handler verbs) n segs n' (.error o) es)
    (hsegs : Template.Parted segs) : n' = n ∧ es = [] ∧
      ∃ d, n.Leads segs d ∧ (d.register template handler verbs).2 = .error o := by
  refine h.eq_of_refused (fun a => ∃ o, a = .error o) ?_ ?_ hsegs ⟨o, rfl⟩
  · rintro d hd ⟨o, ho⟩
    rw [register_ok_of_bare hd] at ho
    cases ho
  · rintro d ⟨o, ho⟩
    exact register_eq_of_error ho

end Node

/-! ### Registering -/

/-- An error for which a registration is turned away before its template is cut. -/
def RouteError.TurnsAway : RouteError → Prop
  | .sealedTree _ | .invalidPath _ | .unsupportedMethod _ => True
  | _ => False

namespace Tree

/-- A registration of a template under some verbs has succeeded. -/
def Placed (t : Tree H) (template : Text) (handler : H) (verbs : List Verb)
    (g : Registration H) : Prop :=
  ∃ segs root params splits, Template.segments template = .ok segs ∧
    Node.Brought (Node.register template handler verbs) t.root segs root (.ok params) splits ∧
      g = ⟨{ t with
              root
              size := t.size + verbs.length
              maxParams := if verbs = [] then t.maxParams else max t.maxParams params },
            .ok (), splits ++ verbs.map (.routeRegistered · template params)⟩

/-- A registration was refused: it has an error, and the tree is what it was.  At most a warning
was reported. -/
def Refused (t : Tree H) (g : Registration H) : Prop :=
  ∃ error warnings, g = ⟨t, .error error, warnings⟩ ∧ ∀ e ∈ warnings, e.level = .warn

/-- **How bringing a template into the tree ends**: the template cannot be cut, its way is barred,
a verb is taken at its node, or it succeeds.  The first three leave the tree as it was, and each
reports one warning. -/
inductive Placing (t : Tree H) (template : Text) (handler : H) (verbs : List Verb) :
    Registration H → Prop
  | uncut {e : RouteError} (cut : Template.segments template = .error e) :
      Placing t template handler verbs ⟨t, .error e, [.templateRejected template e]⟩
  | barred {segs : List Segment} {e : RouteError} (cut : Template.segments template = .ok segs)
      (bar : (t.root.insert template (Node.register template handler verbs) segs).outcome =
        .error e) :
      Placing t template handler verbs ⟨t, .error e, [.templateRejected template e]⟩
  | taken {segs : List Segment} {o : Occupied} (cut : Template.segments template = .ok segs)
      (onward : Node.Brought (Node.register template handler verbs) t.root segs t.root
        (.error o) []) :
      Placing t template handler verbs ⟨t, .error (.routeConflict o.existing template),
        [.verbRejected o.verb template o.existing]⟩
  | placed {g : Registration H} (h : t.Placed template handler verbs g) :
      Placing t template handler verbs g

theorem place_placing (t : Tree H) (template : Text) (handler : H) (verbs : List Verb) :
    t.Placing template handler verbs (t.place template handler verbs) := by
  unfold place
  cases hcut : Template.segments template with
  | error e => exact .uncut hcut
  | ok segs =>
      have hparted := Template.parted_of_segments hcut
      have hi := Node.insert_follows template (Node.register template handler verbs) t.root hparted
      have hbar := @Placing.barred H t template handler verbs segs
      dsimp only
      generalize t.root.insert template (Node.register template handler verbs) segs = i at hi hbar ⊢
      obtain ⟨root, outcome, events⟩ := i
      match outcome with
      | .error e =>
          obtain ⟨rfl, rfl⟩ := hi
          exact hbar hcut rfl
      | .ok (.error o) =>
          obtain ⟨rfl, rfl, _⟩ := Node.Brought.eq_of_occupied hi hparted
          exact .taken hcut hi
      | .ok (.ok params) => exact .placed ⟨segs, root, params, events, hcut, hi, rfl⟩

/-- **Bringing a template into the tree is refused and changes nothing, or succeeds.** -/
theorem place_cases (t : Tree H) (template : Text) (handler : H) (verbs : List Verb) :
    t.Refused (t.place template handler verbs) ∨
      t.Placed template handler verbs (t.place template handler verbs) := by
  generalize t.place template handler verbs = g, t.place_placing template handler verbs = hplacing
  cases hplacing with
  | uncut cut => exact Or.inl ⟨_, _, rfl, by simp [Event.level]⟩
  | barred cut bar => exact Or.inl ⟨_, _, rfl, by simp [Event.level]⟩
  | taken cut onward => exact Or.inl ⟨_, _, rfl, by simp [Event.level]⟩
  | placed h => exact Or.inr h

/-- A registration is turned away before its template is cut, without a report, or all its methods
are verbs, its template begins with a slash, and it goes on to the tree. -/
theorem add_eq_or_place (t : Tree H) (template : Text) (handler : H) (methods : List Method) :
    (∃ e : RouteError, e.TurnsAway ∧ t.add template handler methods = ⟨t, .error e, []⟩) ∨
      template.head? = some '/' ∧ (∀ m ∈ methods, ∃ v, m.verb? = some v) ∧
        t.add template handler methods = t.place template handler (requestedVerbs methods) := by
  unfold add
  split
  · exact Or.inl ⟨.sealedTree template, trivial, rfl⟩
  · split
    · exact Or.inl ⟨.invalidPath template, trivial, rfl⟩
    · rename_i hslash
      split
      · exact Or.inl ⟨.unsupportedMethod _, trivial, rfl⟩
      · rename_i hverbs
        refine Or.inr ⟨by simpa using hslash, fun m hm => ?_, rfl⟩
        exact Option.ne_none_iff_exists'.1 (by simpa using List.find?_eq_none.1 hverbs m hm)

/-- **A registration is refused and changes nothing, or all its methods are verbs, its template
begins with a slash, and it succeeds.** -/
theorem add_cases (t : Tree H) (template : Text) (handler : H) (methods : List Method) :
    t.Refused (t.add template handler methods) ∨
      template.head? = some '/' ∧ (∀ m ∈ methods, ∃ v, m.verb? = some v) ∧
        t.Placed template handler (requestedVerbs methods) (t.add template handler methods) := by
  rcases t.add_eq_or_place template handler methods with ⟨e, _, hadd⟩ | ⟨hslash, hverbs, hadd⟩
  · exact Or.inl ⟨e, [], hadd, by simp⟩
  · rw [hadd]
    exact (t.place_cases template handler _).imp id fun h => ⟨hslash, hverbs, h⟩

theorem Refused.tree_eq {t : Tree H} {g : Registration H} (h : t.Refused g) : g.tree = t := by
  obtain ⟨error, warnings, rfl, _⟩ := h
  rfl

theorem Placed.outcome_eq {t : Tree H} {template : Text} {handler : H} {verbs : List Verb}
    {g : Registration H} (h : t.Placed template handler verbs g) : g.outcome = .ok () := by
  obtain ⟨segs, root, params, splits, _, _, rfl⟩ := h
  rfl

/-- A call that fails has been refused. -/
theorem refused_of_error {t : Tree H} {call : Call H} {error : RouteError}
    (h : (t.serve call).outcome = .error error) : t.Refused (t.serve call) := by
  have hadd : ∀ template handler methods, (t.add template handler methods).outcome = .error error →
      t.Refused (t.add template handler methods) := by
    intro template handler methods h
    refine (t.add_cases template handler methods).resolve_right fun ⟨_, _, hplaced⟩ => ?_
    simp [hplaced.outcome_eq] at h
  cases call with
  | add template handler methods => exact hadd template handler methods h
  | addAny template handler => exact hadd template handler _ h
  | sealing => cases h

/-- **A call that fails changes nothing**: the tree is the one before, no node has been split, and
all that follows goes as if the call had not been made. -/
theorem unchanged_of_error (t : Tree H) (call : Call H) (error : RouteError)
    (h : (t.serve call).outcome = .error error) :
    (t.serve call).tree = t ∧
      (∀ node keep tail, Event.nodeSplit node keep tail ∉ (t.serve call).events) ∧
      ∀ later, t.run (call :: later) = t.run later := by
  have hrefused := refused_of_error h
  refine ⟨hrefused.tree_eq, ?_, fun later => by rw [run_cons, hrefused.tree_eq]⟩
  obtain ⟨_, warnings, hg, hwarnings⟩ := hrefused
  intro node keep tail hmem
  rw [hg] at hmem
  exact absurd (hwarnings _ hmem) (by simp [Event.level])

/-- A second name for a parameter is refused, and changes nothing. -/
theorem unchanged_of_error_second_name :
    let t := empty.run [.add "/a/:x/b".toList 0 [Verb.get.method]]
    let call := Call.add "/a/:y/c".toList 1 [Verb.get.method, Verb.put.method]
    (t.serve call).outcome = .error (.routeConflict "/a/:x".toList "/a/:y/c".toList) ∧
      (t.serve call).tree = t := by
  intro t call
  have h : (t.serve call).outcome = .error (.routeConflict "/a/:x".toList "/a/:y/c".toList) := by
    decide +kernel
  exact ⟨h, (unchanged_of_error t call _ h).1⟩

end Tree

end RouteTree
