/-
**What is found after a history of calls.**

A history alone says what a look-up has to answer: the route whose template matches the path and
precedes all other registered templates that match it, with the values that its placeholders take.
When there is none, the flag of the answer says whether the path with a slash more at its end, or
with one less, has a route.

Main definitions:

* `Serves` — a history has registered a template that matches a path;
* `Preferred` — the registration that a path is answered with.

Main results:

* `Tree.find_eq_preferred` — **a look-up finds the preferred registration**, and captures the values
  of its placeholders;
* `Tree.toggled_iff` — **the flag is exact**.
-/
import RouteTree.Proofs.Finding

set_option autoImplicit false
set_option relaxedAutoImplicit false

namespace RouteTree

variable {H : Type}

/-- A history has registered a template for a method that matches a path. -/
def Serves (calls : List (Call H)) (m : Method) (path : Text) : Prop :=
  ∃ template handler captured, Registered calls m template handler ∧
    Template.Matches template path captured

/-- **A handler is registered under the one matching template that precedes all others** that are
registered for the method and match the path. -/
def Preferred (calls : List (Call H)) (m : Method) (path template : Text) (handler : H) : Prop :=
  Registered calls m template handler ∧ (∃ captured, Template.Matches template path captured) ∧
    ∀ template' handler' captured', Registered calls m template' handler' →
      Template.Matches template' path captured' → template' ≠ template →
      Template.Precedes template template'

namespace Tree

/-- The ways of the tree that a history leaves. -/
theorem ways_run_iff {calls : List (Call H)} {m : Method} {path : Text} {r : Route H}
    {captured : List Text} : (empty.run calls).root.ways m path r captured ↔
      Registered calls m r.template r.handler ∧ Template.Matches r.template path captured ∧
        ∃ segs, Template.segments r.template = .ok segs ∧
          r.params = Template.paramNames segs := by
  rw [(run_sound calls).ways_iff]
  constructor
  · rintro ⟨v, hverb, hholds, hmatches⟩
    obtain ⟨hreg, hparams⟩ := holds_run_iff.1 hholds
    rw [Method.verb?_eq_some_iff.1 hverb]
    exact ⟨hreg, hmatches, hparams⟩
  · rintro ⟨hreg, hmatches, hparams⟩
    obtain ⟨v, rfl⟩ := exists_verb_of_registered hreg
    exact ⟨v, v.verb?_method, holds_run_iff.2 ⟨hreg, hparams⟩, hmatches⟩

/-- A registration that matches is a way, with a route of its own. -/
theorem exists_way_of_registered {calls : List (Call H)} {m : Method} {path template : Text}
    {handler : H} {captured : List Text} (hreg : Registered calls m template handler)
    (hmatches : Template.Matches template path captured) :
    ∃ names, (empty.run calls).root.ways m path ⟨template, names, handler⟩ captured := by
  obtain ⟨segs, hcut, hcovers⟩ := hmatches
  exact ⟨Template.paramNames segs,
    ways_run_iff.2 ⟨hreg, ⟨segs, hcut, hcovers⟩, segs, hcut, rfl⟩⟩

theorem some_ways_run_iff {calls : List (Call H)} {m : Method} {path : Text} :
    ((empty.run calls).root.ways m).Some path ↔ Serves calls m path := by
  constructor
  · rintro ⟨r, captured, hway⟩
    obtain ⟨hreg, hmatches, _⟩ := ways_run_iff.1 hway
    exact ⟨r.template, r.handler, captured, hreg, hmatches⟩
  · rintro ⟨template, handler, captured, hreg, hmatches⟩
    obtain ⟨names, hway⟩ := exists_way_of_registered hreg hmatches
    exact ⟨_, captured, hway⟩

/-- What is found after a history: a route for a path that is served, or the flag. -/
theorem find_run_cases (calls : List (Call H)) (m : Method) (path : Text) (values : Values) :
    (∃ r after, (empty.run calls).find m path values = ⟨some r, false, after⟩ ∧
      Serves calls m path) ∨
    ∃ toggled after, (empty.run calls).find m path values = ⟨none, toggled, after⟩ ∧
      ¬ Serves calls m path ∧
      (toggled = true ↔ path ≠ [] ∧ ∃ other, path.Toggles other ∧ Serves calls m other) := by
  simp only [← some_ways_run_iff]
  rcases (run_sound calls).find_cases m path values with ⟨r, captured, after, hfind, hway, _⟩ |
    ⟨toggled, after, hfind, hlost, hchance⟩
  · exact Or.inl ⟨r, after, hfind, r, captured, hway⟩
  · exact Or.inr ⟨toggled, after, hfind, hlost, hchance⟩

/-- The empty path is not served. -/
theorem not_serves_nil (calls : List (Call H)) (m : Method) : ¬ Serves calls m [] := by
  rw [← some_ways_run_iff]
  exact (run_sound calls).not_some_ways_nil m

theorem isSome_find_run_iff {calls : List (Call H)} {m : Method} {path : Text}
    {values : Values} :
    ((empty.run calls).find m path values).route.isSome = true ↔ Serves calls m path :=
  ((run_sound calls).isSome_find_iff m path values).trans some_ways_run_iff

/-- The route that is found, and how all other matching registrations compare with it. -/
theorem found_of_route {calls : List (Call H)} {m : Method} {path : Text} {values : Values}
    (room : (empty.run calls).maxParams ≤ values.length) {r : Route H}
    (h : ((empty.run calls).find m path values).route = some r) :
    (∃ segs, Template.segments r.template = .ok segs ∧ r.params = Template.paramNames segs) ∧
    Registered calls m r.template r.handler ∧
    Template.Matches r.template path
      (((empty.run calls).find m path values).values.take r.params.length) ∧
    ∀ template handler captured, Registered calls m template handler →
      Template.Matches template path captured →
      (template = r.template ∧ handler = r.handler ∧
        captured = ((empty.run calls).find m path values).values.take r.params.length) ∨
      Template.Outranks r.template template := by
  have ht := run_sound calls
  rcases ht.find_cases m path values with
    ⟨r', captured, after, hfind, hway, hbest, hkept, hstored⟩ | ⟨toggled, after, hfind, _⟩
  · rw [hfind] at h ⊢
    obtain rfl := Option.some.inj h
    obtain ⟨hreg, hmatches, segs, hcut, hparams⟩ := ways_run_iff.1 hway
    -- the tree has counted the names of all routes it holds, so the buffer has a place for each
    have htake : after.take r'.params.length = captured := by
      obtain ⟨segs', hcut', hcovers⟩ := hmatches
      obtain rfl := Except.ok.inj (hcut.symm.trans hcut')
      obtain ⟨v, hv⟩ := Node.holds_of_ways hway
      have hroom := ht.room v r' hv
      have hlen := Template.length_of_covers hcovers
      rw [hparams] at hroom ⊢
      rw [← hlen] at hroom ⊢
      exact hstored.take_eq (by rw [hkept.1]; omega)
    rw [htake]
    refine ⟨⟨segs, hcut, hparams⟩, hreg, hmatches, ?_⟩
    intro template handler captured' hreg' hmatches'
    obtain ⟨names, hway'⟩ := exists_way_of_registered hreg' hmatches'
    refine (hbest _ _ hway').imp_left ?_
    rintro ⟨rfl, rfl⟩
    exact ⟨rfl, rfl, rfl⟩
  · simp [hfind] at h

/-- **A look-up finds the preferred registration.**  It finds a route exactly when some registered
template matches; template and handler are those of the registration that precedes all others that
match; and the values in front of the buffer are the only ones with which the template matches. -/
theorem find_eq_preferred (calls : List (Call H)) (m : Method) (path : Text) (values : Values)
    (room : (empty.run calls).maxParams ≤ values.length) :
    let found := (empty.run calls).find m path values
    (found.route.isSome = true ↔ ∃ template handler captured,
      Registered calls m template handler ∧ Template.Matches template path captured) ∧
    (∀ template handler, (∃ r, found.route = some r ∧ r.template = template ∧
      r.handler = handler) ↔ Preferred calls m path template handler) ∧
    ∀ r, found.route = some r →
      (∃ segs, Template.segments r.template = .ok segs ∧
        r.params = Template.paramNames segs) ∧
      ∀ captured, Template.Matches r.template path captured ↔
        captured = found.values.take r.params.length := by
  intro found
  refine ⟨isSome_find_run_iff, fun template handler => ⟨?_, ?_⟩, fun r hr => ?_⟩
  · rintro ⟨r, hr, rfl, rfl⟩
    obtain ⟨_, hreg, hmatches, hbest⟩ := found_of_route room hr
    refine ⟨hreg, ⟨_, hmatches⟩, fun template' handler' captured' hreg' hmatches' hne => ?_⟩
    rcases hbest template' handler' captured' hreg' hmatches' with ⟨heq, _⟩ | houtranks
    · exact absurd heq hne
    · exact houtranks.2
  · rintro ⟨hreg, ⟨captured, hmatches⟩, hfirst⟩
    have hsome : found.route.isSome = true :=
      isSome_find_run_iff.2 ⟨template, handler, captured, hreg, hmatches⟩
    obtain ⟨r, hr⟩ := Option.isSome_iff_exists.1 hsome
    obtain ⟨_, hreg', hmatches', hbest⟩ := found_of_route room hr
    refine ⟨r, hr, ?_⟩
    rcases hbest template handler captured hreg hmatches with ⟨rfl, rfl, _⟩ | ⟨hne, hprecedes⟩
    · exact ⟨rfl, rfl⟩
    · -- two different templates cannot both precede the other
      have hback := hfirst _ _ _ hreg' hmatches' hne
      exact absurd hback (Template.not_precedes_of_precedes hne hprecedes)
  · obtain ⟨hparams, hreg, hmatches, hbest⟩ := found_of_route room hr
    refine ⟨hparams, fun captured => ⟨fun hcaptured => ?_, ?_⟩⟩
    · rcases hbest _ _ captured hreg hcaptured with ⟨_, _, heq⟩ | ⟨hne, _⟩
      · exact heq
      · exact absurd rfl hne
    · rintro rfl
      exact hmatches

/-- A parameter that takes a part of the path and then leads nowhere gives way to a wildcard, and
leaves nothing behind in its value. -/
theorem find_eq_preferred_after_detour :
    let calls := [Call.add "/a/:x/b".toList 0 [Verb.get.method],
      Call.add "/a/*rest".toList 1 [Verb.get.method]]
    (empty.run calls).maxParams ≤ 1 ∧
      Preferred calls Verb.get.method "/a/1/c".toList "/a/*rest".toList 1 ∧
      Template.Matches "/a/*rest".toList "/a/1/c".toList ["1/c".toList] := by
  intro calls
  have room : (empty.run calls).maxParams ≤ 1 := by decide +kernel
  obtain ⟨_, hpreferred, hvalues⟩ :=
    find_eq_preferred calls Verb.get.method "/a/1/c".toList [[]] room
  have hfind : ((empty.run calls).find Verb.get.method "/a/1/c".toList [[]]).route =
      some ⟨"/a/*rest".toList, ["rest".toList], 1⟩ := by decide +kernel
  have htake : (((empty.run calls).find Verb.get.method "/a/1/c".toList [[]]).values.take 1) =
      ["1/c".toList] := by decide +kernel
  exact ⟨room, (hpreferred _ _).1 ⟨_, hfind, rfl, rfl⟩, ((hvalues _ hfind).2 _).2 htake.symm⟩

/-- **The flag is exact.**  It is not set beside a route, and without one it says whether the path
has a route with a slash more at its end, or with one less, unless nothing is left then. -/
theorem toggled_iff (calls : List (Call H)) (m : Method) (path : Text) (values others : Values)
    (hne : path ≠ []) :
    let t := empty.run calls
    ((t.find m path values).route.isSome = true → (t.find m path values).toggled = false) ∧
    ((t.find m path values).route = none → ((t.find m path values).toggled = true ↔
      (t.find m (path ++ ['/']) others).route.isSome = true ∨
        ∃ shorter, shorter ≠ [] ∧ path = shorter ++ ['/'] ∧
          (t.find m shorter others).route.isSome = true)) := by
  intro t
  simp only [t, isSome_find_run_iff]
  rcases find_run_cases calls m path values with ⟨r, after, hfind, _⟩ |
    ⟨toggled, after, hfind, hlost, hchance⟩
  · rw [hfind]
    exact ⟨fun _ => rfl, fun h => by cases h⟩
  · rw [hfind]
    refine ⟨fun h => absurd h hlost, fun _ => (hchance.trans (and_iff_right hne)).trans ?_⟩
    constructor
    · rintro ⟨other, rfl | rfl, hserves⟩
      · exact Or.inl hserves
      · refine Or.inr ⟨other, ?_, rfl, hserves⟩
        rintro rfl
        exact not_serves_nil calls m hserves
    · rintro (hserves | ⟨shorter, _, rfl, hserves⟩)
      · exact ⟨_, Or.inl rfl, hserves⟩
      · exact ⟨shorter, Or.inr rfl, hserves⟩

/-- A slash too many behind a parameter is noted. -/
theorem toggled_iff_param :
    "/users/42/".toList ≠ [] ∧ ((empty.run [.add "/users/:id".toList 0
      [Verb.get.method]]).find Verb.get.method "/users/42/".toList [[]]).toggled = true := by
  have hne : "/users/42/".toList ≠ [] := by decide
  refine ⟨hne, ((toggled_iff _ Verb.get.method "/users/42/".toList [[]] [] hne).2 ?_).2
    (Or.inr ⟨"/users/42".toList, ?_, ?_, ?_⟩)⟩
  · decide +kernel
  · decide
  · decide
  · decide +kernel

end Tree

end RouteTree
