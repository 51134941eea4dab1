/-
**Histories that register the same are answered the same.**

How a tree was filled shows in its nodes: where they were split, and in which order they came.  It
does not show in its answers.  Two trees with the same ways find the same route for every path,
capture the same values for it, and set the flag alike; and which ways there are is a matter of
what has been registered.

Main definitions:

* `Found.Agrees` — two look-ups have the same answer;
* `SameRegistered` — two histories have registered the same.

Main results:

* `Tree.Sound.find_agrees` — trees with the same ways answer alike;
* `Tree.find_run_agrees` — **histories that register the same leave trees that answer alike**;
* `Router.route_eq_of_agrees` — so do the routers over them.
-/
import RouteTree.Proofs.Answers
import RouteTree.Router.Basic

set_option autoImplicit false
set_option relaxedAutoImplicit false

namespace RouteTree

variable {H : Type}

/-- **Two look-ups have the same answer**: the same route or none, with the same values for its
parameters as far as the buffers go, and the same flag. -/
def Found.Agrees (f g : Found H) : Prop :=
  f.route = g.route ∧ f.toggled = g.toggled ∧
    ∀ r, f.route = some r → f.values.take r.params.length = g.values.take r.params.length

/-- **Two histories have registered the same.** -/
def SameRegistered (calls others : List (Call H)) : Prop :=
  ∀ m template handler,
    Registered calls m template handler ↔ Registered others m template handler

/-- Values that stand in two buffers of one length are read back alike, even if some have no
place. -/
theorem Values.Stores.take_congr {captured : List Text} {after after' : Values}
    (h : Values.Stores 0 captured after) (h' : Values.Stores 0 captured after')
    (length : after.length = after'.length) :
    after.take captured.length = after'.take captured.length := by
  refine List.ext_getElem? fun i => ?_
  simp only [List.getElem?_take]
  split
  · rename_i hi
    by_cases hroom : i < after.length
    · have hleft := h i hi (by omega)
      have hright := h' i hi (by omega)
      rw [Nat.zero_add] at hleft hright
      rw [hleft, hright]
    · rw [List.getElem?_eq_none (by omega), List.getElem?_eq_none (by omega)]
  · rfl

namespace Tree

/-! ### Trees with the same ways -/

/-- A way captures one value for each parameter of its route. -/
theorem Sound.length_of_ways {t : Tree H} (ht : t.Sound) {m : Method} {path : Text} {r : Route H}
    {captured : List Text} (h : t.root.ways m path r captured) :
    captured.length = r.params.length := by
  obtain ⟨segs, d, hreach, hroute, hcovers⟩ := h
  obtain ⟨v, _, hv⟩ := Node.route?_eq_some_iff.1 hroute
  rw [Template.length_of_covers hcovers, (ht.template_of_reach hreach hv).2]

/-- The values of a route that is found are the only ones with which its template matches, and they
stand in the buffer as far as it goes. -/
theorem exists_stored_of_route {calls : List (Call H)} {m : Method} {path : Text}
    {values : Values} {r : Route H}
    (h : ((empty.run calls).find m path values).route = some r) :
    ∃ captured, captured.length = r.params.length ∧
      (∀ given, Template.Matches r.template path given ↔ given = captured) ∧
      Values.Stores 0 captured ((empty.run calls).find m path values).values := by
  have ht := run_sound calls
  rcases ht.find_cases m path values with
    ⟨r', captured, after, hfind, hway, hbest, _, hstored⟩ | ⟨toggled, after, hfind, _⟩
  · rw [hfind] at h ⊢
    obtain rfl := Option.some.inj h
    obtain ⟨hreg, hmatches, hparams⟩ := ways_run_iff.1 hway
    refine ⟨captured, ht.length_of_ways hway, fun given => ⟨fun hgiven => ?_, ?_⟩, hstored⟩
    · -- other values would be another way to the same route, which does not outrank itself
      rcases hbest r' given (ways_run_iff.2 ⟨hreg, hgiven, hparams⟩) with ⟨_, heq⟩ | ⟨hne, _⟩
      · exact heq
      · exact absurd rfl hne
    · rintro rfl
      exact hmatches
  · rw [hfind] at h
    cases h

/-- **Trees with the same ways answer alike.** -/
theorem Sound.find_agrees {t t' : Tree H} (ht : t.Sound) (ht' : t'.Sound) {m : Method}
    (same : ∀ path r captured, t'.root.ways m path r captured ↔ t.root.ways m path r captured)
    (path : Text) (values : Values) : (t.find m path values).Agrees (t'.find m path values) := by
  have hsome : ∀ p, (t'.root.ways m).Some p ↔ (t.root.ways m).Some p := fun p =>
    exists₂_congr (same p)
  rcases ht.find_cases m path values with
    ⟨r, captured, after, hfind, hway, hbest, hkept, hstored⟩ |
    ⟨toggled, after, hfind, hlost, hchance⟩
  · rcases ht'.find_cases m path values with
      ⟨r', captured', after', hfind', hway', hbest', hkept', hstored'⟩ | ⟨_, _, _, hlost', _⟩
    · -- of two routes that both come first, none can come before the other
      obtain ⟨rfl, rfl⟩ : r' = r ∧ captured' = captured := by
        rcases hbest r' captured' ((same _ _ _).1 hway') with heq | ⟨hne, hprecedes⟩
        · exact heq
        · rcases hbest' r captured ((same _ _ _).2 hway) with ⟨rfl, rfl⟩ | ⟨_, hback⟩
          · exact ⟨rfl, rfl⟩
          · exact absurd hback (Template.not_precedes_of_precedes hne hprecedes)
      rw [hfind, hfind']
      refine ⟨rfl, rfl, fun r'' hr'' => ?_⟩
      obtain rfl := Option.some.inj hr''
      rw [← ht.length_of_ways hway]
      exact hstored.take_congr hstored' (hkept.1.trans hkept'.1.symm)
    · exact absurd ((hsome path).2 ⟨r, captured, hway⟩) hlost'
  · rcases ht'.find_cases m path values with
      ⟨r', captured', _, _, hway', _⟩ | ⟨toggled', after', hfind', _, hchance'⟩
    · exact absurd ((hsome path).1 ⟨r', captured', hway'⟩) hlost
    · rw [hfind, hfind']
      refine ⟨rfl, ?_, fun r hr => by cases hr⟩
      simp only [hsome, ← hchance] at hchance'
      exact Bool.eq_iff_iff.2 hchance'.symm

/-- **Histories that register the same leave trees that answer alike.** -/
theorem find_run_agrees {calls others : List (Call H)} (same : SameRegistered calls others)
    (m : Method) (path : Text) (values : Values) :
    ((empty.run calls).find m path values).Agrees ((empty.run others).find m path values) := by
  refine (run_sound calls).find_agrees (run_sound others) (fun p r captured => ?_) path values
  rw [ways_run_iff, ways_run_iff, same]

end Tree

namespace Router

/-- A route that is found is the answer, with the values of its parameters. -/
theorem route_of_some (router : Router H) {m : Method} {path : Text} {r : Route H}
    (h : (router.tree.find m path router.tree.buffer).route = some r) :
    (router.route m path).1 = .matched
      ⟨r, r.params.zip (router.tree.find m path router.tree.buffer).values⟩ := by
  simp only [route, h]

/-- Without a route, the flag decides on a redirect. -/
theorem route_of_none (router : Router H) {m : Method} {path : Text}
    (h : (router.tree.find m path router.tree.buffer).route = none) :
    (router.route m path).1 =
      if (router.tree.find m path router.tree.buffer).toggled &&
        router.config.redirectTrailingSlash then .redirect (toggleSlash path) else .notFound := by
  simp only [route, h]
  split <;> rfl

/-- Names are paired with as many values as there are names. -/
theorem zip_take_length (names values : List Text) :
    names.zip (values.take names.length) = names.zip values := by
  induction names generalizing values with
  | nil => rfl
  | cons name names ih =>
      cases values with
      | nil => rfl
      | cons value values => simp [ih]

/-- Routers over trees that answer alike answer alike, if they have buffers of one length. -/
theorem route_eq_of_agrees {t t' : Tree H} (room : t.maxParams = t'.maxParams) {m : Method}
    {path : Text} (agrees : ∀ values, (t.find m path values).Agrees (t'.find m path values))
    (config : RouterConfig) :
    ((ofTree t config).router.route m path).1 = ((ofTree t' config).router.route m path).1 := by
  have hbuffer : t'.buffer = t.buffer := by rw [Tree.buffer, Tree.buffer, room]
  obtain ⟨hroute, htoggled, hvalues⟩ := agrees t.buffer
  cases hfound : (t.find m path t.buffer).route with
  | some r =>
      have hfound' : (t'.find m path t'.buffer).route = some r := by
        rw [hbuffer, ← hroute, hfound]
      have hzip : r.params.zip (t.find m path t.buffer).values =
          r.params.zip (t'.find m path t'.buffer).values := by
        rw [← zip_take_length, hvalues r hfound, zip_take_length, hbuffer]
      rw [route_of_some (ofTree t config).router hfound,
        route_of_some (ofTree t' config).router hfound']
      exact congrArg (fun pairs => RouteLookup.matched ⟨r, pairs⟩) hzip
  | none =>
      have hfound' : (t'.find m path t'.buffer).route = none := by
        rw [hbuffer, ← hroute, hfound]
      have hflag : (t.find m path t.buffer).toggled = (t'.find m path t'.buffer).toggled := by
        rw [htoggled, hbuffer]
      rw [route_of_none (ofTree t config).router hfound,
        route_of_none (ofTree t' config).router hfound']
      exact congrArg (fun flag => if flag && config.redirectTrailingSlash then
        RouteLookup.redirect (toggleSlash path) else .notFound) hflag

end Router

end RouteTree
