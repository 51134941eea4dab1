/-
**Where redirects lead.**

A router redirects a request when the other spelling of its path has a route.  A path that ends in
a slash has two other spellings, and the router always takes the shorter one.  When only the longer
one has a route, the redirect leads to a path without one; these are all the redirects that go
astray.

Main results:

* `Router.redirect_iff`, `Router.matched_iff` — when a request is redirected, and when it is
  answered;
* `Router.redirect_astray_iff` — **which redirects do not lead to a route**.
-/
import RouteTree.Proofs.Answers
import RouteTree.Router.Basic

set_option autoImplicit false
set_option relaxedAutoImplicit false

namespace RouteTree

variable {H : Type}

/-! ### The target of a redirect -/

@[simp] theorem toggleSlash_append_slash (shorter : Text) :
    toggleSlash (shorter ++ ['/']) = shorter := by
  simp [toggleSlash]

theorem toggleSlash_of_no_slash {path : Text} (h : ∀ shorter, path ≠ shorter ++ ['/']) :
    toggleSlash path = path ++ ['/'] := by
  refine if_neg fun hlast => ?_
  obtain ⟨shorter, rfl⟩ := List.getLast?_eq_some_iff.1 hlast
  exact h shorter rfl

namespace Router

variable {calls : List (Call H)} {config : RouterConfig} {m : Method} {path : Text}

/-! ### Answers of a router -/

/-- What a router answers is read off what its tree finds. -/
theorem route_cases (calls : List (Call H)) (config : RouterConfig) (m : Method) (path : Text) :
    (∃ found, ((ofTree (Tree.empty.run calls) config).router.route m path).1 = .matched found ∧
      Serves calls m path) ∨
    ¬ Serves calls m path ∧ (
      (((ofTree (Tree.empty.run calls) config).router.route m path).1 =
          .redirect (toggleSlash path) ∧ config.redirectTrailingSlash = true ∧ path ≠ [] ∧
        ∃ other, path.Toggles other ∧ Serves calls m other) ∨
      ((ofTree (Tree.empty.run calls) config).router.route m path).1 = .notFound ∧
        ¬ (config.redirectTrailingSlash = true ∧ path ≠ [] ∧
          ∃ other, path.Toggles other ∧ Serves calls m other)) := by
  have hsealed : ∀ values, (ofTree (Tree.empty.run calls) config).router.tree.find m path values =
      (Tree.empty.run calls).find m path values := fun _ => rfl
  have hconfig : (ofTree (Tree.empty.run calls) config).router.config = config := rfl
  unfold route
  rw [hsealed, hconfig]
  rcases Tree.find_run_cases calls m path (ofTree (Tree.empty.run calls) config).router.tree.buffer
    with ⟨r, after, hfind, hserves⟩ | ⟨toggled, after, hfind, hno, hchance⟩
  · rw [hfind]
    exact Or.inl ⟨_, rfl, hserves⟩
  · rw [hfind]
    refine Or.inr ⟨hno, ?_⟩
    cases toggled with
    | false =>
        refine Or.inr ⟨rfl, fun h => ?_⟩
        exact Bool.false_ne_true (hchance.2 h.2)
    | true =>
        cases hflag : config.redirectTrailingSlash with
        | false => exact Or.inr ⟨rfl, fun h => Bool.false_ne_true h.1⟩
        | true => exact Or.inl ⟨rfl, rfl, hchance.1 rfl⟩

/-- A request is answered when its path is served. -/
theorem matched_iff :
    (∃ found, ((ofTree (Tree.empty.run calls) config).router.route m path).1 = .matched found) ↔
      Serves calls m path := by
  rcases route_cases calls config m path with ⟨found, hroute, hserves⟩ |
    ⟨hno, ⟨hroute, _⟩ | ⟨hroute, _⟩⟩
  · exact iff_of_true ⟨found, hroute⟩ hserves
  · exact iff_of_false (by simp [hroute]) hno
  · exact iff_of_false (by simp [hroute]) hno

/-- A request is redirected when its path is not served, but another spelling of it is. -/
theorem redirect_iff {target : Text} :
    ((ofTree (Tree.empty.run calls) config).router.route m path).1 = .redirect target ↔
      target = toggleSlash path ∧ ¬ Serves calls m path ∧ config.redirectTrailingSlash = true ∧
        path ≠ [] ∧ ∃ other, path.Toggles other ∧ Serves calls m other := by
  rcases route_cases calls config m path with ⟨found, hroute, hserves⟩ |
    ⟨hno, ⟨hroute, hchance⟩ | ⟨hroute, hchance⟩⟩
  · simp [hroute, hserves]
  · rw [hroute, RouteLookup.redirect.injEq]
    exact ⟨fun h => ⟨h.symm, hno, hchance⟩, fun h => h.1.symm⟩
  · exact iff_of_false (by simp [hroute]) fun h => hchance h.2.2

/-- **A redirect goes astray exactly when the path ends in a slash, and of its other spellings
only the longer one is served.** -/
theorem redirect_astray_iff (calls : List (Call H)) (config : RouterConfig) (m : Method)
    (path : Text) :
    let router := (ofTree (Tree.empty.run calls) config).router
    (∃ target, (router.route m path).1 = .redirect target ∧
      ¬ (target ≠ [] ∧ ∃ found, (router.route m target).1 = .matched found)) ↔
    config.redirectTrailingSlash = true ∧ ∃ shorter, path = shorter ++ ['/'] ∧
      ¬ Serves calls m path ∧ ¬ Serves calls m shorter ∧ Serves calls m (path ++ ['/']) := by
  intro router
  have hastray : ∀ target, ¬ (target ≠ [] ∧ Serves calls m target) ↔ ¬ Serves calls m target := by
    refine fun target => not_congr (and_iff_right_of_imp ?_)
    rintro hserves rfl
    exact Tree.not_serves_nil calls m hserves
  simp only [router, redirect_iff, matched_iff, hastray]
  constructor
  · rintro ⟨_, ⟨rfl, hno, hconfig, hne, other, htoggles, hserves⟩, hlost⟩
    refine ⟨hconfig, ?_⟩
    by_cases hslash : ∃ shorter, path = shorter ++ ['/']
    · obtain ⟨shorter, rfl⟩ := hslash
      rw [toggleSlash_append_slash] at hlost
      refine ⟨shorter, rfl, hno, hlost, ?_⟩
      rcases htoggles with rfl | h
      · exact hserves
      · obtain rfl := List.append_cancel_right h
        exact absurd hserves hlost
    · -- without a slash at the end there is one other spelling, and it is the target
      rw [toggleSlash_of_no_slash fun shorter h => hslash ⟨shorter, h⟩] at hlost
      rcases htoggles with rfl | h
      · exact absurd hserves hlost
      · exact absurd ⟨other, h⟩ hslash
  · rintro ⟨hconfig, shorter, rfl, hno, hlost, hserves⟩
    refine ⟨shorter, ⟨(toggleSlash_append_slash shorter).symm, hno, hconfig, by simp, _, Or.inl rfl,
      hserves⟩, hlost⟩

/-- A template with two slashes at its end is what it takes: the path with one of them is sent to
the path with none, and that one is not found. -/
theorem redirect_astray_double_slash :
    let router := (ofTree (Tree.empty.run [.add "/a//".toList 0 [Verb.get.method]])
      { redirectTrailingSlash := true }).router
    (router.route Verb.get.method "/a/".toList).1 = .redirect "/a".toList ∧
      (router.route Verb.get.method "/a".toList).1 = .notFound := by
  decide +kernel

end Router

end RouteTree
