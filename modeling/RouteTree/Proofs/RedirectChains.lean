/-
**Following redirects.**

A request that is redirected is made again for the target, and so on.  A path without a slash at
its end is sent to a path that has a route.  A path with a slash at its end is sent to a shorter
one, which is never sent back, because the path it came from has no route.  So one comes to an end,
by way of different paths only.

Main definitions:

* `Router.Followed` — the paths that are asked for in turn, and the answer to the last one.

Main results:

* `Router.redirect_cases` — the two kinds of redirects;
* `Router.exists_followed` — following redirects comes to an end;
* `Router.redirects_end` — **it comes to an end, and to no path twice**.
-/
import RouteTree.Proofs.Redirects

set_option autoImplicit false
set_option relaxedAutoImplicit false

namespace RouteTree

variable {H : Type}

namespace Router

/-- **The paths that are asked for in turn when redirects are followed**, and the answer to the
last one, which is no redirect. -/
inductive Followed (r : Router H) (m : Method) : Text → List Text → RouteLookup H → Prop
  /-- The path is not redirected. -/
  | ends {path : Text} (settled : ∀ target, (r.route m path).1 ≠ .redirect target) :
      Followed r m path [path] (r.route m path).1
  /-- The path is redirected, and the target is asked for. -/
  | goesOn {path target : Text} {visited : List Text} {answer : RouteLookup H}
      (sent : (r.route m path).1 = .redirect target) (rest : Followed r m target visited answer) :
      Followed r m path (path :: visited) answer

variable {calls : List (Call H)} {config : RouterConfig} {m : Method} {path : Text}

/-- A redirect drops the slash at the end of a path without a route, or adds one to a path that
then has a route. -/
theorem redirect_cases {target : Text}
    (h : ((ofTree (Tree.empty.run calls) config).router.route m path).1 = .redirect target) :
    (path = target ++ ['/'] ∧ ¬ Serves calls m path) ∨
      (target = path ++ ['/'] ∧ Serves calls m target ∧ ∀ shorter, path ≠ shorter ++ ['/']) := by
  obtain ⟨rfl, hno, _, _, other, htoggles, hserves⟩ := redirect_iff.1 h
  by_cases hslash : ∃ shorter, path = shorter ++ ['/']
  · obtain ⟨shorter, rfl⟩ := hslash
    exact Or.inl ⟨by rw [toggleSlash_append_slash], hno⟩
  · -- without a slash at the end there is one other spelling
    have hnone : ∀ shorter, path ≠ shorter ++ ['/'] := fun shorter heq => hslash ⟨shorter, heq⟩
    rw [toggleSlash_of_no_slash hnone]
    rcases htoggles with rfl | heq
    · exact Or.inr ⟨rfl, hserves, hnone⟩
    · exact absurd heq (hnone other)

/-- A path that is served is not redirected. -/
theorem not_redirect_of_serves (h : Serves calls m path) (target : Text) :
    ((ofTree (Tree.empty.run calls) config).router.route m path).1 ≠ .redirect target :=
  fun hsent => (redirect_iff.1 hsent).2.1 h

/-- Following redirects ends at once at a path that is served. -/
theorem Followed.eq_singleton {visited : List Text} {answer : RouteLookup H}
    (h : Followed (ofTree (Tree.empty.run calls) config).router m path visited answer)
    (hserves : Serves calls m path) : visited = [path] := by
  cases h with
  | ends _ => rfl
  | goesOn sent _ => exact absurd sent (not_redirect_of_serves hserves _)

/-- The paths that are come by are shorter than the first one, but for one that is served. -/
theorem Followed.shorter_or_serves {visited : List Text} {answer : RouteLookup H}
    (h : Followed (ofTree (Tree.empty.run calls) config).router m path visited answer) :
    ∀ p ∈ visited, p = path ∨ p.length < path.length ∨ Serves calls m p := by
  induction h with
  | ends _ => exact fun p hp => Or.inl (List.mem_singleton.1 hp)
  | @goesOn path target visited answer sent rest ih =>
      intro p hp
      rcases List.mem_cons.1 hp with rfl | hmem
      · exact Or.inl rfl
      · rcases redirect_cases sent with ⟨rfl, _⟩ | ⟨_, hserves, _⟩
        · rcases ih p hmem with rfl | hlt | hserves
          · exact Or.inr (Or.inl (by simp))
          · exact Or.inr (Or.inl (by rw [List.length_append]; omega))
          · exact Or.inr (Or.inr hserves)
        · rw [rest.eq_singleton hserves, List.mem_singleton] at hmem
          exact Or.inr (Or.inr (hmem ▸ hserves))

/-- No path is come by twice. -/
theorem Followed.nodup {visited : List Text} {answer : RouteLookup H}
    (h : Followed (ofTree (Tree.empty.run calls) config).router m path visited answer) :
    visited.Nodup := by
  induction h with
  | ends _ => simp
  | @goesOn path target visited answer sent rest ih =>
      refine List.nodup_cons.2 ⟨fun hmem => ?_, ih⟩
      rcases redirect_cases sent with ⟨rfl, hno⟩ | ⟨rfl, hserves, _⟩
      · -- whatever is longer than the target is served, and the path is not
        rcases rest.shorter_or_serves _ hmem with heq | hlt | hserves
        · exact absurd (congrArg List.length heq) (by simp)
        · rw [List.length_append] at hlt
          omega
        · exact hno hserves
      · rw [rest.eq_singleton hserves, List.mem_singleton] at hmem
        exact absurd (congrArg List.length hmem) (by simp)

/-- The last answer is a route, or that there is none. -/
theorem Followed.settled {r : Router H} {visited : List Text} {answer : RouteLookup H}
    (h : Followed r m path visited answer) :
    (∃ found, answer = .matched found) ∨ answer = .notFound := by
  induction h with
  | @ends path settled =>
      cases hroute : (r.route m path).1 with
      | matched found => exact Or.inl ⟨found, rfl⟩
      | redirect target => exact absurd hroute (settled target)
      | notFound => exact Or.inr rfl
  | goesOn _ _ ih => exact ih

/-- Following redirects comes to an end. -/
theorem exists_followed (calls : List (Call H)) (config : RouterConfig) (m : Method)
    (path : Text) : ∃ visited answer,
      Followed (ofTree (Tree.empty.run calls) config).router m path visited answer := by
  induction hlen : path.length using Nat.strong_induction_on generalizing path with
  | _ len ih =>
      by_cases hsent : ∃ target,
          ((ofTree (Tree.empty.run calls) config).router.route m path).1 = .redirect target
      · obtain ⟨target, hsent⟩ := hsent
        rcases redirect_cases hsent with ⟨rfl, _⟩ | ⟨_, hserves, _⟩
        · have hlt : target.length < len := by simp [← hlen]
          obtain ⟨visited, answer, hrest⟩ := ih _ hlt target rfl
          exact ⟨_, _, .goesOn hsent hrest⟩
        · exact ⟨_, _, .goesOn hsent (.ends (not_redirect_of_serves hserves))⟩
      · exact ⟨_, _, .ends fun target h => hsent ⟨target, h⟩⟩

/-- **Following redirects comes to an end, at a route or at none, and to no path twice.**  From a
path without a slash at its end, one redirect leads to a route. -/
theorem redirects_end (calls : List (Call H)) (config : RouterConfig) (m : Method)
    (path : Text) :
    let router := (ofTree (Tree.empty.run calls) config).router
    (∃ visited answer, router.Followed m path visited answer) ∧
    (∀ visited answer, router.Followed m path visited answer →
      visited.Nodup ∧ ((∃ found, answer = .matched found) ∨ answer = .notFound)) ∧
    ((∀ shorter, path ≠ shorter ++ ['/']) → ∀ target,
      (router.route m path).1 = .redirect target →
        ∃ found, (router.route m target).1 = .matched found) := by
  intro router
  refine ⟨exists_followed calls config m path, fun visited answer h => ⟨h.nodup, h.settled⟩, ?_⟩
  intro hnone target hsent
  rcases redirect_cases hsent with ⟨heq, _⟩ | ⟨_, hserves, _⟩
  · exact absurd heq (hnone target)
  · exact matched_iff.2 hserves

/-- Two slashes at the end are dropped one by one, when only three of them have a route of their
own. -/
example :
    let router := (ofTree (Tree.empty.run [.add "/a".toList 0 [Verb.get.method],
      .add "/a///".toList 1 [Verb.get.method]]) { redirectTrailingSlash := true }).router
    (router.route Verb.get.method "/a//".toList).1 = .redirect "/a/".toList ∧
      (router.route Verb.get.method "/a/".toList).1 = .redirect "/a".toList ∧
      (router.route Verb.get.method "/a".toList).1 = .matched ⟨⟨"/a".toList, [], 0⟩, []⟩ := by
  decide +kernel

end Router

end RouteTree
