/-
**URLs and look-ups undo each other.**

A look-up takes a path apart into a route and values, and the route puts a path together from
values.  What a look-up has taken apart is put together to the same path again.  The other way
round, a path that a route has put together is found, but not always under the same route: the
path may be one that another template takes first.  Such a template *overtakes* the other one where
they part: it is at its end there or goes on with a literal character, and the other one has a
placeholder, or it goes on with a `:name` and the other one with a `*name`.

Main definitions:

* `Template.Overtakes` — a template takes paths away from another one.

Main results:

* `Tree.Sound.overtakes_of_ways` — of two routes that one path leads to, the preferred one
  overtakes the other;
* `Tree.url_of_find` — **a route makes the path of what was found of it**;
* `Tree.find_of_url` — **a path that a route made is found under it, or under one that overtakes
  it**.
-/
import RouteTree.Proofs.Answers
import RouteTree.Proofs.Filling
import RouteTree.Proofs.Listing
import RouteTree.Router.Basic

set_option autoImplicit false
set_option relaxedAutoImplicit false

namespace RouteTree

variable {H : Type}

namespace Template

/-! ### Templates that take paths away -/

/-- **A template takes paths away from another one**: right after their longest common beginning,
the other one has a placeholder, and this one ends or has a literal character there, or has a
`:name` where the other one has a `*name`. -/
def Overtakes (first second : Text) : Prop :=
  match (Text.fork first second).left, (Text.fork first second).right with
  | _, [] => False
  | [], b :: _ => isMarker b = true
  | a :: _, b :: _ => isMarker b = true ∧ (isMarker a = false ∨ a = ':' ∧ b = '*')

/-- A template that is preferred to another one overtakes it, if no literal character goes on where
it ends. -/
theorem overtakes_of_outranks {first second : Text} (h : Outranks first second)
    (ends : ∀ b more, second = first ++ b :: more → isMarker b = true) :
    Overtakes first second := by
  obtain ⟨hne, hprecedes⟩ := h
  have hleft := Text.fork_left first second
  have hright := Text.fork_right first second
  unfold Precedes at hprecedes
  unfold Overtakes
  generalize (Text.fork first second).left = left at *
  generalize (Text.fork first second).right = right at *
  cases right with
  | nil =>
      cases left with
      | nil => exact absurd (hleft.symm.trans hright) hne
      | cons a left => exact hprecedes
  | cons b right =>
      cases left with
      | nil =>
          rw [List.append_nil] at hleft
          rw [hleft] at hright
          exact ends b right hright.symm
      | cons a left => exact hprecedes

/-! ### Rows that go on -/

/-- What is covered behind a `:name` placeholder opens with a slash. -/
theorem Linked.opens_of_covers {name : Text} {segs : List Segment} {path : Text}
    {values : List Text} (h : Linked (.param name :: segs)) (hcovers : Covers segs path values) :
    ∀ c ∈ path.head?, c = '/' := by
  obtain ⟨_, hnext, _⟩ := linked_cons.1 h
  cases segs with
  | nil =>
      obtain ⟨rfl, _⟩ := covers_nil_iff.1 hcovers
      simp
  | cons s segs =>
      have hs := hnext s rfl
      cases s with
      | literal run =>
          have hrun : run.head? = some '/' := hs
          obtain ⟨more, rfl, _⟩ := covers_literal_iff.1 hcovers
          simp [List.head?_append, hrun]
      | param name => exact hs.elim
      | wildcard name => exact hs.elim

/-- A row that goes on with a literal run does not cover what it has covered up to there. -/
theorem not_covers_append_literal {segs rest : List Segment} {run path : Text}
    {values values' : List Text} (h : Linked (segs ++ .literal run :: rest))
    (hcovers : Covers segs path values) : ¬ Covers (segs ++ .literal run :: rest) path values' := by
  induction segs generalizing path values values' with
  | nil =>
      obtain ⟨rfl, _⟩ := covers_nil_iff.1 hcovers
      intro hlonger
      obtain ⟨more, hnil, _⟩ := covers_literal_iff.1 hlonger
      have hrun : run ≠ [] := (h.1 _ List.mem_cons_self).ne_nil
      exact hrun (List.append_eq_nil_iff.1 hnil.symm).1
  | cons s segs ih =>
      have hsegs := (linked_cons.1 h).2.2
      intro hlonger
      cases s with
      | literal t =>
          obtain ⟨more, rfl, hmore⟩ := covers_literal_iff.1 hcovers
          obtain ⟨more', heq, hmore'⟩ := covers_literal_iff.1 hlonger
          obtain rfl := List.append_cancel_left heq
          exact ih hsegs hmore hmore'
      | param name =>
          obtain ⟨value, more, _, rfl, _, _, hwithin, hmore⟩ := covers_param_iff.1 hcovers
          obtain ⟨value', more', _, heq, _, _, hwithin', hmore'⟩ := covers_param_iff.1 hlonger
          -- both take the value up to the same slash
          have hleft : Linked (.param name :: segs) := h.left_of_append
          have hopens := hleft.opens_of_covers hmore
          have hopens' := h.opens_of_covers hmore'
          obtain ⟨_, rfl⟩ := Text.span_unique hwithin hwithin' hopens hopens' heq
          exact ih hsegs hmore hmore'
      | wildcard name =>
          have hnil := Linked.eq_nil_of_wildcard h
          simp at hnil

end Template

namespace Tree

/-! ### Routes that share a path -/

/-- The template of a route is what the way to it spells. -/
theorem Sound.exists_way {t : Tree H} (ht : t.Sound) {m : Method} {path : Text} {r : Route H}
    {captured : List Text} (h : t.root.ways m path r captured) :
    ∃ segs d, t.root.Reach segs d ∧ r.template = Template.spelled segs ∧
      Template.Covers segs path captured := by
  obtain ⟨segs, d, hreach, hroute, hcovers⟩ := h
  obtain ⟨v, _, hv⟩ := Node.route?_eq_some_iff.1 hroute
  exact ⟨segs, d, hreach, (ht.template_of_reach hreach hv).1, hcovers⟩

/-- Of two routes that one path leads to, the one that is preferred overtakes the other. -/
theorem Sound.overtakes_of_ways {t : Tree H} (ht : t.Sound) {m : Method} {path : Text}
    {r r' : Route H} {captured captured' : List Text} (hway : t.root.ways m path r captured)
    (hway' : t.root.ways m path r' captured')
    (h : Template.Outranks r.template r'.template) :
    Template.Overtakes r.template r'.template := by
  obtain ⟨segs, d, hreach, htemplate, hcovers⟩ := ht.exists_way hway
  obtain ⟨segs', d', hreach', htemplate', hcovers'⟩ := ht.exists_way hway'
  refine Template.overtakes_of_outranks h fun b more hmore => ?_
  rw [htemplate, htemplate'] at hmore
  obtain ⟨rest, rfl, _, hspelled⟩ :=
    Node.reach_of_spelled_append ht.valid hreach hreach' hmore
  have hlinked := Node.linked_of_reach ht.valid hreach'
  cases rest with
  | nil => cases hspelled
  | cons s rest =>
      have hproper := hlinked.1 s (by simp)
      cases hproper with
      | literal _ _ => exact absurd hcovers' (Template.not_covers_append_literal hlinked hcovers)
      | param _ _ =>
          obtain ⟨rfl, _⟩ := List.cons.inj hspelled
          rfl
      | wildcard _ _ =>
          obtain ⟨rfl, _⟩ := List.cons.inj hspelled
          rfl

/-- The values of paired names are as many values as there are names. -/
theorem map_snd_zip (names values : List Text) :
    (names.zip values).map Prod.snd = values.take names.length := by
  induction names generalizing values with
  | nil => rfl
  | cons name names ih =>
      cases values with
      | nil => rfl
      | cons value values => simpa using ih values

/-! ### Round trips -/

/-- **A route makes the path of what was found of it**: the values that a look-up has captured, or
that a router pairs with the names of the parameters, are put together to the path that was
asked for. -/
theorem url_of_find (calls : List (Call H)) (config : RouterConfig) (m : Method) (path : Text)
    (values : Values) (room : (empty.run calls).maxParams ≤ values.length) :
    (∀ r, ((empty.run calls).find m path values).route = some r →
      r.url (((empty.run calls).find m path values).values.take r.params.length) = .ok path) ∧
    ∀ found, ((Router.ofTree (empty.run calls) config).router.route m path).1 = .matched found →
      found.route.url (found.pathParams.map Prod.snd) = .ok path := by
  have hfind : ∀ values : Values, (empty.run calls).maxParams ≤ values.length → ∀ r,
      ((empty.run calls).find m path values).route = some r →
      r.url (((empty.run calls).find m path values).values.take r.params.length) = .ok path := by
    intro values room r hr
    obtain ⟨⟨segs, hcut, hparams⟩, _, hmatches, _⟩ := found_of_route room hr
    exact Route.url_of_matches hcut hparams hmatches
  refine ⟨hfind values room, fun found hfound => ?_⟩
  -- the router's own buffer has a place for every value
  have hroom : (empty.run calls).maxParams ≤ (empty.run calls).buffer.length := by
    simp [buffer]
  have hurl := hfind _ hroom
  have hrouter : (Router.ofTree (empty.run calls) config).router.tree.find m path
      (Router.ofTree (empty.run calls) config).router.tree.buffer =
        (empty.run calls).find m path (empty.run calls).buffer := rfl
  unfold Router.route at hfound
  rw [hrouter] at hfound
  generalize (empty.run calls).find m path (empty.run calls).buffer = answer at hurl hfound
  obtain ⟨route, toggled, after⟩ := answer
  cases route with
  | none =>
      dsimp only at hfound
      split at hfound <;> cases hfound
  | some r =>
      cases hfound
      have h := hurl r rfl
      -- pairing the values with the names takes as many values as there are names
      rw [map_snd_zip]
      exact h

/-- A value for each of two placeholders is found in front of a longer buffer, and the path is made
of them again. -/
theorem url_of_find_wildcard :
    let calls := [Call.add "/:user/files/*rest".toList 0 [Verb.get.method]]
    let r : Route Nat := ⟨"/:user/files/*rest".toList, ["user".toList, "rest".toList], 0⟩
    (empty.run calls).maxParams ≤ 3 ∧
      r.url ["a:b".toList, "x/*y".toList] = .ok "/a:b/files/x/*y".toList := by
  intro calls r
  have room : (empty.run calls).maxParams ≤ 3 := by decide +kernel
  have hfind := (url_of_find calls {} Verb.get.method "/a:b/files/x/*y".toList [[], [], []] room).1
  have hroute : ((empty.run calls).find Verb.get.method "/a:b/files/x/*y".toList
      [[], [], []]).route = some r := by decide +kernel
  have htake : (((empty.run calls).find Verb.get.method "/a:b/files/x/*y".toList
      [[], [], []]).values.take 2) = ["a:b".toList, "x/*y".toList] := by decide +kernel
  have hurl := hfind r hroute
  rw [show r.params.length = 2 from rfl, htake] at hurl
  exact ⟨room, hurl⟩

/-- **A path that a route made is found under it, with the same values, or under a route that
overtakes it.** -/
theorem find_of_url (calls : List (Call H)) (m : Method) (template : Text) (handler : H)
    (h : Registered calls m template handler) :
    ∃ r, (empty.run calls).routeOf? m template = some r ∧ r.handler = handler ∧
      ∀ values, r.Accepts values → ∃ path, r.url values = .ok path ∧ ∀ buffer : Values,
        let found := (empty.run calls).find m path buffer
        found.toggled = false ∧
          ((found.route = some r ∧
              (r.params.length ≤ buffer.length →
                found.values.take r.params.length = values)) ∨
            ∃ winner, found.route = some winner ∧
              Template.Overtakes winner.template template) := by
  have ht := run_sound calls
  obtain ⟨segs, hcut⟩ := exists_segments_of_registered h
  refine ⟨⟨template, Template.paramNames segs, handler⟩,
    routeOf?_eq_some_iff.2 ⟨rfl, h, segs, hcut, rfl⟩, rfl, fun values hvalues => ?_⟩
  obtain ⟨path, hurl, hmatches⟩ := Route.matches_of_accepts hcut rfl hvalues
  refine ⟨path, hurl, fun buffer => ?_⟩
  have hway : (empty.run calls).root.ways m path ⟨template, Template.paramNames segs, handler⟩
      values := ways_run_iff.2 ⟨h, hmatches, segs, hcut, rfl⟩
  rcases ht.find_cases m path buffer with
    ⟨r, captured, after, hfind, hfound, hbest, hkept, hstored⟩ | ⟨_, _, _, hlost, _⟩
  · rw [hfind]
    refine ⟨rfl, ?_⟩
    rcases hbest _ _ hway with ⟨rfl, rfl⟩ | houtranks
    · refine Or.inl ⟨rfl, fun room => ?_⟩
      -- there are as many values as names, and they stand in front of the buffer
      obtain ⟨segs', hcut', hcovers⟩ := hmatches
      obtain rfl := Except.ok.inj (hcut.symm.trans hcut')
      have hlen := Template.length_of_covers hcovers
      dsimp only at room ⊢
      rw [← hlen] at room ⊢
      exact hstored.take_eq (by rw [hkept.1]; exact room)
    · exact Or.inr ⟨r, rfl, ht.overtakes_of_ways hfound hway houtranks⟩
  · exact absurd ⟨_, _, hway⟩ hlost

/-- A value that happens to be the literal text of another template leads there. -/
theorem find_of_url_overtaken :
    let calls := [Call.add "/users/:id".toList 0 [Verb.get.method],
      Call.add "/users/list".toList 1 [Verb.get.method]]
    Registered calls Verb.get.method "/users/:id".toList 0 ∧
      (∃ r, (empty.run calls).routeOf? Verb.get.method "/users/:id".toList = some r ∧
        r.url ["list".toList] = .ok "/users/list".toList) ∧
      ((empty.run calls).find Verb.get.method "/users/list".toList [[]]).route =
        some ⟨"/users/list".toList, [], 1⟩ ∧
      Template.Overtakes "/users/list".toList "/users/:id".toList := by
  intro calls
  have hreg : Registered calls Verb.get.method "/users/:id".toList 0 :=
    ⟨[], _, _, rfl, ⟨rfl, rfl, by decide⟩, by decide +kernel⟩
  have hfind : ((empty.run calls).find Verb.get.method "/users/list".toList [[]]).route =
      some ⟨"/users/list".toList, [], 1⟩ := by decide +kernel
  have hcut : Template.segments "/users/:id".toList =
      .ok [.literal "/users/".toList, .param ":id".toList] := by decide +kernel
  obtain ⟨r, hr, hhandler, hround⟩ := find_of_url calls _ _ _ hreg
  obtain ⟨htemplate, _, segs, hsegs, hparams⟩ := routeOf?_eq_some_iff.1 hr
  obtain rfl := Except.ok.inj (hsegs.symm.trans hcut)
  have htakes : List.Forall₂ Segment.Takes
      (Template.placeholders [.literal "/users/".toList, .param ":id".toList])
      ["list".toList] := .cons ⟨by decide, List.all_eq_true.1 (by decide)⟩ .nil
  obtain ⟨path, hurl, hfound⟩ := hround _ ⟨_, htemplate ▸ hcut, htakes⟩
  have hpath : path = "/users/list".toList := by
    rw [Route.url_eq_ok hparams htakes, htemplate] at hurl
    exact (Except.ok.inj hurl).symm.trans (by decide +kernel)
  subst hpath
  refine ⟨hreg, ⟨r, hr, hurl⟩, hfind, ?_⟩
  rcases (hfound [[]]).2 with ⟨hown, _⟩ | ⟨winner, hwinner, hovertakes⟩
  · -- the handler that was found is the other one
    obtain rfl := Option.some.inj (hown.symm.trans hfind)
    cases hhandler
  · obtain rfl := Option.some.inj (hwinner.symm.trans hfind)
    exact hovertakes

end Tree

end RouteTree
