/-
**All ways to read a parameter agree.**

A match pairs the names of a route with the values that its placeholders have taken.  A value can
be asked for by its name, looked up in the table that each name has once, or taken out of the row
of values at the place where the route has the name.  The first way searches the pairs from the
back, the second one has been filled from the front, and the third one searches the names.  When
the pairs have all the names of the route, the three ways read the same: the value of the last
placeholder that is called so.

Main definitions:

* `RouteMatch.captures` — the values alone;
* `RouteMatch.Paired` — each name of the route stands in front of a value;
* `RouteMatch.Agreed` — **the three ways agree on a name**.

Main results:

* `RouteMatch.lookup_paramTable`, `RouteMatch.nodup_paramTable` — the table has each name once,
  with its last value;
* `RouteMatch.Paired.agreed` — the ways to read agree on all names of paired values;
* `Router.parameters_agree` — **they agree on whatever a router has matched**.
-/
import RouteTree.Proofs.Agreement
import RouteTree.Proofs.RoundTrip

set_option autoImplicit false
set_option relaxedAutoImplicit false

namespace RouteTree

variable {H : Type}

namespace RouteMatch

/-! ### The table -/

theorem lookup_pair_cons (n v : Text) (rest : List (Text × Text)) (name : Text) :
    ((n, v) :: rest).lookup name = if name = n then some v else rest.lookup name := by
  by_cases hname : name = n
  · simp [hname]
  · rw [List.lookup_cons, beq_eq_false_iff_ne.2 hname, if_neg hname]

theorem assign_cons (n v name value : Text) (rest : List (Text × Text)) :
    assign ((n, v) :: rest) name value =
      if n = name then (name, value) :: rest else (n, v) :: assign rest name value := rfl

/-- After an assignment the name has the new value, and all others have what they had. -/
theorem lookup_assign (pairs : List (Text × Text)) (name value other : Text) :
    (assign pairs name value).lookup other =
      if other = name then some value else pairs.lookup other := by
  induction pairs with
  | nil => exact lookup_pair_cons name value [] other
  | cons p rest ih =>
      obtain ⟨n, v⟩ := p
      rw [assign_cons]
      by_cases hn : n = name
      · subst hn
        rw [if_pos rfl, lookup_pair_cons, lookup_pair_cons]
        by_cases hother : other = n
        · rw [if_pos hother, if_pos hother]
        · rw [if_neg hother, if_neg hother, if_neg hother]
      · rw [if_neg hn, lookup_pair_cons, ih, lookup_pair_cons]
        by_cases hother : other = n
        · -- the entry in front is that of another name
          subst hother
          rw [if_pos rfl, if_neg hn, if_pos rfl]
        · rw [if_neg hother, if_neg hother]

theorem mem_names_assign {pairs : List (Text × Text)} {name value other : Text} :
    other ∈ (assign pairs name value).map Prod.fst ↔
      other = name ∨ other ∈ pairs.map Prod.fst := by
  induction pairs with
  | nil => simp [assign]
  | cons p rest ih =>
      obtain ⟨n, v⟩ := p
      rw [assign_cons]
      by_cases hn : n = name
      · subst hn
        simp
      · rw [if_neg hn, List.map_cons, List.mem_cons, ih, List.map_cons, List.mem_cons]
        exact or_left_comm

/-- An assignment does not give a name a second entry. -/
theorem nodup_assign {pairs : List (Text × Text)} (h : (pairs.map Prod.fst).Nodup)
    (name value : Text) : ((assign pairs name value).map Prod.fst).Nodup := by
  induction pairs with
  | nil => exact List.nodup_singleton name
  | cons p rest ih =>
      obtain ⟨n, v⟩ := p
      obtain ⟨hfresh, hrest⟩ := List.nodup_cons.1 h
      rw [assign_cons]
      by_cases hn : n = name
      · subst hn
        rw [if_pos rfl]
        exact h
      · rw [if_neg hn, List.map_cons, List.nodup_cons]
        refine ⟨fun hmem => ?_, ih hrest⟩
        rcases mem_names_assign.1 hmem with heq | hmem
        · exact hn heq
        · exact hfresh hmem

/-- Of the pairs that go into a table the last one of a name counts, and what the table had before
counts for names without a pair. -/
theorem lookup_foldl_assign (pairs table : List (Text × Text)) (name : Text) :
    (pairs.foldl (fun table p => assign table p.1 p.2) table).lookup name =
      (pairs.reverse.lookup name).or (table.lookup name) := by
  induction pairs generalizing table with
  | nil => rfl
  | cons p pairs ih =>
      rw [List.foldl_cons, ih, List.reverse_cons, List.lookup_append, Option.or_assoc,
        lookup_assign, lookup_pair_cons]
      by_cases hname : name = p.1
      · rw [if_pos hname, if_pos hname, Option.some_or]
      · rw [if_neg hname, if_neg hname, List.lookup_nil, Option.none_or]

/-- The table and the pairs are read the same. -/
theorem lookup_paramTable (m : RouteMatch H) (name : Text) :
    m.paramTable.lookup name = m.getParam? name := by
  rw [paramTable, lookup_foldl_assign, List.lookup_nil, Option.or_none, getParam?]

/-- The table has each name once. -/
theorem nodup_paramTable (m : RouteMatch H) : (m.paramTable.map Prod.fst).Nodup := by
  have hfold : ∀ pairs table : List (Text × Text), (table.map Prod.fst).Nodup →
      ((pairs.foldl (fun table p => assign table p.1 p.2) table).map Prod.fst).Nodup := by
    intro pairs
    induction pairs with
    | nil =>
        intro table h
        exact h
    | cons p pairs ih =>
        intro table h
        exact ih _ (nodup_assign h p.1 p.2)
  exact hfold m.pathParams [] List.nodup_nil

end RouteMatch

/-! ### The last placeholder of a name -/

/-- A name of a row stands somewhere for the last time. -/
theorem exists_last_of_mem {names : List Text} {name : Text} (h : name ∈ names) :
    ∃ before after, names = before ++ name :: after ∧ name ∉ after := by
  obtain ⟨after, before, heq, hfresh⟩ := List.eq_append_cons_of_mem (List.mem_reverse.2 h)
  refine ⟨before.reverse, after.reverse, ?_, fun hmem => hfresh (List.mem_reverse.1 hmem)⟩
  rw [← List.reverse_reverse names, heq]
  simp

namespace Route

/-- A name that a route does not have has no place. -/
theorem paramIndex?_eq_none_iff {r : Route H} {name : Text} :
    r.paramIndex? name = none ↔ name ∉ r.params := by
  rw [paramIndex?, Option.map_eq_none_iff, List.idxOf?_eq_none_iff, List.mem_reverse]

/-- The place of a name is that of its last occurrence. -/
theorem paramIndex?_of_last {r : Route H} {before after : List Text} {name : Text}
    (h : r.params = before ++ name :: after) (last : name ∉ after) :
    r.paramIndex? name = some before.length := by
  have hidx : r.params.reverse.idxOf? name = some after.length := by
    have hreverse : r.params.reverse = after.reverse ++ name :: before.reverse := by
      simp [h]
    rw [List.idxOf?_eq_some_iff]
    refine ⟨?_, ?_, fun j hj hname => ?_⟩
    · rw [hreverse, List.length_append, List.length_reverse, List.length_cons]
      omega
    · simp [hreverse]
    · -- what stands in front, from the back, is one of the names behind
      have hmem : name ∈ after.reverse := by
        rw [← hname]
        simp only [hreverse]
        rw [List.getElem_append_left (by simpa using hj)]
        exact List.getElem_mem _
      exact last (List.mem_reverse.1 hmem)
  rw [paramIndex?, hidx, Option.map_some, h, List.length_append, List.length_cons]
  congr 1
  omega

end Route

namespace RouteMatch

/-- The values of a match, without their names. -/
def captures (m : RouteMatch H) : List Text := m.pathParams.map Prod.snd

/-- A match has one entry for each name of its route, in the same order. -/
def Paired (m : RouteMatch H) : Prop := m.pathParams.map Prod.fst = m.route.params

/-- **The three ways to read a parameter agree on a name**: all find nothing, or all find the value
of the last placeholder that is called so. -/
structure Agreed (m : RouteMatch H) (name : Text) : Prop where
  /-- The table has what the pairs have. -/
  table : m.paramTable.lookup name = m.getParam? name
  /-- The place of the name leads to the same value. -/
  index : (m.route.paramIndex? name).bind (m.captures[·]?) = m.getParam? name
  /-- A name has no place exactly when it has no value. -/
  absent : m.route.paramIndex? name = none ↔ m.getParam? name = none
  /-- That is so when the route does not have the name. -/
  missing : m.getParam? name = none ↔ name ∉ m.route.params
  /-- Otherwise the value is that of the last placeholder of that name. -/
  last : ∀ before after, m.route.params = before ++ name :: after → name ∉ after →
    ∃ value, m.captures[before.length]? = some value ∧ m.getParam? name = some value

/-- A parameter without a pair has no value. -/
theorem getParam?_eq_none_iff {m : RouteMatch H} {name : Text} :
    m.getParam? name = none ↔ name ∉ m.pathParams.map Prod.fst := by
  rw [getParam?, List.lookup_eq_none_iff, List.mem_map]
  constructor
  · rintro h ⟨p, hp, rfl⟩
    simpa using h p (List.mem_reverse.2 hp)
  · intro h p hp
    rw [bne_iff_ne]
    rintro rfl
    exact h ⟨p, List.mem_reverse.1 hp, rfl⟩

/-- The last pair of a name is the one that is found. -/
theorem getParam?_of_last {m : RouteMatch H} {before after : List (Text × Text)}
    {name value : Text} (h : m.pathParams = before ++ (name, value) :: after)
    (last : name ∉ after.map Prod.fst) : m.getParam? name = some value := by
  rw [getParam?, List.lookup_eq_some_iff]
  refine ⟨after.reverse, before.reverse, by simp [h], fun p hp => ?_⟩
  rw [bne_iff_ne]
  rintro rfl
  exact last (List.mem_map_of_mem (List.mem_reverse.1 hp))

/-- The last placeholder of a name, its value, and what the pairs have. -/
theorem Paired.value_of_last {m : RouteMatch H} (h : m.Paired) {before after : List Text}
    {name : Text} (hparams : m.route.params = before ++ name :: after) (last : name ∉ after) :
    ∃ value, m.captures[before.length]? = some value ∧ m.getParam? name = some value := by
  rw [Paired, hparams] at h
  obtain ⟨front, rest, hpairs, rfl, hrest⟩ := List.map_eq_append_iff.1 h
  obtain ⟨⟨n, value⟩, back, rfl, rfl, rfl⟩ := List.map_eq_cons_iff.1 hrest
  refine ⟨value, ?_, getParam?_of_last hpairs last⟩
  rw [captures, hpairs]
  simp

/-- **When each name of the route has its value, all ways to read it agree.** -/
theorem Paired.agreed {m : RouteMatch H} (h : m.Paired) (name : Text) : m.Agreed name := by
  have hmissing : m.getParam? name = none ↔ name ∉ m.route.params := by
    rw [getParam?_eq_none_iff, h]
  refine ⟨m.lookup_paramTable name, ?_, Route.paramIndex?_eq_none_iff.trans hmissing.symm,
    hmissing, fun before after hparams last => h.value_of_last hparams last⟩
  by_cases hmem : name ∈ m.route.params
  · obtain ⟨before, after, hparams, last⟩ := exists_last_of_mem hmem
    obtain ⟨value, hvalue, hget⟩ := h.value_of_last hparams last
    rw [Route.paramIndex?_of_last hparams last, Option.bind_some, hvalue, hget]
  · rw [Route.paramIndex?_eq_none_iff.2 hmem, hmissing.2 hmem]
    rfl

end RouteMatch

/-! ### What a router matches -/

namespace Router

/-- What a router has matched, its tree has found, and the names are paired with the values. -/
theorem exists_find_of_matched {t : Tree H} {config : RouterConfig} {m : Method} {path : Text}
    {found : RouteMatch H}
    (h : ((ofTree t config).router.route m path).1 = .matched found) :
    (t.find m path t.buffer).route = some found.route ∧
      found.pathParams = found.route.params.zip (t.find m path t.buffer).values := by
  have hrouter : (ofTree t config).router.tree.find m path (ofTree t config).router.tree.buffer =
      t.find m path t.buffer := rfl
  unfold route at h
  rw [hrouter] at h
  generalize t.find m path t.buffer = answer at h ⊢
  obtain ⟨r, toggled, after⟩ := answer
  cases r with
  | none =>
      dsimp only at h
      split at h <;> cases h
  | some r =>
      cases h
      exact ⟨rfl, rfl⟩

/-- **All ways to read a parameter of a match agree.**  A match has exactly one entry for each
parameter of its route, in order and with the value that the placeholder takes; and whatever the
name, the pairs, the table and the place of the name lead to the same value, that of the last
placeholder of that name, or all to none. -/
theorem parameters_agree (calls : List (Call H)) (config : RouterConfig) (m : Method)
    (path : Text) (found : RouteMatch H)
    (h : ((ofTree (Tree.empty.run calls) config).router.route m path).1 = .matched found) :
    (∃ segs, Template.segments found.route.template = .ok segs ∧
      found.route.params = Template.paramNames segs) ∧
    found.pathParams.map Prod.fst = found.route.params ∧
    (∀ captured, Template.Matches found.route.template path captured ↔
      captured = found.captures) ∧
    (found.paramTable.map Prod.fst).Nodup ∧
    ∀ name, found.Agreed name := by
  obtain ⟨hroute, hpairs⟩ := exists_find_of_matched h
  have room : (Tree.empty.run calls).maxParams ≤ (Tree.empty.run calls).buffer.length := by
    simp [Tree.buffer]
  obtain ⟨hcut, _, hmatches, _⟩ := Tree.found_of_route room hroute
  obtain ⟨captured, hlength, honly, _⟩ := Tree.exists_stored_of_route hroute
  -- the values in front of the buffer are as many as the names, so that none is without a value
  have htake := (honly _).1 hmatches
  have hcaptures : found.captures = captured := by
    rw [RouteMatch.captures, hpairs, Tree.map_snd_zip, htake]
  have hpaired : found.Paired := by
    rw [RouteMatch.Paired, hpairs]
    refine List.map_fst_zip ?_
    rw [← hlength, ← htake, List.length_take]
    omega
  refine ⟨hcut, hpaired, ?_, found.nodup_paramTable, hpaired.agreed⟩
  rw [hcaptures]
  exact honly

/-- The inner one of two placeholders of one name is read. -/
theorem parameters_agree_repeated_name :
    let router := (ofTree (Tree.empty.run [.add "/org/:id/user/:id".toList 0
      [Verb.get.method]]) {}).router
    let found : RouteMatch Nat := ⟨⟨"/org/:id/user/:id".toList, ["id".toList, "id".toList], 0⟩,
      [("id".toList, "acme".toList), ("id".toList, "42".toList)]⟩
    (router.route Verb.get.method "/org/acme/user/42".toList).1 = .matched found ∧
      found.getParam? "id".toList = some "42".toList ∧
      found.paramTable.lookup "id".toList = some "42".toList ∧
      found.route.paramIndex? "id".toList = some 1 := by
  intro router found
  have hfound : (router.route Verb.get.method "/org/acme/user/42".toList).1 = .matched found := by
    decide +kernel
  obtain ⟨_, _, _, _, hagreed⟩ := parameters_agree _ _ _ _ found hfound
  have hread := hagreed "id".toList
  obtain ⟨value, hvalue, hget⟩ := hread.last ["id".toList] [] rfl List.not_mem_nil
  obtain rfl := Option.some.inj hvalue
  exact ⟨hfound, hget, hread.table.trans hget, rfl⟩

end Router

end RouteTree
