/-
**The order of a route table does not matter.**

A table is registered entry by entry, and each entry is checked against the ones before it only.
But what an entry is checked for is the same from both sides: two entries go together or they do
not, whichever comes first.  So a table is taken in any order or in none, and the trees that its
orders give hold the same routes.

Main definitions:

* `Tree.Accepts` — a tree takes some calls one after another;
* `Call.WellFormed`, `Call.Collides` — what is asked of one call, and of two;
* `RouteEntry.call`, `RouteEntry.Readable` — the call that an entry makes, if it can be read.

Main results:

* `Tree.accepts_iff` — **calls are taken when each is well-formed and no two collide**;
* `RouteTable.outcome_eq_ok_iff` — a tree is built when its entries are readable and their calls
  are taken;
* `RouteTable.buildTree_perm` — **the order of the entries matters neither for whether a tree is
  built nor for what it answers**.
-/
import RouteTree.Proofs.Tally
import RouteTree.Proofs.Verdicts
import RouteTree.RouteTable.Basic

set_option autoImplicit false
set_option relaxedAutoImplicit false

namespace RouteTree

variable {H : Type}

/-! ### Calls that are taken -/

/-- **A tree takes some calls one after another**: all of them succeed. -/
def Tree.Accepts (t : Tree H) : List (Call H) → Prop
  | [] => True
  | call :: rest => (t.serve call).outcome = .ok () ∧ (t.serve call).tree.Accepts rest

theorem Tree.accepts_append {t : Tree H} {before after : List (Call H)} :
    t.Accepts (before ++ after) ↔ t.Accepts before ∧ (t.run before).Accepts after := by
  induction before generalizing t with
  | nil => simp [Accepts]
  | cons call before ih => simp [Accepts, ih, and_assoc]

theorem Tree.accepts_concat {t : Tree H} {calls : List (Call H)} {call : Call H} :
    t.Accepts (calls ++ [call]) ↔
      t.Accepts calls ∧ ((t.run calls).serve call).outcome = .ok () := by
  simp [accepts_append, Accepts]

/-- What happens at some call of calls that are all taken, happens at a member of them. -/
theorem Tree.Accepts.exists_iff {calls : List (Call H)} (h : (empty : Tree H).Accepts calls)
    {asked : Call H → Prop} :
    (∃ before call after, calls = before ++ call :: after ∧ asked call ∧
      ((empty.run before).serve call).outcome = .ok ()) ↔ ∃ call ∈ calls, asked call := by
  constructor
  · rintro ⟨before, call, after, rfl, hasked, _⟩
    exact ⟨call, by simp, hasked⟩
  · rintro ⟨call, hmem, hasked⟩
    obtain ⟨before, after, rfl⟩ := List.append_of_mem hmem
    exact ⟨before, call, after, rfl, hasked, (accepts_append.1 h).2.1⟩

/-- Calls that are all taken have registered what they ask for. -/
theorem Tree.Accepts.registered_iff {calls : List (Call H)} (h : (empty : Tree H).Accepts calls)
    {m : Method} {template : Text} {handler : H} :
    Registered calls m template handler ↔ ∃ call ∈ calls, call.Asks m template handler :=
  h.exists_iff

/-- The templates of calls that are all taken have been admitted. -/
theorem Tree.Accepts.admitted_iff {calls : List (Call H)} (h : (empty : Tree H).Accepts calls)
    {template : Text} :
    Admitted calls template ↔ ∃ call ∈ calls, call.template? = some template :=
  h.exists_iff

/-! ### One call, and two -/

namespace Call

/-- All that is asked of a call by itself: a template that begins with a slash and can be cut, and
no methods other than verbs. -/
def WellFormed (c : Call H) : Prop :=
  ∃ template, c.template? = some template ∧ template.head? = some '/' ∧
    (∃ segs, Template.segments template = .ok segs) ∧
      ∀ m template handler, c.Asks m template handler → m.verb? ≠ none

/-- **Two calls cannot both be taken**: their templates clash, or they ask for one method under one
template. -/
def Collides (c d : Call H) : Prop :=
  (∃ template template', c.template? = some template ∧ d.template? = some template' ∧
    ∃ start placeholder, Template.ClashAt template template' start placeholder) ∨
  ∃ m template handler handler', c.Asks m template handler ∧ d.Asks m template handler'

/-- Colliding is the same from both sides. -/
theorem Collides.symm {c d : Call H} (h : c.Collides d) : d.Collides c := by
  rcases h with ⟨template, template', hc, hd, start, _, s, s', hs, hs', hrank, hne, _⟩ |
    ⟨m, template, handler, handler', hc, hd⟩
  · exact Or.inl ⟨template', template, hd, hc, start, _, s', s, hs', hs, hrank.symm, hne.symm, rfl⟩
  · exact Or.inr ⟨m, template, handler', handler, hd, hc⟩

end Call

namespace Tree

/-- A registration succeeds when it is considered, clashes with nothing that has been admitted,
and asks for nothing that has been registered. -/
theorem add_ok_iff {calls : List (Call H)} {template : Text} {handler : H}
    {methods : List Method} :
    ((empty.run calls).add template handler methods).outcome = .ok () ↔
      Considered calls template methods ∧
        (∀ old, Admitted calls old →
          ∀ start placeholder, ¬ Template.ClashAt old template start placeholder) ∧
        ∀ m ∈ methods, ∀ other, ¬ Registered calls m template other := by
  constructor
  · intro h
    obtain ⟨outcome, hverdict⟩ := exists_verdict calls template handler methods
    rw [outcome_eq_of_verdict hverdict handler] at h
    subst h
    cases hverdict with
    | accepted considered noClash free =>
        exact ⟨considered, fun old hold start placeholder => noClash old start placeholder hold,
          free⟩
  · rintro ⟨considered, noClash, free⟩
    exact outcome_eq_of_verdict
      (.accepted considered (fun old start placeholder hold => noClash old hold start placeholder)
        free) handler

/-- A registration is taken after others that were taken when it is well-formed and collides with
none of them. -/
theorem Accepts.add_ok_iff {calls : List (Call H)} (h : (empty : Tree H).Accepts calls)
    (unsealed : Call.sealing ∉ calls) {template : Text} {handler : H} {methods : List Method} :
    ((empty.run calls).add template handler methods).outcome = .ok () ↔
      (Call.add template handler methods).WellFormed ∧
        ∀ call ∈ calls, ¬ call.Collides (.add template handler methods) := by
  have hwell : (Call.add template handler methods).WellFormed ↔
      Considered calls template methods := by
    constructor
    · rintro ⟨_, htemplate, slash, cut, verbs⟩
      obtain rfl := Option.some.inj htemplate
      exact ⟨unsealed, slash, fun m hm => verbs m template handler ⟨rfl, rfl, hm⟩, cut⟩
    · rintro ⟨_, slash, verbs, cut⟩
      exact ⟨template, rfl, slash, cut, fun m _ _ hasks => verbs m hasks.2.2⟩
  rw [Tree.add_ok_iff, hwell]
  simp only [h.admitted_iff, h.registered_iff]
  refine and_congr_right fun _ => ⟨?_, ?_⟩
  · rintro ⟨noClash, free⟩ call hmem
      (⟨old, _, hold, htemplate, start, placeholder, hclash⟩ | ⟨m, _, other, _, hasks, rfl, _, hm⟩)
    · obtain rfl := Option.some.inj htemplate
      exact noClash old ⟨call, hmem, hold⟩ start placeholder hclash
    · exact free m hm other ⟨call, hmem, hasks⟩
  · intro apart
    constructor
    · rintro old ⟨call, hmem, hold⟩ start placeholder hclash
      exact apart call hmem (Or.inl ⟨old, template, hold, rfl, start, placeholder, hclash⟩)
    · rintro m hm other ⟨call, hmem, hasks⟩
      exact apart call hmem (Or.inr ⟨m, template, other, handler, hasks, rfl, rfl, hm⟩)

/-- **Calls are taken one after another when each is well-formed and no two collide.** -/
theorem accepts_iff {calls : List (Call H)} (unsealed : Call.sealing ∉ calls) :
    (empty : Tree H).Accepts calls ↔
      (∀ call ∈ calls, call.WellFormed) ∧ calls.Pairwise fun c d => ¬ c.Collides d := by
  induction calls using List.reverseRecOn with
  | nil => simp [Accepts]
  | append_singleton calls call ih =>
      obtain ⟨hcalls, hcall⟩ : Call.sealing ∉ calls ∧ call ≠ .sealing := by
        simpa [eq_comm] using unsealed
      have hserve (h : (empty : Tree H).Accepts calls) :
          ((empty.run calls).serve call).outcome = .ok () ↔
            call.WellFormed ∧ ∀ other ∈ calls, ¬ other.Collides call := by
        cases call with
        | add template handler methods => exact h.add_ok_iff hcalls
        | addAny template handler => exact h.add_ok_iff hcalls
        | sealing => exact absurd rfl hcall
      rw [accepts_concat, and_congr_right hserve, ih hcalls, List.pairwise_append]
      simp only [List.mem_append, List.mem_singleton, List.pairwise_singleton, or_imp, forall_and,
        forall_eq, true_and]
      tauto

/-! ### Calls in another order -/

variable {calls others : List (Call H)}

/-- Calls are taken in any order, or in none. -/
theorem accepts_perm (h : calls.Perm others) (unsealed : Call.sealing ∉ calls) :
    (empty : Tree H).Accepts calls ↔ (empty : Tree H).Accepts others := by
  rw [accepts_iff unsealed, accepts_iff (mt h.mem_iff.2 unsealed),
    h.pairwise_iff fun hne hcollide => hne hcollide.symm]
  simp only [h.mem_iff]

/-- Calls that are taken register the same in any order. -/
theorem sameRegistered_of_perm (h : calls.Perm others) (taken : (empty : Tree H).Accepts calls)
    (taken' : (empty : Tree H).Accepts others) : SameRegistered calls others := by
  intro m template handler
  simp only [taken.registered_iff, taken'.registered_iff, h.mem_iff]

/-- Histories that register the same are listed alike, up to the order. -/
theorem walk_perm_of_sameRegistered (same : SameRegistered calls others) :
    (empty.run calls).walk.Perm (empty.run others).walk := by
  have hnodup : ∀ calls : List (Call H), (empty.run calls).walk.Nodup := fun calls =>
    .of_map _ (run_sound calls).valid.nodup_pairs
  refine (List.perm_ext_iff_of_nodup (hnodup calls) (hnodup others)).2 fun ⟨v, r⟩ => ?_
  rw [mem_walk_run_iff, mem_walk_run_iff, same]

/-- A tree counts no more parameters than another one that has its routes. -/
theorem maxParams_le_of_walk_subset {t t' : Tree H} (counted : t.Counted) (sound : t'.Sound)
    (sub : t.walk ⊆ t'.walk) : t.maxParams ≤ t'.maxParams := by
  rcases counted.reached with hzero | ⟨⟨v, r⟩, hmem, hlen⟩
  · omega
  · exact hlen ▸ sound.room v r (mem_walk_iff.1 (sub hmem))

/-- Histories that register the same leave trees with the same numbers. -/
theorem numbers_eq_of_sameRegistered (same : SameRegistered calls others) :
    (empty.run calls).size = (empty.run others).size ∧
      (empty.run calls).maxParams = (empty.run others).maxParams := by
  have hperm := walk_perm_of_sameRegistered same
  refine ⟨?_, le_antisymm ?_ ?_⟩
  · rw [(run_counted calls).size, (run_counted others).size, hperm.length_eq]
  · exact maxParams_le_of_walk_subset (run_counted calls) (run_sound others) hperm.subset
  · exact maxParams_le_of_walk_subset (run_counted others) (run_sound calls) hperm.symm.subset

end Tree

/-! ### Tables -/

namespace RouteEntry

/-- The methods of an entry can be worked out. -/
def Readable (entry : RouteEntry) : Prop := ∃ methods, entry.method.methods = .ok methods

/-- The call that registers an entry. -/
def call (entry : RouteEntry) : Call Text :=
  .add entry.path entry.handler (entry.method.methods.toOption.getD [])

end RouteEntry

namespace RouteTable

/-- Entries are registered one after another when they are readable and their calls are taken, and
then these calls are the history of the tree. -/
theorem registerAll_eq_ok_iff {t t' : Tree Text} {entries : List RouteEntry} :
    (registerAll t entries).outcome = .ok t' ↔ (∀ entry ∈ entries, entry.Readable) ∧
      t.Accepts (entries.map RouteEntry.call) ∧ t' = t.run (entries.map RouteEntry.call) := by
  induction entries generalizing t with
  | nil => simp [registerAll, Tree.Accepts, eq_comm]
  | cons entry entries ih =>
      rw [registerAll, register]
      cases hmethods : entry.method.methods with
      | error cause => simp [RouteEntry.Readable, hmethods]
      | ok methods =>
          have hcall : entry.call = .add entry.path entry.handler methods := by
            simp [RouteEntry.call, hmethods, Except.toOption]
          have hserve : t.serve entry.call = t.add entry.path entry.handler methods := by
            rw [hcall]
            rfl
          cases houtcome : (t.add entry.path entry.handler methods).outcome with
          | error e => simp [Tree.Accepts, hserve, houtcome]
          | ok done =>
              simp only [ih, List.map_cons, Tree.Accepts, Tree.run_cons, hserve, houtcome,
                List.forall_mem_cons]
              simp [RouteEntry.Readable, hmethods]

/-- **A tree is built when the entries are readable and their calls are taken**, and it is the one
that these calls leave. -/
theorem outcome_eq_ok_iff {table : RouteTable} {t : Tree Text} :
    table.buildTree.outcome = .ok t ↔ (∀ entry ∈ table.entries, entry.Readable) ∧
      (Tree.empty : Tree Text).Accepts (table.entries.map RouteEntry.call) ∧
        t = Tree.empty.run (table.entries.map RouteEntry.call) := by
  rw [← registerAll_eq_ok_iff, buildTree]
  cases (registerAll .empty table.entries).outcome <;> simp

theorem sealing_not_mem_calls (entries : List RouteEntry) :
    Call.sealing ∉ entries.map RouteEntry.call := by
  simp [RouteEntry.call]

/-- **The order of the entries does not matter.**  A table gives a tree if it gives one in another
order.  These trees have the same numbers and the same routes, and routers over them answer every
request alike: with the same route and the same values, with the same redirect, or not at all. -/
theorem buildTree_perm {table table' : RouteTable} (h : table.entries.Perm table'.entries) :
    ((∃ t, table.buildTree.outcome = .ok t) ↔ ∃ t', table'.buildTree.outcome = .ok t') ∧
      ∀ t t', table.buildTree.outcome = .ok t → table'.buildTree.outcome = .ok t' →
        t.size = t'.size ∧ t.maxParams = t'.maxParams ∧ t.walk.Perm t'.walk ∧
          ∀ config m path, ((Router.ofTree t config).router.route m path).1 =
            ((Router.ofTree t' config).router.route m path).1 := by
  have hcalls := h.map RouteEntry.call
  have haccepts := Tree.accepts_perm hcalls (sealing_not_mem_calls _)
  constructor
  · simp only [outcome_eq_ok_iff, exists_and_left, exists_eq, and_true, h.mem_iff, haccepts]
  · intro t t' ht ht'
    obtain ⟨_, htaken, rfl⟩ := outcome_eq_ok_iff.1 ht
    obtain ⟨_, htaken', rfl⟩ := outcome_eq_ok_iff.1 ht'
    have same := Tree.sameRegistered_of_perm hcalls htaken htaken'
    obtain ⟨hsize, hmax⟩ := Tree.numbers_eq_of_sameRegistered same
    exact ⟨hsize, hmax, Tree.walk_perm_of_sameRegistered same, fun config m path =>
      Router.route_eq_of_agrees hmax (Tree.find_run_agrees same m path) config⟩

/-- An outcome that is some result is a success. -/
theorem exists_eq_ok_of_isSome {table : RouteTable}
    (h : table.buildTree.outcome.toOption.isSome = true) :
    ∃ t, table.buildTree.outcome = .ok t := by
  cases houtcome : table.buildTree.outcome with
  | error f => simp [houtcome, Except.toOption] at h
  | ok t => exact ⟨t, rfl⟩

/-- A literal entry may stand before or behind a parameter that would take its requests, too. -/
theorem buildTree_perm_literal_and_param :
    let byId : RouteEntry := ⟨.one "get".toList, "/pets/:id".toList, "get_pet".toList⟩
    let fresh : RouteEntry := ⟨.many ["ANY".toList], "/pets/new".toList, "new_pet".toList⟩
    ∃ t t', (RouteTable.mk [byId, fresh]).buildTree.outcome = .ok t ∧
      (RouteTable.mk [fresh, byId]).buildTree.outcome = .ok t' ∧ t.size = t'.size ∧
        t.maxParams = t'.maxParams ∧ t.walk.Perm t'.walk ∧
          ∀ config m path, ((Router.ofTree t config).router.route m path).1 =
            ((Router.ofTree t' config).router.route m path).1 := by
  intro byId fresh
  have horder : [byId, fresh].Perm [fresh, byId] := .swap fresh byId []
  obtain ⟨hbuilt, hsame⟩ :=
    @buildTree_perm ⟨[byId, fresh]⟩ ⟨[fresh, byId]⟩ horder
  obtain ⟨t, ht⟩ : ∃ t, (RouteTable.mk [byId, fresh]).buildTree.outcome = .ok t :=
    exists_eq_ok_of_isSome (by decide +kernel)
  obtain ⟨t', ht'⟩ := hbuilt.1 ⟨t, ht⟩
  exact ⟨t, t', ht, ht', hsame t t' ht ht'⟩

end RouteTable

end RouteTree
