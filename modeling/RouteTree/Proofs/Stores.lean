/-
**A store goes along with the tree that it stands for.**

A store and a tree are filled by the same calls.  Each call has the same outcome on both and
reports the same, and leaves a store whose arena lays out the tree that it leaves, with the same
counts.  In particular no call ever looks at a place that is not in the row.

A call that is refused leaves the tree as it was, but that alone does not say what it leaves of the
row: another row might lay out the same tree.  It leaves the very row that there was.

Main definitions:

* `Store.Stands` — a store stands for a tree;
* `Store.Follows` — what a call has done to a store is what it has done to a tree.

Main results:

* `Store.Stands.serve` — **a call has the same outcome on a store and on the tree that it stands
  for, reports the same, and leaves a store that stands for the tree it leaves**, the same store if
  it fails;
* `Store.exists_run` — a history of calls leaves a store for the tree that it leaves.
-/
import RouteTree.Proofs.History
import RouteTree.Proofs.Layout

set_option autoImplicit false
set_option relaxedAutoImplicit false

namespace RouteTree

variable {H : Type}

/-! ### Giving routes to a cell -/

namespace Arena

theorem Frame.refl (p : Text) (a : Arena H) : Frame p a a := fun _ _ hj _ => hj

/-- A cell with other routes shows the node with other routes, and nothing else has happened. -/
theorem Shows.routed {a : Arena H} {id : Nat} {n : Node H} (hn : n.Valid) (h : a.Shows id n)
    (routes : Slots H) :
    Shows (a.modify id ({ · with routes })) id { n with routes } ∧
      Frame n.path a (a.modify id ({ · with routes })) := by
  obtain ⟨c, here, fits⟩ := h.exists_cell
  -- the cell is known by its path
  have hothers : ∀ (j : Nat) (d : Cell H), a[j]? = some d → d.path ≠ n.path →
      (a.modify id ({ · with routes }))[j]? = some d := by
    intro j d hj hd
    have hjid := ne_of_path_ne here hj (fits.path ▸ hd)
    rw [List.getElem?_modify_ne _ _ hjid.symm, hj]
  have hchild : ∀ s d, n.Branch s d → ∀ j, a.Shows j d →
      Shows (a.modify id ({ · with routes })) j d := by
    intro s d first j hj
    exact hj.transport_child hn first fun i e hi _ hpath => ⟨e.parent, hothers i e hi hpath⟩
  constructor
  · have here' : (a.modify id ({ · with routes }))[id]? = some { c with routes } := by
      rw [List.getElem?_modify_eq, here]
      rfl
    obtain ⟨literals, param, wildcard⟩ := h.children_of here hchild
    exact .intro here' ⟨fits.text, fits.path, fits.params, rfl⟩ literals param wildcard
  · intro j d hj hp
    refine hothers j d hj fun heq => ?_
    rw [heq] at hp
    exact hp (List.prefix_refl _)

/-- A cell that refuses routes stays as it is, and all others do. -/
theorem eq_of_register_error {a a' : Arena H} {id : Nat} {template : Text} {handler : H}
    {verbs : List Verb} {o : Occupied}
    (h : a.register template handler verbs id = some (a', .error o)) : a' = a := by
  obtain ⟨c, _, h⟩ := Option.bind_eq_some_iff.1 h
  cases hfree : c.occupied? verbs with
  | some o' =>
      rw [hfree] at h
      exact (Prod.mk.inj (Option.some.inj h)).1.symm
  | none =>
      rw [hfree] at h
      obtain ⟨_, _, h⟩ := Option.bind_eq_some_iff.1 h
      cases h

/-- Giving routes to a cell gives them to the node that it shows. -/
theorem performs_register (template : Text) (handler : H) (verbs : List Verb) :
    Performs (register template handler verbs) (Node.register template handler verbs) := by
  intro a id n ha h hn
  obtain ⟨c, here, fits⟩ := h.exists_cell
  have hoccupied : c.occupied? verbs = n.occupied? verbs := by
    rw [Cell.occupied?, Node.occupied?, fits.routes]
  unfold Node.register
  cases hfree : n.occupied? verbs with
  | some o =>
      refine ⟨a, ?_, ha, h, .refl _ _⟩
      simp [register, here, hoccupied, hfree]
  | none =>
      have hlt := lt_length_of_getElem? here
      obtain ⟨hshow, hframe⟩ := h.routed hn fun v =>
        if v ∈ verbs then some ⟨template, n.params, handler⟩ else n.routes v
      refine ⟨_, ?_, ha.routed id _, hshow, hframe⟩
      simp [register, here, hoccupied, hfree, amend_of_lt hlt, fits.params, fits.routes]

end Arena

/-! ### Going along -/

/-- **A store stands for a tree**: its arena lays the tree out, and the counts are those of the
tree. -/
structure Store.Stands (s : Store H) (t : Tree H) : Prop where
  wired : s.cells.Wired
  root : s.cells.Shows 0 t.root
  size : s.size = t.size
  maxParams : s.maxParams = t.maxParams
  isSealed : s.isSealed = t.isSealed

namespace Store

variable {s : Store H} {t : Tree H}

/-- The empty store stands for the empty tree. -/
theorem stands_empty : (empty : Store H).Stands .empty where
  wired := Arena.wired_root
  root := .intro rfl ⟨rfl, rfl, rfl, rfl⟩ .nil .none .none
  size := rfl
  maxParams := rfl
  isSealed := rfl

/-- **What a call has done to a store is what it has done to a tree**: it has the same outcome and
the same events, and leaves a store that stands for the tree that it leaves.  If it has failed,
that is the store that there was. -/
def Follows (s : Store H) (reply : Option (Insertion (Store H) Unit)) (g : Registration H) : Prop :=
  ∃ s', reply = some ⟨s', g.outcome, g.events⟩ ∧ s'.Stands g.tree ∧
    ∀ e, g.outcome = .error e → s' = s

/-- A call that fails at once has done nothing. -/
theorem Stands.refused (hs : s.Stands t) (e : RouteError) (events : List Event) :
    s.Follows (some ⟨s, .error e, events⟩) ⟨t, .error e, events⟩ := ⟨s, rfl, hs, fun _ _ => rfl⟩

/-- A template is brought into a store as it is into the tree. -/
theorem Stands.place (hs : s.Stands t) (ht : t.Sound) (template : Text) (handler : H)
    (verbs : List Verb) :
    s.Follows (s.place template handler verbs) (t.place template handler verbs) := by
  have hplacing := t.place_placing template handler verbs
  generalize t.place template handler verbs = g at hplacing ⊢
  cases hplacing with
  | uncut cut =>
      rw [Store.place, s.cells.bring_of_error cut]
      exact hs.refused ..
  | barred cut bar =>
      rw [Store.place, s.cells.bring_of_ok cut, Arena.follow_of_error ht.valid hs.root bar]
      exact hs.refused ..
  | @taken segs o cut onward =>
      -- the way led to the node before, so that no cell is made on it
      obtain ⟨_, _, d, hleads, hd⟩ :=
        Node.Brought.eq_of_occupied onward (Template.parted_of_segments cut)
      obtain ⟨j, hfollow, hj⟩ := hs.root.follow_of_leads template ht.valid hleads
      obtain ⟨a', hregister, _⟩ := Arena.performs_register template handler verbs hs.wired hj
        (Node.Valid.of_leads ht.valid hleads)
      rw [hd] at hregister
      obtain rfl := Arena.eq_of_register_error hregister
      rw [Store.place, s.cells.bring_of_ok cut, hfollow, Option.bind_some, conclude]
      simp only [hregister, Option.bind_eq_bind, Option.bind_some]
      exact hs.refused ..
  | placed h =>
      obtain ⟨segs, root, params, splits, cut, hbrought, rfl⟩ := h
      obtain ⟨a, j, a', hfollow, hregister, hwired, hroot, _⟩ :=
        Arena.follow_of_brought (Arena.performs_register template handler verbs) template
          hbrought ht.valid (Template.linked_of_segments cut) hs.wired hs.root
      rw [Store.place, s.cells.bring_of_ok cut, hfollow, Option.bind_some, conclude]
      simp only [hregister, Option.bind_eq_bind, Option.bind_some]
      refine ⟨_, rfl, ⟨hwired, hroot, ?_, ?_, hs.isSealed⟩, fun _ herror => by cases herror⟩
      · dsimp only
        rw [hs.size]
      · dsimp only
        rw [hs.maxParams]

/-- A handler is registered in a store as it is in the tree. -/
theorem Stands.add (hs : s.Stands t) (ht : t.Sound) (template : Text) (handler : H)
    (methods : List Method) :
    s.Follows (s.add template handler methods) (t.add template handler methods) := by
  unfold Store.add Tree.add
  rw [hs.isSealed]
  by_cases hsealed : t.isSealed = true
  · rw [if_pos hsealed, if_pos hsealed]
    exact hs.refused ..
  rw [if_neg hsealed, if_neg hsealed]
  by_cases hslash : template.head? ≠ some '/'
  · rw [if_pos hslash, if_pos hslash]
    exact hs.refused ..
  rw [if_neg hslash, if_neg hslash]
  cases hverbs : methods.find? (·.verb?.isNone) with
  | some m => exact hs.refused ..
  | none => exact hs.place ht template handler (Tree.requestedVerbs methods)

/-- **A call has the same outcome on a store and on the tree that it stands for**, reports the same,
and leaves a store that stands for the tree it leaves. -/
theorem Stands.serve (hs : s.Stands t) (ht : t.Sound) (call : Call H) :
    s.Follows (s.serve call) (t.serve call) := by
  cases call with
  | add template handler methods => exact hs.add ht template handler methods
  | addAny template handler => exact hs.add ht template handler (Verb.all.map Verb.method)
  | sealing =>
      exact ⟨_, rfl, ⟨hs.wired, hs.root, hs.size, hs.maxParams, rfl⟩,
        fun _ herror => by cases herror⟩

theorem run_concat (s : Store H) (calls : List (Call H)) (call : Call H) :
    s.run (calls ++ [call]) = (s.run calls).bind fun s => (s.serve call).map Insertion.result := by
  simp [run, List.foldlM_append]

/-- **Every history of calls leaves a store that stands for the tree it leaves.** -/
theorem exists_run (calls : List (Call H)) :
    ∃ s, empty.run calls = some s ∧ s.Stands (Tree.empty.run calls) := by
  induction calls using List.reverseRecOn with
  | nil => exact ⟨empty, rfl, stands_empty⟩
  | append_singleton calls call ih =>
      obtain ⟨s, hrun, hs⟩ := ih
      obtain ⟨s', hserve, hs', _⟩ := hs.serve (Tree.run_sound calls) call
      refine ⟨s', ?_, ?_⟩
      · rw [run_concat, hrun, Option.bind_some, hserve]
        rfl
      · rw [Tree.run_append]
        exact hs'

end Store

end RouteTree
