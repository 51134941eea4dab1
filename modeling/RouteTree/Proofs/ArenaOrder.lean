/-
**The arena that a history of calls leaves is one tree in order.**

An arena that a store keeps lays out a tree in order, and its cells hang together.  From the two
together follows what can be said of the cells alone: the links make up one tree below the root,
each cell has a text that its kind allows and stands where its kind may stand, paths are spelled by
the texts on the way from the root and belong to one cell each, and the routes of a cell are for its
path.

Main definitions:

* `Cell.name?` — the name that a cell gives to what it captures;
* `Arena.InOrder` — what can be said of the cells.

Main results:

* `Arena.exists_shown` — every cell shows a node of the tree that the arena lays out;
* `Arena.Shows.exists_shown_of_reach` — every node of that tree is shown by a cell;
* `Arena.eq_of_trail` — a way from the root leads to one cell;
* `Store.exists_run_inOrder` — **every history of calls leaves an arena in order**, for the tree
  that it leaves.
-/
import RouteTree.Proofs.Stores

set_option autoImplicit false
set_option relaxedAutoImplicit false

namespace RouteTree

variable {H : Type}

/-- The name that a cell gives to what it captures; a literal captures nothing. -/
def Cell.name? (c : Cell H) : Option Text := c.segment.name?

namespace Arena

/-! ### Order -/

/-- **An arena that is one tree in order.** -/
structure InOrder (a : Arena H) : Prop where
  /-- The root is at place `0`.  It has neither a text nor routes, it is nobody's child, and it has
  literal children only. -/
  root : ∃ r, a[0]? = some r ∧ r.kind = .literal ∧ r.text = [] ∧ r.parent = none ∧
    (r.routes = fun _ => none) ∧ r.param = none ∧ r.wildcard = none ∧
      ∀ (i : Nat) (c : Cell H), a[i]? = some c → 0 ∉ c.children
  /-- What a cell lists as a child is a cell of the kind that it is listed for. -/
  child : ∀ (i j : Nat) (c : Cell H) (k : Segment.Kind), a[i]? = some c → c.Links k j →
    ∃ d, a[j]? = some d ∧ d.kind = k
  /-- Every cell but the root is listed once among the children of one cell, its parent. -/
  listed : ∀ (j : Nat) (d : Cell H), a[j]? = some d → j ≠ 0 →
    ∃ i c, a[i]? = some c ∧ d.parent = some i ∧ c.children.count j = 1 ∧
      ∀ (i' : Nat) (c' : Cell H), a[i']? = some c' → j ∈ c'.children → i' = i
  /-- Every cell is reached from the root. -/
  reached : ∀ (j : Nat) (d : Cell H), a[j]? = some d → ∃ cells, a.Trail cells j
  /-- A literal text is not empty and has no markers. -/
  literal : ∀ (j : Nat) (d : Cell H), a[j]? = some d → j ≠ 0 → d.kind = .literal →
    d.text ≠ [] ∧ ':' ∉ d.text ∧ '*' ∉ d.text
  /-- The literal children of a cell differ in their first characters. -/
  apart : ∀ (i : Nat) (c : Cell H), a[i]? = some c → c.literals.Pairwise fun j j' =>
    ∀ d d', a[j]? = some d → a[j']? = some d' → d.text.head? ≠ d'.text.head?
  /-- The text of a parameter is a colon and a name without slashes.  One literal child may follow
  it, which begins with a slash, and nothing else. -/
  param : ∀ (j : Nat) (d : Cell H), a[j]? = some d → d.kind = .param →
    (∃ name, d.text = ':' :: name ∧ name ≠ []) ∧ '/' ∉ d.text ∧ d.param = none ∧
      d.wildcard = none ∧ d.literals.length ≤ 1 ∧
        ∀ i ∈ d.literals, ∃ e, a[i]? = some e ∧ e.text.head? = some '/'
  /-- The text of a wildcard is a star and a name without slashes.  Nothing follows it. -/
  wildcard : ∀ (j : Nat) (d : Cell H), a[j]? = some d → d.kind = .wildcard →
    (∃ name, d.text = '*' :: name ∧ name ≠ []) ∧ '/' ∉ d.text ∧ d.children = []
  /-- The path of a cell is spelled by the texts on the way from the root, and its parameters are
  the names on that way. -/
  spelled : ∀ (cells : List (Cell H)) (j : Nat) (d : Cell H), a.Trail cells j →
    a[j]? = some d → d.path = cells.flatMap Cell.text ∧ d.params = cells.filterMap Cell.name?
  /-- No two cells have the same path. -/
  distinct : ∀ (i j : Nat) (c d : Cell H), a[i]? = some c → a[j]? = some d → c.path = d.path →
    i = j
  /-- The routes of a cell are for its path and have its parameters. -/
  routes : ∀ (j : Nat) (d : Cell H) (v : Verb) (r : Route H), a[j]? = some d →
    d.routes v = some r → r.template = d.path ∧ r.params = d.params

/-! ### Cells and nodes -/

section

variable {a : Arena H} {n : Node H}

/-- A child that a cell links to shows a child of the node that the cell shows. -/
theorem Shows.exists_branch {id j : Nat} {c : Cell H} {k : Segment.Kind} (h : a.Shows id n)
    (here : a[id]? = some c) (hlink : c.Links k j) :
    ∃ d, n.Branch (k.segment d.text) d ∧ a.Shows j d := by
  obtain ⟨_, literals, param, wildcard⟩ := h.children here
  cases hlink with
  | literal hj =>
      obtain ⟨d, hd, hshow⟩ := exists_of_forall₂_left literals hj
      exact ⟨d, .literal hd, hshow⟩
  | param hj =>
      obtain ⟨d, hd, hshow⟩ := exists_of_rel_left param hj
      exact ⟨d, .param hd, hshow⟩
  | wildcard hj =>
      obtain ⟨d, hd, hshow⟩ := exists_of_rel_left wildcard hj
      exact ⟨d, .wildcard hd, hshow⟩

/-- A child of the node that a cell shows is shown by a cell. -/
theorem Shows.exists_shown_of_branch {id : Nat} {s : Segment} {d : Node H} (h : a.Shows id n)
    (first : n.Branch s d) : ∃ j, a.Shows j d := by
  obtain ⟨c, here, _⟩ := h.exists_cell
  obtain ⟨_, literals, param, wildcard⟩ := h.children here
  cases first with
  | literal hd =>
      obtain ⟨j, _, hj⟩ := exists_of_forall₂_left literals.flip hd
      exact ⟨j, hj⟩
  | param hd =>
      obtain ⟨j, _, hj⟩ := exists_of_rel_right param hd
      exact ⟨j, hj⟩
  | wildcard hd =>
      obtain ⟨j, _, hj⟩ := exists_of_rel_right wildcard hd
      exact ⟨j, hj⟩

/-- **Every node of a tree that an arena lays out is shown by a cell.** -/
theorem Shows.exists_shown_of_reach {id : Nat} {segs : List Segment} {d : Node H}
    (h : a.Shows id n) (hreach : n.Reach segs d) : ∃ j, a.Shows j d := by
  induction hreach generalizing id with
  | here => exact ⟨id, h⟩
  | step first _ ih =>
      obtain ⟨j, hj⟩ := h.exists_shown_of_branch first
      exact ih hj

variable (ha : a.Wired) (hroot : a.Shows 0 n)

include ha

/-- The same, with the segment that leads to the cell. -/
theorem Shows.exists_branch_segment {id j : Nat} {c d : Cell H} (h : a.Shows id n)
    (here : a[id]? = some c) (listed : j ∈ c.children) (hj : a[j]? = some d) :
    ∃ e, n.Branch d.segment e ∧ a.Shows j e := by
  obtain ⟨k, hlink⟩ := Cell.mem_children_iff.1 listed
  obtain ⟨e, first, hshow⟩ := h.exists_branch here hlink
  have fits := (hshow.children hj).1
  refine ⟨e, ?_, hshow⟩
  rw [Cell.segment, (ha.eq_of_links here hlink hj).kind, fits.text]
  exact first

include hroot

/-- A way down in the arena is a way down in the tree that it lays out. -/
theorem Trail.exists_reach {cells : List (Cell H)} {j : Nat} (h : a.Trail cells j) :
    ∃ d, n.Reach (cells.map Cell.segment) d ∧ a.Shows j d := by
  induction h with
  | root => exact ⟨n, .here n, hroot⟩
  | step up above listed here ih =>
      obtain ⟨d, hreach, hshow⟩ := ih
      obtain ⟨e, last, hshow'⟩ := hshow.exists_branch_segment ha above listed here
      refine ⟨e, ?_, hshow'⟩
      rw [List.map_append]
      exact hreach.concat last

/-- **Every cell shows a node of the tree that the arena lays out.** -/
theorem exists_shown {j : Nat} {d : Cell H} (hj : a[j]? = some d) :
    ∃ cells e, a.Trail cells j ∧ n.Reach (cells.map Cell.segment) e ∧ a.Shows j e := by
  obtain ⟨cells, trail⟩ := ha.exists_trail hj
  obtain ⟨e, hreach, hshow⟩ := trail.exists_reach ha hroot
  exact ⟨cells, e, trail, hreach, hshow⟩

variable (hn : n.Valid)

include hn

/-- Every cell shows a node in order. -/
theorem exists_valid {j : Nat} {d : Cell H} (hj : a[j]? = some d) :
    ∃ e : Node H, e.Valid ∧ a.Shows j e ∧ d.Fits e := by
  obtain ⟨cells, e, _, hreach, hshow⟩ := exists_shown ha hroot hj
  exact ⟨e, fun more f hmore => hn _ f (hreach.append hmore), hshow, (hshow.children hj).1⟩

/-- Every cell but the root stands behind a segment that a template can have, and so do its
children, which can follow it. -/
theorem exists_behind {j : Nat} {d : Cell H} (hj : a[j]? = some d) (hne : j ≠ 0) :
    d.segment.Proper ∧ ∀ i ∈ d.children, ∃ f, a[i]? = some f ∧
      d.segment.CanPrecede f.segment := by
  obtain ⟨p, c, k, hp, hlink⟩ := ha.listed hj hne
  obtain ⟨e, he, hshow, _⟩ := exists_valid ha hroot hn hp
  have listed := Cell.mem_children_iff.2 ⟨k, hlink⟩
  obtain ⟨e', first, hshow'⟩ := hshow.exists_branch_segment ha hp listed hj
  refine ⟨he.regular.proper first, fun i hi => ?_⟩
  obtain ⟨k', hlink'⟩ := Cell.mem_children_iff.1 hi
  obtain ⟨f, hf, _⟩ := ha.hangs hj hlink'
  obtain ⟨e'', second, _⟩ := hshow'.exists_branch_segment ha hj hi hf
  exact ⟨f, hf, he.regular.follows first second⟩

/-- The literal children of a cell differ in their first characters. -/
theorem pairwise_literals {i : Nat} {c : Cell H} (hi : a[i]? = some c) :
    c.literals.Pairwise fun j j' =>
      ∀ d d', a[j]? = some d → a[j']? = some d' → d.text.head? ≠ d'.text.head? := by
  obtain ⟨e, he, hshow, _⟩ := exists_valid ha hroot hn hi
  have hall := (hshow.children hi).2.1
  have hapart := he.regular.apart
  generalize c.literals = ids at hall ⊢
  generalize e.literals = nodes at hall hapart
  induction hall with
  | nil => exact .nil
  | @cons j d ids nodes hj hrest ih =>
      rw [List.map_cons, List.nodup_cons] at hapart
      refine .cons (fun j' hj' f f' hf hf' head => ?_) (ih hapart.2)
      obtain ⟨d', hd', hshow'⟩ := exists_of_forall₂_left hrest hj'
      rw [(hj.children hf).1.text, (hshow'.children hf').1.text] at head
      exact hapart.1 (head ▸ List.mem_map_of_mem hd')

/-- A cell lists no place twice. -/
theorem nodup_children {i : Nat} {c : Cell H} (hi : a[i]? = some c) : c.children.Nodup := by
  have hkind : ∀ {k k' j}, c.Links k j → c.Links k' j → k = k' := by
    intro k k' j hk hk'
    obtain ⟨d, hd, hangs⟩ := ha.hangs hi hk
    rw [← hangs.kind, (ha.eq_of_links hi hk' hd).kind]
  have hliterals : c.literals.Nodup := by
    refine (pairwise_literals ha hroot hn hi).imp_of_mem fun {j j'} hj _ hne => ?_
    rintro rfl
    obtain ⟨d, hd, _⟩ := ha.hangs hi (.literal hj)
    exact hne d d hd hd rfl
  rw [Cell.children, List.nodup_append, List.nodup_append]
  refine ⟨⟨hliterals, ?_, ?_⟩, ?_, ?_⟩
  · cases c.param <;> simp
  · rintro j hj j' hj' rfl
    cases hkind (.literal hj) (.param (Option.mem_toList.1 hj'))
  · cases c.wildcard <;> simp
  · rintro j hj j' hj' rfl
    rcases List.mem_append.1 hj with hj | hj
    · cases hkind (.literal hj) (.wildcard (Option.mem_toList.1 hj'))
    · cases hkind (.param (Option.mem_toList.1 hj)) (.wildcard (Option.mem_toList.1 hj'))

/-- Children of one cell behind the same segment are one. -/
theorem eq_of_segment_eq {i j j' : Nat} {c d d' : Cell H} (hi : a[i]? = some c)
    (listed : j ∈ c.children) (hj : a[j]? = some d) (listed' : j' ∈ c.children)
    (hj' : a[j']? = some d') (same : d.segment = d'.segment) : j = j' := by
  obtain ⟨k, hk⟩ := Cell.mem_children_iff.1 listed
  obtain ⟨k', hk'⟩ := Cell.mem_children_iff.1 listed'
  have hkind : k = k' := by
    have h := congrArg Segment.kind same
    rw [Cell.segment, Cell.segment, Segment.Kind.segment_kind, Segment.Kind.segment_kind,
      (ha.eq_of_links hi hk hj).kind, (ha.eq_of_links hi hk' hj').kind] at h
    exact h
  subst hkind
  cases hk with
  | literal hmem =>
      cases hk' with
      | literal hmem' =>
          have htext : d.text = d'.text := by
            simpa [Cell.segment] using congrArg Segment.text same
          by_contra hne
          have hsymm : Std.Symm fun j j' : Nat => ∀ d d' : Cell H, a[j]? = some d →
              a[j']? = some d' → d.text.head? ≠ d'.text.head? :=
            ⟨fun _ _ h e e' he he' => (h e' e he' he).symm⟩
          have hapart := (pairwise_literals ha hroot hn hi).forall hmem hmem' hne
          exact hapart d d' hj hj' (by rw [htext])
  | param hmem =>
      cases hk' with
      | param hmem' => exact Option.some.inj (hmem.symm.trans hmem')
  | wildcard hmem =>
      cases hk' with
      | wildcard hmem' => exact Option.some.inj (hmem.symm.trans hmem')

/-- The segment of a cell is one that a template can have. -/
theorem proper_of_kind {j : Nat} {d : Cell H} {k : Segment.Kind} (hj : a[j]? = some d)
    (hne : j ≠ 0) (hk : d.kind = k) : (k.segment d.text).Proper := by
  rw [← hk]
  exact (exists_behind ha hroot hn hj hne).1

/-- What follows a parameter opens with a slash. -/
theorem follows_param {j : Nat} {d : Cell H} (hj : a[j]? = some d) (hk : d.kind = .param) :
    d.param = none ∧ d.wildcard = none ∧ d.literals.length ≤ 1 ∧
      ∀ i ∈ d.literals, ∃ e, a[i]? = some e ∧ e.text.head? = some '/' := by
  have hne := ha.ne_zero_of_kind hj (by rw [hk]; decide)
  have hbehind := (exists_behind ha hroot hn hj hne).2
  rw [Cell.segment, hk] at hbehind
  have hliteral : ∀ {k i}, d.Links k i → k = .literal ∧
      ∃ e, a[i]? = some e ∧ e.text.head? = some '/' := by
    intro k i hlink
    obtain ⟨e, he, hfollows⟩ := hbehind i (Cell.mem_children_iff.2 ⟨k, hlink⟩)
    rw [Cell.segment, (ha.eq_of_links hj hlink he).kind] at hfollows
    cases k with
    | literal => exact ⟨rfl, e, he, hfollows⟩
    | param => exact hfollows.elim
    | wildcard => exact hfollows.elim
  have hopens : ∀ i ∈ d.literals, ∃ e, a[i]? = some e ∧ e.text.head? = some '/' :=
    fun i hi => (hliteral (.literal hi)).2
  refine ⟨?_, ?_, ?_, hopens⟩
  · refine Option.eq_none_iff_forall_ne_some.2 fun i hi => ?_
    cases (hliteral (.param hi)).1
  · refine Option.eq_none_iff_forall_ne_some.2 fun i hi => ?_
    cases (hliteral (.wildcard hi)).1
  · -- two literal children would both begin with the slash
    have hapart := pairwise_literals ha hroot hn hj
    match d.literals, hapart, hopens with
    | [], _, _ => simp
    | [_], _, _ => simp
    | i :: i' :: _, hapart, hopens =>
        obtain ⟨e, he, head⟩ := hopens i (by simp)
        obtain ⟨e', he', head'⟩ := hopens i' (by simp)
        have hne := List.rel_of_pairwise_cons hapart List.mem_cons_self e e' he he'
        exact absurd (head.trans head'.symm) hne

/-- Nothing follows a wildcard. -/
theorem follows_wildcard {j : Nat} {d : Cell H} (hj : a[j]? = some d)
    (hk : d.kind = .wildcard) : d.children = [] := by
  have hne := ha.ne_zero_of_kind hj (by rw [hk]; decide)
  have hbehind := (exists_behind ha hroot hn hj hne).2
  rw [Cell.segment, hk] at hbehind
  refine List.eq_nil_iff_forall_not_mem.2 fun i hi => ?_
  obtain ⟨_, _, hfollows⟩ := hbehind i hi
  exact hfollows.elim

/-- A cell but the root is listed once, by its parent. -/
theorem listed_once {j : Nat} {d : Cell H} (hj : a[j]? = some d) (hne : j ≠ 0) :
    ∃ i c, a[i]? = some c ∧ d.parent = some i ∧ c.children.count j = 1 ∧
      ∀ (i' : Nat) (c' : Cell H), a[i']? = some c' → j ∈ c'.children → i' = i := by
  obtain ⟨i, c, k, hi, hlink⟩ := ha.listed hj hne
  have hmem := Cell.mem_children_iff.2 ⟨k, hlink⟩
  have honce := List.count_eq_one_of_mem (nodup_children ha hroot hn hi) hmem
  refine ⟨i, c, hi, (ha.eq_of_links hi hlink hj).parent, honce, fun i' c' hi' hmem' => ?_⟩
  obtain ⟨k', hlink'⟩ := Cell.mem_children_iff.1 hmem'
  exact (ha.eq_of_parent hi' hlink' hi hlink hj).1

/-- **A way from the root leads to one cell.** -/
theorem eq_of_trail {cells cells' : List (Cell H)} {i j : Nat} (h : a.Trail cells i)
    (h' : a.Trail cells' j) (same : cells.map Cell.segment = cells'.map Cell.segment) : i = j := by
  induction h generalizing cells' j with
  | root =>
      cases h' with
      | root => rfl
      | step _ _ _ _ => simp at same
  | step up above listed here ih =>
      cases h' with
      | root => simp at same
      | step up' above' listed' here' =>
          rw [List.map_append, List.map_append] at same
          obtain ⟨hcells, hlast⟩ := List.append_inj' same rfl
          obtain rfl := ih up' hcells
          rw [above] at above'
          obtain rfl := Option.some.inj above'
          exact eq_of_segment_eq ha hroot hn above listed here listed' here'
            (List.singleton_inj.1 hlast)

/-- A path is the path of one cell. -/
theorem eq_of_path_eq {i j : Nat} {c d : Cell H} (hi : a[i]? = some c) (hj : a[j]? = some d)
    (heq : c.path = d.path) : i = j := by
  obtain ⟨cells, e, trail, hreach, hshow⟩ := exists_shown ha hroot hi
  obtain ⟨cells', e', trail', hreach', hshow'⟩ := exists_shown ha hroot hj
  rw [(hshow.children hi).1.path, (hshow'.children hj).1.path] at heq
  exact eq_of_trail ha hroot hn trail trail' (Node.eq_of_path_eq hn hreach hreach' heq).1

/-- The texts on the way from the root continue its path, and the names its parameters. -/
theorem spelled_of_trail {cells : List (Cell H)} {j : Nat} {d : Cell H} (trail : a.Trail cells j)
    (hj : a[j]? = some d) : d.path = n.path ++ cells.flatMap Cell.text ∧
      d.params = n.params ++ cells.filterMap Cell.name? := by
  obtain ⟨e, hreach, hshow⟩ := trail.exists_reach ha hroot
  obtain ⟨hpath, hparams⟩ := Node.path_of_reach hn hreach
  have fits := (hshow.children hj).1
  rw [fits.path, fits.params, hpath, hparams]
  constructor
  · simp [Template.spelled, List.flatMap_map, Cell.segment]
  · rw [Template.paramNames, List.filterMap_map]
    rfl

end

end Arena

/-! ### Stores -/

namespace Store

variable {s : Store H} {t : Tree H}

/-- The root of a store has nothing but literal children. -/
theorem Stands.bare_root (hs : s.Stands t) (ht : t.Sound) :
    ∃ r, s.cells[0]? = some r ∧ r.kind = .literal ∧ r.text = [] ∧ r.parent = none ∧
      (r.routes = fun _ => none) ∧ r.param = none ∧ r.wildcard = none ∧
        ∀ (i : Nat) (c : Cell H), s.cells[i]? = some c → 0 ∉ c.children := by
  obtain ⟨r, hr, hkind, htext, _, hparent⟩ := hs.wired.root
  have hfits := (hs.root.children hr).1
  have hopens : ∀ {k j}, r.Links k j → k = .literal := by
    intro k j hlink
    obtain ⟨d, first, _⟩ := hs.root.exists_branch hr hlink
    have h := ht.opens _ d first
    cases k with
    | literal => rfl
    | param => exact h.elim
    | wildcard => exact h.elim
  refine ⟨r, hr, hkind, htext, hparent, hfits.routes.trans ht.bare, ?_, ?_, ?_⟩
  · refine Option.eq_none_iff_forall_ne_some.2 fun j hj => ?_
    cases hopens (.param hj)
  · refine Option.eq_none_iff_forall_ne_some.2 fun j hj => ?_
    cases hopens (.wildcard hj)
  · intro i c hi hmem
    obtain ⟨k, hlink⟩ := Cell.mem_children_iff.1 hmem
    exact hs.wired.not_links_zero hi hlink

/-- **A store for a sound tree has an arena in order.** -/
theorem Stands.inOrder (hs : s.Stands t) (ht : t.Sound) : s.cells.InOrder where
  root := hs.bare_root ht
  child := by
    intro i j c k hi hlink
    obtain ⟨d, hd, hangs⟩ := hs.wired.hangs hi hlink
    exact ⟨d, hd, hangs.kind⟩
  listed _ _ hj hne := Arena.listed_once hs.wired hs.root ht.valid hj hne
  reached _ _ hj := hs.wired.exists_trail hj
  literal _ _ hj hne hk :=
    (Arena.proper_of_kind hs.wired hs.root ht.valid hj hne hk).literal_text
  apart _ _ hi := Arena.pairwise_literals hs.wired hs.root ht.valid hi
  param := by
    intro j d hj hk
    have hne := hs.wired.ne_zero_of_kind hj (by rw [hk]; decide)
    have hproper := Arena.proper_of_kind hs.wired hs.root ht.valid hj hne hk
    obtain ⟨hname, hslash⟩ := hproper.param_text
    exact ⟨hname, hslash, Arena.follows_param hs.wired hs.root ht.valid hj hk⟩
  wildcard := by
    intro j d hj hk
    have hne := hs.wired.ne_zero_of_kind hj (by rw [hk]; decide)
    have hproper := Arena.proper_of_kind hs.wired hs.root ht.valid hj hne hk
    obtain ⟨hname, hslash⟩ := hproper.wildcard_text
    exact ⟨hname, hslash, Arena.follows_wildcard hs.wired hs.root ht.valid hj hk⟩
  spelled := by
    intro cells j d trail hj
    have h := Arena.spelled_of_trail hs.wired hs.root ht.valid trail hj
    rwa [ht.path, ht.params] at h
  distinct _ _ _ _ hi hj heq := Arena.eq_of_path_eq hs.wired hs.root ht.valid hi hj heq
  routes := by
    intro j d v r hj hr
    obtain ⟨e, he, _, fits⟩ := Arena.exists_valid hs.wired hs.root ht.valid hj
    rw [fits.path, fits.params]
    rw [fits.routes] at hr
    exact he.regular.own hr

/-- **Every history of calls leaves an arena in order**, for the tree that it leaves. -/
theorem exists_run_inOrder (calls : List (Call H)) :
    ∃ s, empty.run calls = some s ∧ s.Stands (Tree.empty.run calls) ∧ s.cells.InOrder := by
  obtain ⟨s, hrun, hs⟩ := exists_run calls
  exact ⟨s, hrun, hs, hs.inOrder (Tree.run_sound calls)⟩

/-- Two splits: `/users` is cut below `/user`, and `s` gets a slash before the wildcard. -/
example : (empty.run [.add "/users".toList 0 [Verb.get.method], .add "/user/:id".toList 1 [],
      .add "/users/*rest".toList 2 [Verb.get.method]]).map
        (fun s => s.cells.map fun c => (c.parent, String.ofList c.text, c.children)) =
      some [(none, "", [1]), (some 0, "/user", [2, 3]), (some 1, "s", [5]), (some 1, "/", [4]),
        (some 3, ":id", []), (some 2, "/", [6]), (some 5, "*rest", [])] := by
  decide +kernel

end Store

end RouteTree
