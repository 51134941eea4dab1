/-
**How the cells of an arena hang together.**

In an arena that is *wired*, every link between two cells is kept at both of its ends: a cell that
is listed among the children of another one names it as its parent, is of the kind that the listing
says, and continues its path by a text that is not empty.  Every cell but the root is listed.  As
paths grow along the links, there are no circles among them, and going from parent to parent ends
at the root.

This is kept by the three changes of an arena, whatever the texts are that go into it.

Main definitions:

* `Cell.Links`, `Cell.Hangs` — the two ends of a link;
* `Arena.Wired` — an arena in which they fit together;
* `Arena.Trail` — the cells on the way from the root down to a place.

Main results:

* `Arena.Wired.sprouted`, `Arena.Wired.cut`, `Arena.Wired.routed` — **the three changes keep an
  arena wired**;
* `Arena.Wired.exists_trail` — **every cell is reached from the root**;
* `Arena.Trail.length_lt` — **no way from the root has as many steps as there are cells**.
-/
import Mathlib.Data.List.Perm.Subperm
import RouteTree.Proofs.Arena

set_option autoImplicit false
set_option relaxedAutoImplicit false

namespace RouteTree

variable {H : Type}

/-! ### The two ends of a link -/

namespace Cell

/-- A cell lists a place among its children of some kind. -/
inductive Links (c : Cell H) : Segment.Kind → Nat → Prop
  | literal {j : Nat} (h : j ∈ c.literals) : Links c .literal j
  | param {j : Nat} (h : c.param = some j) : Links c .param j
  | wildcard {j : Nat} (h : c.wildcard = some j) : Links c .wildcard j

/-- A cell is a child of some kind of the cell `c` at place `i`. -/
structure Hangs (d : Cell H) (k : Segment.Kind) (i : Nat) (c : Cell H) : Prop where
  kind : d.kind = k
  parent : d.parent = some i
  path : d.path = c.path ++ d.text
  text : d.text ≠ []

theorem mem_children_iff {c : Cell H} {j : Nat} : j ∈ c.children ↔ ∃ k, c.Links k j := by
  constructor
  · intro h
    simp only [children, List.mem_append, Option.mem_toList] at h
    rcases h with (h | h) | h
    · exact ⟨_, .literal h⟩
    · exact ⟨_, .param h⟩
    · exact ⟨_, .wildcard h⟩
  · rintro ⟨k, h⟩
    cases h with
    | literal h => simp [children, h]
    | param h => simp [children, h]
    | wildcard h => simp [children, h]

theorem links_congr (c' c : Cell H) (literals : c'.literals = c.literals)
    (param : c'.param = c.param) (wildcard : c'.wildcard = c.wildcard) {k : Segment.Kind}
    {j : Nat} : c'.Links k j ↔ c.Links k j := by
  constructor
  · intro h
    cases h with
    | literal h => exact .literal (literals ▸ h)
    | param h => exact .param (param ▸ h)
    | wildcard h => exact .wildcard (wildcard ▸ h)
  · intro h
    cases h with
    | literal h => exact .literal (literals ▸ h)
    | param h => exact .param (param ▸ h)
    | wildcard h => exact .wildcard (wildcard ▸ h)

theorem links_routes {c : Cell H} {routes : Slots H} {k : Segment.Kind} {j : Nat} :
    Links { c with routes } k j ↔ c.Links k j := links_congr { c with routes } c rfl rfl rfl

theorem links_parent {c : Cell H} {parent : Option Nat} {k : Segment.Kind} {j : Nat} :
    Links { c with parent } k j ↔ c.Links k j := links_congr { c with parent } c rfl rfl rfl

/-- The tail of a cell has its children. -/
theorem links_tail {c : Cell H} {path : Text} {parent keep : Nat} {k : Segment.Kind} {j : Nat} :
    Links { c.tail parent keep with path } k j ↔ c.Links k j :=
  links_congr { c.tail parent keep with path } c rfl rfl rfl

/-- A child more, in a place that is free. -/
theorem links_adopt_iff {c : Cell H} {s : Segment} (free : c.place? s = none) {id j : Nat}
    {k : Segment.Kind} : (c.adopt s id).Links k j ↔ c.Links k j ∨ k = s.kind ∧ j = id := by
  cases s with
  | literal run =>
      constructor
      · intro h
        cases h with
        | literal h =>
            rcases List.mem_append.1 h with h | h
            · exact Or.inl (.literal h)
            · exact Or.inr ⟨rfl, List.mem_singleton.1 h⟩
        | param h => exact Or.inl (.param h)
        | wildcard h => exact Or.inl (.wildcard h)
      · rintro (h | ⟨rfl, rfl⟩)
        · cases h with
          | literal h => exact .literal (List.mem_append_left _ h)
          | param h => exact .param h
          | wildcard h => exact .wildcard h
        · exact .literal (List.mem_append_right _ List.mem_cons_self)
  | param name =>
      have hfree : c.param = none := free
      constructor
      · intro h
        cases h with
        | literal h => exact Or.inl (.literal h)
        | param h => exact Or.inr ⟨rfl, (Option.some.inj h).symm⟩
        | wildcard h => exact Or.inl (.wildcard h)
      · rintro (h | ⟨rfl, rfl⟩)
        · cases h with
          | literal h => exact .literal h
          | param h => simp [hfree] at h
          | wildcard h => exact .wildcard h
        · exact .param rfl
  | wildcard name =>
      have hfree : c.wildcard = none := free
      constructor
      · intro h
        cases h with
        | literal h => exact Or.inl (.literal h)
        | param h => exact Or.inl (.param h)
        | wildcard h => exact Or.inr ⟨rfl, (Option.some.inj h).symm⟩
      · rintro (h | ⟨rfl, rfl⟩)
        · cases h with
          | literal h => exact .literal h
          | param h => exact .param h
          | wildcard h => simp [hfree] at h
        · exact .wildcard rfl

theorem not_links_fresh {c : Cell H} {parent j : Nat} {s : Segment} {k : Segment.Kind} :
    ¬ (c.fresh parent s).Links k j := by
  intro h
  cases h with
  | literal h => cases h
  | param h => cases h
  | wildcard h => cases h

@[simp] theorem adopt_kind (c : Cell H) (s : Segment) (id : Nat) :
    (c.adopt s id).kind = c.kind := by cases s <;> rfl

@[simp] theorem adopt_text (c : Cell H) (s : Segment) (id : Nat) :
    (c.adopt s id).text = c.text := by cases s <;> rfl

@[simp] theorem adopt_path (c : Cell H) (s : Segment) (id : Nat) :
    (c.adopt s id).path = c.path := by cases s <;> rfl

@[simp] theorem adopt_params (c : Cell H) (s : Segment) (id : Nat) :
    (c.adopt s id).params = c.params := by cases s <;> rfl

@[simp] theorem adopt_parent (c : Cell H) (s : Segment) (id : Nat) :
    (c.adopt s id).parent = c.parent := by cases s <;> rfl

@[simp] theorem adopt_routes (c : Cell H) (s : Segment) (id : Nat) :
    (c.adopt s id).routes = c.routes := by cases s <;> rfl

/-- What a cell hangs on is a matter of its kind, its parent, its path and its text. -/
theorem Hangs.congr {d d' c c' : Cell H} {k : Segment.Kind} {i : Nat} (h : d.Hangs k i c)
    (kind : d'.kind = d.kind) (parent : d'.parent = d.parent) (path : d'.path = d.path)
    (text : d'.text = d.text) (start : c'.path = c.path) : d'.Hangs k i c' :=
  ⟨kind.trans h.kind, parent.trans h.parent, by rw [path, start, text, h.path], text ▸ h.text⟩

/-- The cell `d` has become `d'`: it hangs where it hung, and its children are among those of
`d'`. -/
structure Persists (d d' : Cell H) : Prop where
  kind : d'.kind = d.kind
  parent : d'.parent = d.parent
  path : d'.path = d.path
  text : d'.text = d.text
  links : ∀ {k : Segment.Kind} {j : Nat}, d.Links k j → d'.Links k j

theorem Persists.refl (d : Cell H) : d.Persists d := ⟨rfl, rfl, rfl, rfl, id⟩

theorem Hangs.of_persists {d d' c c' : Cell H} {k : Segment.Kind} {i : Nat} (h : d.Hangs k i c)
    (hd : d.Persists d') (path : c'.path = c.path) : d'.Hangs k i c' :=
  h.congr hd.kind hd.parent hd.path hd.text path

/-- A path is longer than the path that it continues. -/
theorem Hangs.length_lt {d c : Cell H} {k : Segment.Kind} {i : Nat} (h : d.Hangs k i c) :
    c.path.length < d.path.length := by
  have hlen := congrArg List.length h.path
  have htext := List.length_pos_iff.2 h.text
  rw [List.length_append] at hlen
  omega

end Cell

namespace Arena

/-! ### Wired arenas -/

/-- **An arena in which the two ends of every link fit together**, and every cell but the root is at
the end of one. -/
structure Wired (a : Arena H) : Prop where
  root : ∃ c, a[0]? = some c ∧ c.kind = .literal ∧ c.text = [] ∧ c.path = [] ∧ c.parent = none
  hangs : ∀ {i j : Nat} {c : Cell H} {k : Segment.Kind}, a[i]? = some c → c.Links k j →
    ∃ d : Cell H, a[j]? = some d ∧ d.Hangs k i c
  listed : ∀ {j : Nat} {d : Cell H}, a[j]? = some d → j ≠ 0 →
    ∃ (i : Nat) (c : Cell H) (k : Segment.Kind), a[i]? = some c ∧ c.Links k j

/-- The root alone is wired. -/
theorem wired_root : Wired [Cell.root (H := H)] where
  root := ⟨Cell.root, rfl, rfl, rfl, rfl, rfl⟩
  hangs := by
    intro i j c k hi h
    have hc : c = .root := by
      obtain ⟨hlt, rfl⟩ := List.getElem?_eq_some_iff.1 hi
      have hzero : i = 0 := by simpa using hlt
      subst hzero
      rfl
    subst hc
    cases h with
    | literal h => cases h
    | param h => cases h
    | wildcard h => cases h
  listed := by
    intro j d hj hne
    have hlt := lt_length_of_getElem? hj
    rw [List.length_singleton] at hlt
    omega

namespace Wired

variable {a a' : Arena H} {id : Nat} {c : Cell H}

/-- A cell that is listed says by whom. -/
theorem eq_of_links (ha : a.Wired) {i j : Nat} {d e : Cell H} {k : Segment.Kind}
    (hi : a[i]? = some d) (h : d.Links k j) (hj : a[j]? = some e) : e.Hangs k i d := by
  obtain ⟨e', hj', hangs⟩ := ha.hangs hi h
  rw [hj] at hj'
  obtain rfl := Option.some.inj hj'
  exact hangs

/-- A cell is listed by its parent only. -/
theorem eq_of_parent (ha : a.Wired) {i i' j : Nat} {d d' e : Cell H} {k k' : Segment.Kind}
    (hi : a[i]? = some d) (h : d.Links k j) (hi' : a[i']? = some d') (h' : d'.Links k' j)
    (hj : a[j]? = some e) : i = i' ∧ d = d' := by
  have hparent := (ha.eq_of_links hi h hj).parent
  rw [(ha.eq_of_links hi' h' hj).parent] at hparent
  obtain rfl := Option.some.inj hparent
  rw [hi] at hi'
  exact ⟨rfl, Option.some.inj hi'⟩

/-- The root is nobody's child. -/
theorem not_links_zero (ha : a.Wired) {i : Nat} {d : Cell H} {k : Segment.Kind}
    (hi : a[i]? = some d) : ¬ d.Links k 0 := by
  intro h
  obtain ⟨r, hr, _, _, _, hparent⟩ := ha.root
  have hangs := ha.eq_of_links hi h hr
  rw [hangs.parent] at hparent
  cases hparent

/-- The root is no placeholder. -/
theorem ne_zero_of_kind (ha : a.Wired) {j : Nat} {d : Cell H} (hj : a[j]? = some d)
    (hk : d.kind ≠ .literal) : j ≠ 0 := by
  rintro rfl
  obtain ⟨r, hr, hkind, _⟩ := ha.root
  rw [hj] at hr
  obtain rfl := Option.some.inj hr
  exact hk hkind

/-- No cell is its own child. -/
theorem not_links_self (ha : a.Wired) (h : a[id]? = some c) {k : Segment.Kind} :
    ¬ c.Links k id := by
  intro hlink
  have hlt := (ha.eq_of_links h hlink h).length_lt
  omega

/-- A child is in the row. -/
theorem lt_of_links (ha : a.Wired) (h : a[id]? = some c) {k : Segment.Kind} {j : Nat}
    (hlink : c.Links k j) : j < a.length := by
  obtain ⟨d, hd, _⟩ := ha.hangs h hlink
  exact lt_length_of_getElem? hd

/-- An arena stays wired when its cells persist, and new links have two ends. -/
theorem of_persists (ha : a.Wired)
    (kept : ∀ (j : Nat) (d : Cell H), a[j]? = some d →
      ∃ d' : Cell H, a'[j]? = some d' ∧ d.Persists d')
    (links : ∀ {i j : Nat} {e : Cell H} {k : Segment.Kind}, a'[i]? = some e → e.Links k j →
      (∃ d : Cell H, a[i]? = some d ∧ d.Links k j ∧ e.path = d.path) ∨
        ∃ d : Cell H, a'[j]? = some d ∧ d.Hangs k i e)
    (fresh : ∀ (j : Nat) (e : Cell H), a'[j]? = some e → a[j]? = none →
      ∃ (i : Nat) (d : Cell H) (k : Segment.Kind), a'[i]? = some d ∧ d.Links k j) : a'.Wired where
  root := by
    obtain ⟨r, hr, hkind, htext, hpath, hparent⟩ := ha.root
    obtain ⟨r', hr', hp⟩ := kept 0 r hr
    exact ⟨r', hr', hp.kind.trans hkind, hp.text.trans htext, hp.path.trans hpath,
      hp.parent.trans hparent⟩
  hangs := by
    intro i j e k hi hlink
    rcases links hi hlink with ⟨d, hd, hold, hpath⟩ | hnew
    · obtain ⟨d', hd', hangs⟩ := ha.hangs hd hold
      obtain ⟨d'', hd'', hp⟩ := kept j d' hd'
      exact ⟨d'', hd'', hangs.of_persists hp hpath⟩
    · exact hnew
  listed := by
    intro j e hj hne
    cases hold : a[j]? with
    | none => exact fresh j e hj hold
    | some d =>
        obtain ⟨i, c, k, hi, hlink⟩ := ha.listed hold hne
        obtain ⟨c', hc', hp⟩ := kept i c hi
        exact ⟨i, c', k, hc', hp.links hlink⟩

/-- **A fresh child keeps an arena wired.** -/
theorem sprouted (ha : a.Wired) (h : a[id]? = some c) {s : Segment} (free : c.place? s = none)
    (text : s.text ≠ []) (h' : a.Sprouted id c s a') : a'.Wired := by
  have hlt := lt_length_of_getElem? h
  refine ha.of_persists ?_ ?_ ?_
  · intro j d hj
    by_cases hjid : j = id
    · subst hjid
      rw [h] at hj
      obtain rfl := Option.some.inj hj
      exact ⟨_, h'.parent, by simp, by simp, by simp, by simp,
        fun hlink => (Cell.links_adopt_iff free).2 (Or.inl hlink)⟩
    · have hjlt := lt_length_of_getElem? hj
      exact ⟨d, by rw [h'.others j hjid (by omega), hj], .refl d⟩
  · intro i j e k hi hlink
    by_cases hid : i = id
    · subst hid
      rw [h'.parent] at hi
      obtain rfl := Option.some.inj hi
      rcases (Cell.links_adopt_iff free).1 hlink with hold | ⟨rfl, rfl⟩
      · exact Or.inl ⟨c, h, hold, by simp⟩
      · exact Or.inr ⟨_, h'.fresh, rfl, rfl, by simp [Cell.fresh], text⟩
    · by_cases hend : i = a.length
      · subst hend
        rw [h'.fresh] at hi
        obtain rfl := Option.some.inj hi
        exact (Cell.not_links_fresh hlink).elim
      · rw [h'.others i hid hend] at hi
        exact Or.inl ⟨e, hi, hlink, rfl⟩
  · intro j e hj hnone
    refine ⟨id, _, s.kind, h'.parent, (Cell.links_adopt_iff free).2 (Or.inr ⟨rfl, ?_⟩)⟩
    by_contra hne
    have hjid : j ≠ id := by
      rintro rfl
      rw [h] at hnone
      cases hnone
    rw [h'.others j hjid hne, hnone] at hj
    cases hj

/-- **Other routes keep an arena wired.** -/
theorem routed (ha : a.Wired) (id : Nat) (routes : Slots H) :
    Wired (a.modify id ({ · with routes })) := by
  refine ha.of_persists ?_ ?_ ?_
  · intro j d hj
    rw [List.getElem?_modify, hj]
    split
    · exact ⟨_, rfl, rfl, rfl, rfl, rfl, Cell.links_routes.2⟩
    · exact ⟨_, rfl, .refl d⟩
  · intro i j e k hi hlink
    rw [List.getElem?_modify] at hi
    obtain ⟨d, hd, rfl⟩ := Option.map_eq_some_iff.1 hi
    refine Or.inl ⟨d, hd, ?_⟩
    by_cases hid : id = i
    · simp only [hid, if_true] at hlink ⊢
      exact ⟨Cell.links_routes.1 hlink, trivial⟩
    · simp only [hid, if_false] at hlink ⊢
      exact ⟨hlink, trivial⟩
  · intro j e hj hnone
    rw [List.getElem?_modify, hnone] at hj
    cases hj

/-- A cell apart from those that a split makes is one that was there, up to its parent. -/
theorem exists_of_cut {start : Text} {keep : Nat} (h' : a.Cut id c start keep a') {i : Nat}
    {e : Cell H} (hi : a'[i]? = some e) (hid : i ≠ id) (hend : i ≠ a.length) :
    ∃ d : Cell H, a[i]? = some d ∧
      e = { d with parent := if i ∈ c.children then some a.length else d.parent } := by
  rw [h'.others i hid hend] at hi
  obtain ⟨d, hd, rfl⟩ := Option.map_eq_some_iff.1 hi
  exact ⟨d, hd, rfl⟩

/-- Every literal child can be split. -/
theorem exists_split (ha : a.Wired) {p : Nat} {q : Cell H} (hp : a[p]? = some q)
    (hlink : q.Links .literal id) (h : a[id]? = some c) (k : Nat) :
    ∃ a', a.split id k = some (a', .nodeSplit c.path (c.text.take k) (c.text.drop k)) ∧
      a.Cut id c q.path k a' := by
  have hangs := ha.eq_of_links hp hlink h
  have hne : p ≠ id := by
    rintro rfl
    exact ha.not_links_self hp hlink
  refine Arena.exists_split h hangs.parent hp hne hangs.path (fun j hj => ?_) k
  obtain ⟨k', hk⟩ := Cell.mem_children_iff.1 hj
  refine ⟨ha.lt_of_links h hk, ?_⟩
  rintro rfl
  exact ha.not_links_self h hk

/-- After a split, the ends of the links from the other cells are where they were. -/
theorem hangs_of_cut (ha : a.Wired) (h : a[id]? = some c) {p : Nat} {q : Cell H} {keep : Nat}
    (hp : a[p]? = some q) (hlink : q.Links .literal id) (kept : c.text.take keep ≠ [])
    (h' : a.Cut id c q.path keep a') {i j : Nat} {d : Cell H} {k : Segment.Kind}
    (hi : a[i]? = some d) (hid : i ≠ id) (hk : d.Links k j) :
    ∃ e : Cell H, a'[j]? = some e ∧ e.Hangs k i d := by
  obtain ⟨e, he, he'⟩ := ha.hangs hi hk
  by_cases hjid : j = id
  · -- the head hangs where the cell hung before
    subst hjid
    rw [h] at he
    obtain rfl := Option.some.inj he
    obtain ⟨_, rfl⟩ := ha.eq_of_parent hi hk hp hlink h
    exact ⟨_, h'.head, he'.kind, he'.parent, rfl, kept⟩
  · -- a child of another cell is not among those that were moved
    have hmem : j ∉ c.children := by
      intro hmem
      obtain ⟨k', hk'⟩ := Cell.mem_children_iff.1 hmem
      obtain ⟨rfl, _⟩ := ha.eq_of_parent hi hk h hk' he
      exact hid rfl
    have hlt := lt_length_of_getElem? he
    refine ⟨e, ?_, he'⟩
    rw [h'.others j hjid (by omega), he]
    simp [hmem]

/-- After a split, every cell but the root is listed. -/
theorem listed_of_cut (ha : a.Wired) (h : a[id]? = some c) {start : Text} {keep : Nat}
    (h' : a.Cut id c start keep a') {j : Nat} {e : Cell H} (hj : a'[j]? = some e) (hne : j ≠ 0) :
    ∃ (i : Nat) (d : Cell H) (k : Segment.Kind), a'[i]? = some d ∧ d.Links k j := by
  by_cases hend : j = a.length
  · exact ⟨id, _, .literal, h'.head, .literal (by simp [hend])⟩
  obtain ⟨d, hd⟩ : ∃ d, a[j]? = some d := by
    by_cases hid : j = id
    · exact ⟨c, by rw [hid, h]⟩
    · obtain ⟨d, hd, _⟩ := exists_of_cut h' hj hid hend
      exact ⟨d, hd⟩
  -- the cell that lists it still does, or its tail does
  obtain ⟨i, f, k, hi, hk⟩ := ha.listed hd hne
  by_cases hid : i = id
  · subst hid
    rw [h] at hi
    obtain rfl := Option.some.inj hi
    exact ⟨a.length, _, k, h'.tail, Cell.links_tail.2 hk⟩
  · have hlt := lt_length_of_getElem? hi
    have hi' := h'.others i hid (by omega)
    rw [hi] at hi'
    exact ⟨i, _, k, hi', Cell.links_parent.2 hk⟩

/-- **A split keeps an arena wired.** -/
theorem cut (ha : a.Wired) (h : a[id]? = some c) {p : Nat} {q : Cell H} {keep : Nat}
    (hp : a[p]? = some q) (hlink : q.Links .literal id) (kept : c.text.take keep ≠ [])
    (rest : c.text.drop keep ≠ []) (h' : a.Cut id c q.path keep a') : a'.Wired := by
  have hlt := lt_length_of_getElem? h
  refine ⟨?_, ?_, fun hj hne => ha.listed_of_cut h h' hj hne⟩
  · obtain ⟨r, hr, hr'⟩ := ha.root
    have hid : 0 ≠ id := by
      rintro rfl
      exact ha.not_links_zero hp hlink
    have hmem : 0 ∉ c.children := by
      intro hmem
      obtain ⟨k, hk⟩ := Cell.mem_children_iff.1 hmem
      exact ha.not_links_zero h hk
    refine ⟨r, ?_, hr'⟩
    rw [h'.others 0 hid (by omega), hr]
    simp [hmem]
  · intro i j e k hi hk
    by_cases hid : i = id
    · -- the head lists the tail
      subst hid
      rw [h'.head] at hi
      obtain rfl := Option.some.inj hi
      cases hk with
      | literal hk =>
          obtain rfl := List.mem_singleton.1 hk
          refine ⟨_, h'.tail, rfl, rfl, ?_, rest⟩
          rw [(ha.eq_of_links hp hlink h).path]
          simp [Cell.tail]
      | param hk => cases hk
      | wildcard hk => cases hk
    by_cases hend : i = a.length
    · -- the tail lists the children that were moved to it
      subst hend
      rw [h'.tail] at hi
      obtain rfl := Option.some.inj hi
      have hk' := Cell.links_tail.1 hk
      obtain ⟨d, hd, hd'⟩ := ha.hangs h hk'
      have hjlt := lt_length_of_getElem? hd
      have hjid : j ≠ id := by
        rintro rfl
        exact ha.not_links_self h hk'
      refine ⟨_, by rw [h'.others j hjid (by omega), hd]; rfl, ?_⟩
      exact ⟨hd'.kind, by simp [Cell.mem_children_iff.2 ⟨k, hk'⟩], hd'.path, hd'.text⟩
    · obtain ⟨d, hd, rfl⟩ := exists_of_cut h' hi hid hend
      obtain ⟨e, he, he'⟩ := ha.hangs_of_cut h hp hlink kept h' hd hid (Cell.links_parent.1 hk)
      exact ⟨e, he, he'.congr rfl rfl rfl rfl rfl⟩

end Wired

/-! ### Down from the root -/

/-- **The cells on the way from the root down to a place**, without the root, whose text is
empty. -/
inductive Trail (a : Arena H) : List (Cell H) → Nat → Prop
  | root : Trail a [] 0
  | step {cells : List (Cell H)} {i j : Nat} {c d : Cell H} (up : Trail a cells i)
      (above : a[i]? = some c) (listed : j ∈ c.children) (here : a[j]? = some d) :
      Trail a (cells ++ [d]) j

/-- **Every cell of a wired arena is reached from the root.** -/
theorem Wired.exists_trail {a : Arena H} (ha : a.Wired) {j : Nat} {d : Cell H}
    (hj : a[j]? = some d) : ∃ cells, a.Trail cells j := by
  -- the induction is on the path, which gets shorter from child to parent
  induction hlen : d.path.length using Nat.strong_induction_on generalizing j d with
  | _ len ih =>
      by_cases hzero : j = 0
      · subst hzero
        exact ⟨[], .root⟩
      · obtain ⟨i, c, k, hi, hlink⟩ := ha.listed hj hzero
        have hlt := (ha.eq_of_links hi hlink hj).length_lt
        obtain ⟨cells, up⟩ := ih _ (by omega) hi rfl
        exact ⟨cells ++ [d], .step up hi (Cell.mem_children_iff.2 ⟨k, hlink⟩) hj⟩

namespace Trail

variable {a : Arena H} {cells : List (Cell H)} {j : Nat} {d : Cell H}

/-- Above a cell of a wired arena stand as many cells as there are steps from the root to it, and
their paths get longer from each to the next. -/
theorem exists_above (ha : a.Wired) (h : a.Trail cells j) (here : a[j]? = some d) :
    ∃ above : List (Cell H), above.length = cells.length ∧ above ++ [d] ⊆ a ∧
      (above ++ [d]).Pairwise fun c e => c.path.length < e.path.length := by
  induction h generalizing d with
  | root => exact ⟨[], rfl, by simpa using List.mem_of_getElem? here, List.pairwise_singleton _ _⟩
  | @step cells i j c e _ hi listed _ ih =>
      obtain ⟨above, hlen, hsub, hgrow⟩ := ih hi
      obtain ⟨k, hlink⟩ := Cell.mem_children_iff.1 listed
      have hlt := (ha.eq_of_links hi hlink here).length_lt
      refine ⟨above ++ [c], by simp [hlen], ?_, ?_⟩
      · exact List.append_subset.2 ⟨hsub, by simpa using List.mem_of_getElem? here⟩
      · refine List.pairwise_append.2 ⟨hgrow, List.pairwise_singleton _ _, fun e he f hf => ?_⟩
        obtain rfl := List.mem_singleton.1 hf
        rcases List.mem_append.1 he with he | he
        · exact ((List.pairwise_append.1 hgrow).2.2 e he c List.mem_cons_self).trans hlt
        · exact List.mem_singleton.1 he ▸ hlt

/-- **No way from the root has as many steps as there are cells.** -/
theorem length_lt (ha : a.Wired) (h : a.Trail cells j) (here : a[j]? = some d) :
    cells.length < a.length := by
  obtain ⟨above, hlen, hsub, hgrow⟩ := h.exists_above ha here
  have hnodup : (above ++ [d]).Nodup := hgrow.imp fun hlt heq => absurd hlt (by simp [heq])
  have hle := (hnodup.subperm hsub).length_le
  rw [List.length_append, List.length_singleton, hlen] at hle
  exact hle

end Trail

end Arena

end RouteTree
