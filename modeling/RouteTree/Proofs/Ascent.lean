/-
**Filling a template in on the way up.**

A URL can be put together from the end: beginning at the cell of a route and going from parent to
parent, each literal cell gives its text, and each placeholder takes the last of the values that
are left.  Nothing is searched for in this: which cells are placeholders is a matter of their kinds,
and the values are put in their places unread.

Filling in reads the template of the route instead, from the beginning and by its markers.  Both
come to the same text, for whatever values, however the cells on the way have been split since the
route was registered.

Main definitions:

* `Template.assembled` — the text of a row with values in the places of its placeholders;
* `Cell.give?`, `Arena.climb?`, `Arena.ascend?` — **what a cell gives on the way up, and the whole
  way**.

Main results:

* `Template.fill_spelled` — filling in a linked row fills its placeholders in, one by one;
* `Arena.Trail.ascend?_eq` — the way up uses each value once, from the last to the first;
* `Store.exists_run_ascends` — **a route makes the URL that the way up from its cell gives**.
-/
import RouteTree.Proofs.ArenaOrder
import RouteTree.Proofs.Filling

set_option autoImplicit false
set_option relaxedAutoImplicit false

namespace RouteTree

variable {H : Type}

namespace Template

/-! ### A row with values -/

/-- **The text of a row with values in the places of its placeholders.** -/
def assembled : List Segment → List Text → Text
  | [], _ => []
  | .literal run :: segs, values => run ++ assembled segs values
  | .param _ :: segs, values => values.headD [] ++ assembled segs values.tail
  | .wildcard _ :: segs, values => values.headD [] ++ assembled segs values.tail

/-- Rows are filled in one behind the other. -/
theorem assembled_append {segs more : List Segment} {values others : List Text}
    (count : values.length = (paramNames segs).length) :
    assembled (segs ++ more) (values ++ others) =
      assembled segs values ++ assembled more others := by
  induction segs generalizing values with
  | nil =>
      obtain rfl := List.eq_nil_of_length_eq_zero count
      rfl
  | cons s segs ih =>
      have hplace : s.name?.isSome → ∃ value rest, values = value :: rest ∧
          assembled (segs ++ more) (rest ++ others) =
            assembled segs rest ++ assembled more others := by
        intro hname
        obtain ⟨name, hs⟩ := Option.isSome_iff_exists.1 hname
        have hlen : values.length = (paramNames segs).length + 1 := by
          simpa [hs, Nat.add_comm] using count
        obtain ⟨value, rest, rfl⟩ := List.exists_cons_of_length_eq_add_one hlen
        exact ⟨value, rest, rfl, ih (by simpa using hlen)⟩
      cases s with
      | literal run =>
          have hlen : values.length = (paramNames segs).length := by
            simpa [Segment.name?] using count
          simp [assembled, ih hlen]
      | param name =>
          obtain ⟨value, rest, rfl, hrest⟩ := hplace rfl
          simp [assembled, hrest]
      | wildcard name =>
          obtain ⟨value, rest, rfl, hrest⟩ := hplace rfl
          simp [assembled, hrest]

/-- **Filling in a linked row fills its placeholders in, one by one**, whatever the values are. -/
theorem fill_spelled {segs : List Segment} (h : Linked segs) (values : List Text) :
    fill (spelled segs) values = assembled segs values := by
  induction segs generalizing values with
  | nil => exact fill_of_no_marker (by simp) values
  | cons s segs ih =>
      obtain ⟨hp, _, hsegs⟩ := linked_cons.1 h
      cases hp with
      | literal _ plain =>
          rw [spelled_cons, Segment.text, fill_run plain, ih hsegs, assembled]
      | @param name _ within =>
          have hfill : fill ([] ++ ':' :: (name ++ spelled segs)) values = _ :=
            fill_marked (by simp) rfl values
          rw [(span_within within h.opens).2, ih hsegs] at hfill
          simpa [assembled, Segment.text] using hfill
      | @wildcard name _ _ =>
          obtain rfl := h.eq_nil_of_wildcard
          have hfill : fill ([] ++ '*' :: name) values = _ := fill_marked (by simp) rfl values
          simpa [assembled, Segment.text] using hfill

end Template

/-! ### The way up -/

/-- **What a cell gives on the way up**, and the values that are left of `values`, the last of which
comes first.  A placeholder for which no value is left has nothing to give. -/
def Cell.give? (c : Cell H) (values : List Text) : Option (Text × List Text) :=
  match c.kind with
  | .literal => some (c.text, values)
  | .param | .wildcard =>
      match values with
      | [] => none
      | value :: left => some (value, left)

namespace Arena

/-- Go up from a place to the root in fewer than so many steps, and put together what the cells
give.  The values are used from the last to the first, and those that are left are given back. -/
def climb? (a : Arena H) : Nat → Nat → List Text → Option (Text × List Text)
  | 0, _, _ => none
  | steps + 1, id, values => do
      let c ← a[id]?
      let (piece, left) ← c.give? values
      match c.parent with
      | none => some (piece, left)
      | some parent => do
          let (start, left) ← climb? a steps parent left
          some (start ++ piece, left)

/-- **The way up from a place to the root**, and what is put together on it.  A way with as many
steps as there are cells has met one of them twice, and never comes to the root. -/
def ascend? (a : Arena H) (id : Nat) (values : List Text) : Option (Text × List Text) :=
  a.climb? a.length id values

end Arena

/-- A cell gives what its segment is filled in to. -/
theorem Cell.give?_eq (c : Cell H) {values : List Text}
    (count : values.length = c.name?.toList.length) (left : List Text) :
    c.give? (values.reverse ++ left) = some (Template.assembled [c.segment] values, left) := by
  unfold Cell.name? Cell.segment at count
  unfold give? Cell.segment
  cases hk : c.kind with
  | literal =>
      rw [hk] at count
      obtain rfl := List.eq_nil_of_length_eq_zero count
      simp [Segment.Kind.segment, Template.assembled]
  | param =>
      rw [hk] at count
      obtain ⟨value, rfl⟩ := List.length_eq_one_iff.1 (count.trans rfl)
      simp [Segment.Kind.segment, Template.assembled]
  | wildcard =>
      rw [hk] at count
      obtain ⟨value, rfl⟩ := List.length_eq_one_iff.1 (count.trans rfl)
      simp [Segment.Kind.segment, Template.assembled]

namespace Arena

variable {a : Arena H}

/-- The way up from a place is the way down to it, with its values from the last to the first. -/
theorem Trail.climb?_eq (ha : a.Wired) {cells : List (Cell H)} {id : Nat} (h : a.Trail cells id)
    {steps : Nat} (short : cells.length < steps) {values : List Text}
    (count : values.length = (cells.filterMap Cell.name?).length) (left : List Text) :
    a.climb? steps id (values.reverse ++ left) =
      some (Template.assembled (cells.map Cell.segment) values, left) := by
  induction h generalizing steps values left with
  | root =>
      obtain ⟨r, hr, hkind, htext, _, hparent⟩ := ha.root
      obtain rfl := List.eq_nil_of_length_eq_zero count
      obtain ⟨steps, rfl⟩ := Nat.exists_eq_add_one_of_ne_zero (Nat.ne_zero_of_lt short)
      simp [climb?, hr, Cell.give?, hkind, htext, hparent, Template.assembled]
  | @step cells i j c d up above listed here ih =>
      obtain ⟨k, hlink⟩ := Cell.mem_children_iff.1 listed
      have hparent := (ha.eq_of_links above hlink here).parent
      obtain ⟨steps, rfl⟩ := Nat.exists_eq_add_one_of_ne_zero (Nat.ne_zero_of_lt short)
      have hshort : cells.length < steps := by simpa using short
      -- the values of the cells above, and those of the last one
      have hsum : values.length =
          (cells.filterMap Cell.name?).length + d.name?.toList.length := by
        rw [count]
        cases hname : d.name? <;> simp [hname]
      generalize hn : (cells.filterMap Cell.name?).length = n at hsum ih
      obtain ⟨before, own, rfl, rfl⟩ : ∃ before own, values = before ++ own ∧ before.length = n :=
        ⟨values.take n, values.drop n, (List.take_append_drop n values).symm,
          List.length_take_of_le (by omega)⟩
      have hown : own.length = d.name?.toList.length := by simpa using hsum
      rw [climb?]
      simp only [here, Option.bind_eq_bind, Option.bind_some, List.reverse_append,
        List.append_assoc, d.give?_eq hown, hparent, ih hshort rfl left]
      rw [List.map_append, List.map_singleton, Template.assembled_append]
      rw [← hn, Template.paramNames, List.filterMap_map]
      rfl

/-- **The way up uses each value once**, from the last to the first, and puts them in the places of
the placeholders. -/
theorem Trail.ascend?_eq (ha : a.Wired) {cells : List (Cell H)} {id : Nat} (h : a.Trail cells id)
    {c : Cell H} (here : a[id]? = some c) {values : List Text}
    (count : values.length = (cells.filterMap Cell.name?).length) :
    a.ascend? id values.reverse =
      some (Template.assembled (cells.map Cell.segment) values, []) := by
  have hclimb := h.climb?_eq ha (h.length_lt ha here) count []
  rwa [List.append_nil] at hclimb

end Arena

/-! ### Stores -/

/-- A route makes a URL of as many values as it has parameters, and of no others. -/
theorem Route.url_eq_assembled (r : Route H) (values : List Text) (segs : List Segment)
    (linked : Template.Linked segs) (template : r.template = Template.spelled segs) :
    r.url values =
      if values.length = r.params.length then .ok (Template.assembled segs values)
      else .error (.paramCountMismatch r.params.length values.length) := by
  rw [url, template, Template.fill_spelled linked, ite_not]

namespace Store

variable {s : Store H} {t : Tree H}

/-- The routes of a store are those of the tree that it stands for. -/
theorem Stands.holds_iff (hs : s.Stands t) {v : Verb} {r : Route H} :
    t.root.Holds v r ↔ ∃ (id : Nat) (c : Cell H), s.cells[id]? = some c ∧ c.routes v = some r := by
  constructor
  · rintro ⟨segs, d, hreach, hd⟩
    obtain ⟨id, hshow⟩ := hs.root.exists_shown_of_reach hreach
    obtain ⟨c, here, fits⟩ := hshow.exists_cell
    exact ⟨id, c, here, fits.routes ▸ hd⟩
  · rintro ⟨id, c, here, hc⟩
    obtain ⟨cells, d, _, hreach, hshow⟩ := Arena.exists_shown hs.wired hs.root here
    exact ⟨_, d, hreach, (hshow.children here).1.routes ▸ hc⟩

/-- **A route makes the URL that the way up from its cell gives.** -/
theorem Stands.url_eq (hs : s.Stands t) (ht : t.Sound) {id : Nat} {c : Cell H} {v : Verb}
    {r : Route H} (here : s.cells[id]? = some c) (hr : c.routes v = some r) (values : List Text)
    (count : values.length = r.params.length) :
    ∃ url, s.cells.ascend? id values.reverse = some (url, []) ∧ r.url values = .ok url := by
  obtain ⟨cells, d, trail, hreach, hshow⟩ := Arena.exists_shown hs.wired hs.root here
  have fits := (hshow.children here).1
  obtain ⟨htemplate, hparams⟩ := ht.template_of_reach hreach (fits.routes ▸ hr)
  have hcells : values.length = (cells.filterMap Cell.name?).length := by
    rw [count, hparams, Template.paramNames, List.filterMap_map]
    rfl
  refine ⟨_, trail.ascend?_eq hs.wired here hcells, ?_⟩
  rw [r.url_eq_assembled values _ (Node.linked_of_reach ht.valid hreach) htemplate,
    if_pos count]

/-- **Every history of calls leaves a store that makes the URLs of its routes on the way up.**  Its
routes are those of the tree, wherever their cells have come to stand.  A route takes as many
values as it has parameters; the way up from its cell to the root uses all of them, from the last
to the first, and gives the URL. -/
theorem exists_run_ascends (calls : List (Call H)) :
    ∃ s, empty.run calls = some s ∧ s.Stands (Tree.empty.run calls) ∧
      (∀ (v : Verb) (r : Route H), (Tree.empty.run calls).root.Holds v r ↔
        ∃ (id : Nat) (c : Cell H), s.cells[id]? = some c ∧ c.routes v = some r) ∧
      ∀ (id : Nat) (c : Cell H) (v : Verb) (r : Route H), s.cells[id]? = some c →
        c.routes v = some r → ∀ values : List Text,
          (values.length ≠ r.params.length →
            r.url values = .error (.paramCountMismatch r.params.length values.length)) ∧
          (values.length = r.params.length →
            ∃ url, s.cells.ascend? id values.reverse = some (url, []) ∧
              r.url values = .ok url) := by
  obtain ⟨s, hrun, hs⟩ := exists_run calls
  have ht := Tree.run_sound calls
  refine ⟨s, hrun, hs, fun v r => hs.holds_iff, fun id c v r here hr values => ⟨?_, ?_⟩⟩
  · intro count
    rw [Route.url, if_pos count]
  · exact hs.url_eq ht here hr values

/-- The route of `/users/:id/x` is at the cell `/x`.  Its way up leads over two pieces of `/users/`,
which the second call has cut, and a value is not read. -/
example : ((empty.run [.add "/users/:id/x".toList 0 [Verb.get.method],
      .add "/user".toList 1 []]).bind fun s => s.cells.ascend? 3 ["7:*/".toList]) =
    some ("/users/7:*//x".toList, []) := by
  cbv

end Store

end RouteTree
