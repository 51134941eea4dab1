/-
**Bringing a template into an arena, once and again.**

Before a handler is registered its template is brought into the arena.  That is a change of its own,
which need not be followed by a registration: cells are split and made on the way, wherever earlier
templates have left the ends of their texts.  What the way comes to is the cell of the template, and
once it is there the same way leads to it without any change.

Main definitions:

* `Node.survey` — a visit that only looks at a node;
* `Arena.BroughtTo` — **what bringing a template into an arena leaves**.

Main results:

* `Node.Brought.exists_leads` — where segments have been brought, they lead;
* `Store.Stands.broughtTo` — what has been brought into the tree is brought into the arena;
* `Store.exists_run_brings` — **a template is brought to its own cell, and to the same one again**.
-/
import RouteTree.Proofs.ArenaOrder
import RouteTree.Proofs.Ascent
import RouteTree.Proofs.ByteArena
import RouteTree.Proofs.Shape

set_option autoImplicit false
set_option relaxedAutoImplicit false

namespace RouteTree

variable {H α : Type}

namespace Node

/-! ### Ways through nodes that are there -/

/-- A child that a segment leads to leads on. -/
theorem Leads.attach {n c d : Node H} {s : Segment} {rest : List Segment} (proper : s.Proper)
    (text : c.text = s.text) (onward : c.Leads rest d) : (n.attach s c).Leads (s :: rest) d := by
  cases s with
  | literal run =>
      obtain rfl : c.text = run := text
      have hmem : c ∈ (n.attach (.literal c.text) c).literals := by simp [Node.attach]
      have h : (n.attach (.literal c.text) c).Leads (.literal (c.text ++ []) :: rest) d :=
        .shared hmem proper.ne_nil (by simpa using onward)
      rwa [List.append_nil] at h
  | param name => exact .placed (s := .param name) rfl text onward
  | wildcard name => exact .placed (s := .wildcard name) rfl text onward

/-- **Where segments have been brought, they lead** to the node that has been visited. -/
theorem Brought.exists_leads {visit : Node H → Node H × α} (keeps : KeepsShape visit)
    {n n' : Node H} {segs : List Segment} {a : α} {es : List Event}
    (h : Brought visit n segs n' a es) (hsegs : Template.Linked segs) :
    ∃ d, (visit d).2 = a ∧ n'.Leads segs (visit d).1 := by
  induction h with
  | here n => exact ⟨n, rfl, .here _⟩
  | fresh _ onward ih =>
      obtain ⟨proper, _, hrest⟩ := Template.linked_cons.1 hsegs
      obtain ⟨d, ha, hleads⟩ := ih hrest
      exact ⟨d, ha, hleads.attach proper (onward.frame keeps).1⟩
  | @shared n c c' before after more rest a es among nonempty onward ih =>
      obtain ⟨d, ha, hleads⟩ := ih hsegs.literalThen
      have text := (onward.frame keeps).1
      refine ⟨d, ha, ?_⟩
      rw [← text]
      exact .shared (by simp) (text ▸ nonempty) hleads
  | @split n c c' before after keep tail more rest a among text kept cut parts onward ih =>
      obtain ⟨d, ha, hleads⟩ := ih hsegs.literalThen
      have htext : c'.text = keep := (onward.frame keeps).1.trans (split_text text)
      refine ⟨d, ha, ?_⟩
      rw [← htext]
      exact .shared (by simp) (htext ▸ kept) hleads
  | @placed n c c' s rest a es place same onward ih =>
      obtain ⟨proper, _, hrest⟩ := Template.linked_cons.1 hsegs
      obtain ⟨d, ha, hleads⟩ := ih hrest
      exact ⟨d, ha, hleads.attach proper ((onward.frame keeps).1.trans same)⟩

/-- The node that segments lead to has the path and the names that they continue. -/
theorem path_of_leads {n d : Node H} {segs : List Segment} (hn : n.Valid) (h : n.Leads segs d) :
    d.path = n.path ++ Template.spelled segs ∧
      d.params = n.params ++ Template.paramNames segs := by
  induction h with
  | here n => simp
  | shared among _ _ ih =>
      have first := Branch.literal among
      obtain ⟨hpath, hparams⟩ := ih (hn.branch first)
      rw [hpath, hparams, hn.regular.path first, hn.regular.params first]
      simp [Segment.text, Segment.name?]
  | placed place same _ ih =>
      have first := branch_of_place place same
      obtain ⟨hpath, hparams⟩ := ih (hn.branch first)
      rw [hpath, hparams, hn.regular.path first, hn.regular.params first]
      simp

/-- A visit that changes nothing, and answers with the path and the names of the node. -/
def survey (n : Node H) : Node H × Text × List Text := (n, n.path, n.params)

theorem keepsShape_survey : KeepsShape (survey : Node H → Node H × Text × List Text) := by
  intro d
  cases d
  rfl

/-- Bringing segments alone adds no route and takes none away. -/
theorem Brought.holds_survey_iff {n n' : Node H} {segs : List Segment} {x : Text × List Text}
    {es : List Event} (h : Brought survey n segs n' x es) (hn : n.Valid)
    (hsegs : Template.Linked segs) {v : Verb} {r : Route H} : n'.Holds v r ↔ n.Holds v r := by
  have hsame : n'.Holds v r ↔ n.Holds v r ∨ False :=
    h.holds_iff keepsShape_survey hn hsegs fun d _ _ => by rw [survey, or_false]
  rw [hsame, or_false]

end Node

namespace Arena

/-! ### Bringing once and again -/

/-- Look at a cell, and change nothing. -/
def survey? (a : Arena H) (id : Nat) : Option (Arena H × Text × List Text) :=
  a[id]?.map fun c => (a, c.path, c.params)

theorem performs_survey : Performs survey? (Node.survey : Node H → Node H × Text × List Text) := by
  intro a id n ha hshow _
  obtain ⟨c, here, fits⟩ := hshow.exists_cell
  refine ⟨a, ?_, ha, hshow, fun _ _ hj _ => hj⟩
  simp [survey?, here, Node.survey, fits.path, fits.params]

/-- **What bringing a template into the arena `a` leaves** when it has come to place `id`. -/
structure BroughtTo (a : Arena H) (template : Text) (id : Nat) (a' : Arena H) : Prop where
  /-- The cell there has the template for its path, and the names of the placeholders. -/
  cell : ∃ c segs, a'[id]? = some c ∧ Template.segments template = .ok segs ∧ c.path = template ∧
    c.params = Template.paramNames segs
  /-- The path of a cell is still that of one, which has the same routes. -/
  kept : ∀ (j : Nat) (d : Cell H), a[j]? = some d →
    ∃ (j' : Nat) (d' : Cell H), a'[j']? = some d' ∧ d'.path = d.path ∧ d'.routes = d.routes
  /-- No cell has got a route. -/
  added : ∀ (j' : Nat) (d' : Cell H) (v : Verb) (r : Route H), a'[j']? = some d' →
    d'.routes v = some r →
      ∃ (j : Nat) (d : Cell H), a[j]? = some d ∧ d.path = d'.path ∧ d.routes v = some r
  /-- The template is brought to the same place again, and nothing changes. -/
  again : a'.bring? template = some ⟨a', .ok id, []⟩
  /-- The arena is one tree in order. -/
  inOrder : a'.InOrder

end Arena

/-! ### Trees -/

section Surveyed

variable {t : Tree H} {template : Text} {segs : List Segment} {root : Node H}
  {x : Text × List Text} {es : List Event}

/-- Bringing a template that opens with a slash into a sound tree leaves a sound one. -/
theorem Tree.Sound.of_surveyed (ht : t.Sound) (slash : template.head? = some '/')
    (hcut : Template.segments template = .ok segs)
    (h : Node.Brought Node.survey t.root segs root x es) : Tree.Sound { t with root } := by
  have hlinked := Template.linked_of_segments hcut
  refine ht.of_brought Node.keepsShape_survey slash hcut h ?_ ?_
  · exact h.valid Node.keepsShape_survey ht.valid hlinked fun d _ _ hd _ _ hr => hd.own hr
  · exact fun v r hr => ht.room v r ((h.holds_survey_iff ht.valid hlinked).1 hr)

/-- A template that has been brought into a sound tree leads to a node with its path and its names,
which have been answered. -/
theorem Tree.Sound.exists_leads_of_surveyed (ht : t.Sound) (slash : template.head? = some '/')
    (hcut : Template.segments template = .ok segs)
    (h : Node.Brought Node.survey t.root segs root x es) :
    ∃ d, root.Leads segs d ∧ d.path = template ∧ d.params = Template.paramNames segs ∧
      x = (d.path, d.params) := by
  have ht' := ht.of_surveyed slash hcut h
  obtain ⟨d, hx, hleads⟩ :=
    h.exists_leads Node.keepsShape_survey (Template.linked_of_segments hcut)
  obtain ⟨hpath, hparams⟩ := Node.path_of_leads ht'.valid hleads
  rw [ht'.path, List.nil_append, Template.spelled_of_segments hcut] at hpath
  rw [ht'.params, List.nil_append] at hparams
  exact ⟨d, hleads, hpath, hparams, hx.symm⟩

end Surveyed

namespace Store

variable {s : Store H} {t : Tree H}

/-- The routes of a cell are those that the tree holds for its path. -/
theorem Stands.routes_iff (hs : s.Stands t) (ht : t.Sound) {j : Nat} {d : Cell H}
    (hj : s.cells[j]? = some d) {v : Verb} {r : Route H} :
    d.routes v = some r ↔ t.root.Holds v r ∧ r.template = d.path := by
  constructor
  · intro hr
    exact ⟨hs.holds_iff.2 ⟨j, d, hj, hr⟩, ((hs.inOrder ht).routes j d v r hj hr).1⟩
  · intro hr
    obtain ⟨hholds, htemplate⟩ := hr
    obtain ⟨i, c, hi, hc⟩ := hs.holds_iff.1 hholds
    have hpath := ((hs.inOrder ht).routes i c v r hi hc).1.symm.trans htemplate
    obtain rfl := Arena.eq_of_path_eq hs.wired hs.root ht.valid hi hj hpath
    obtain rfl := Option.some.inj (hi.symm.trans hj)
    exact hc

section Routes

variable {s' : Store H} {t' : Tree H}

/-- If a tree keeps its paths and its routes, so do the cells for it. -/
theorem Stands.exists_same_routes (hs : s.Stands t) (ht : t.Sound) (hs' : s'.Stands t')
    (ht' : t'.Sound) (holds : ∀ v r, t'.root.Holds v r ↔ t.root.Holds v r) {j : Nat} {d : Cell H}
    (hj : s.cells[j]? = some d) (path : t'.root.HasPath d.path) :
    ∃ (j' : Nat) (d' : Cell H), s'.cells[j']? = some d' ∧ d'.path = d.path ∧
      d'.routes = d.routes := by
  obtain ⟨j', d', hj', hpath⟩ := (hs'.exists_cell_iff ht').2 path
  refine ⟨j', d', hj', hpath, ?_⟩
  funext v
  refine Option.ext fun r => ?_
  rw [hs'.routes_iff ht' hj', hs.routes_iff ht hj, holds, hpath]

/-- If a tree has got no route, no cell has got one. -/
theorem Stands.exists_old_route (hs : s.Stands t) (ht : t.Sound) (hs' : s'.Stands t')
    (ht' : t'.Sound) (holds : ∀ v r, t'.root.Holds v r ↔ t.root.Holds v r) {j' : Nat} {d' : Cell H}
    (hj' : s'.cells[j']? = some d') {v : Verb} {r : Route H} (hr : d'.routes v = some r) :
    ∃ (j : Nat) (d : Cell H), s.cells[j]? = some d ∧ d.path = d'.path ∧ d.routes v = some r := by
  obtain ⟨hholds, htemplate⟩ := (hs'.routes_iff ht' hj').1 hr
  obtain ⟨j, d, hj, hd⟩ := hs.holds_iff.1 ((holds v r).1 hholds)
  have hown := ((hs.inOrder ht).routes j d v r hj hd).1
  exact ⟨j, d, hj, hown.symm.trans htemplate, hd⟩

end Routes

/-- What has been brought into the tree is brought into the arena, to the cell of the template. -/
theorem Stands.broughtTo (hs : s.Stands t) (ht : t.Sound) {template : Text}
    (slash : template.head? = some '/') {segs : List Segment}
    (hcut : Template.segments template = .ok segs) {root : Node H} {x : Text × List Text}
    {es : List Event} (h : Node.Brought Node.survey t.root segs root x es) :
    ∃ a' id, s.cells.bring? template = some ⟨a', .ok id, es⟩ ∧
      s.cells.BroughtTo template id a' := by
  have hlinked := Template.linked_of_segments hcut
  have hparted := Template.parted_of_segments hcut
  obtain ⟨a', id, _, hfollow, hsurvey, hwired, hroot, _⟩ :=
    Arena.follow_of_brought Arena.performs_survey template h ht.valid hlinked hs.wired hs.root
  obtain ⟨c, here, heq⟩ := Option.map_eq_some_iff.1 hsurvey
  obtain ⟨rfl, hx⟩ := Prod.mk.inj heq
  have ht' := ht.of_surveyed slash hcut h
  have hs' : Stands { s with cells := a' } { t with root } :=
    ⟨hwired, hroot, hs.size, hs.maxParams, hs.isSealed⟩
  have hholds : ∀ v r, root.Holds v r ↔ t.root.Holds v r :=
    fun v r => h.holds_survey_iff ht.valid hlinked
  -- the segments lead to the node of the template now, and only this cell shows it
  obtain ⟨d, hleads, hpath, hparams, hd⟩ := ht.exists_leads_of_surveyed slash hcut h
  obtain ⟨hcpath, hcparams⟩ := Prod.mk.inj (hx.trans hd)
  obtain ⟨j, hagain, hj⟩ := hroot.follow_of_leads template ht'.valid hleads
  obtain ⟨e, he, fits⟩ := hj.exists_cell
  obtain rfl := Arena.eq_of_path_eq hwired hroot ht'.valid here he (hcpath.trans fits.path.symm)
  refine ⟨a', id, ?_, ?_, ?_, ?_, ?_, hs'.inOrder ht'⟩
  · rw [Arena.bring?_eq, s.cells.bring_of_ok hcut, hfollow]
  · exact ⟨c, segs, here, hcut, hcpath.trans hpath, hcparams.trans hparams⟩
  · intro i f hi
    have hold := (hs.exists_cell_iff ht).1 ⟨i, f, hi, rfl⟩
    have hnew : root.HasPath f.path :=
      (h.hasPath_iff Node.keepsShape_survey ht.valid hlinked hparted).2 (Or.inl hold)
    exact hs.exists_same_routes ht hs' ht' hholds hi hnew
  · intro i f v r hi hr
    exact hs.exists_old_route ht hs' ht' hholds hi hr
  · rw [Arena.bring?_eq, a'.bring_of_ok hcut, hagain]

/-- **A template is brought to its own cell**, unless it is refused and nothing is changed. -/
theorem Stands.brings (hs : s.Stands t) (ht : t.Sound) {template : Text}
    (slash : template.head? = some '/') :
    (∃ e, s.cells.bring? template = some ⟨s.cells, .error e, []⟩) ∨
      ∃ a' id splits, s.cells.bring? template = some ⟨a', .ok id, splits⟩ ∧
        s.cells.BroughtTo template id a' := by
  rw [Arena.bring?_eq]
  cases hcut : Template.segments template with
  | error e => exact Or.inl ⟨e, s.cells.bring_of_error hcut⟩
  | ok segs =>
      have hfollows := Node.insert_follows template Node.survey t.root
        (Template.parted_of_segments hcut)
      unfold Insertion.Follows at hfollows
      cases houtcome : (t.root.insert template Node.survey segs).outcome with
      | error e =>
          refine Or.inl ⟨e, ?_⟩
          rw [s.cells.bring_of_ok hcut, Arena.follow_of_error ht.valid hs.root houtcome]
      | ok x =>
          rw [houtcome] at hfollows
          obtain ⟨a', id, hbring, hbrought⟩ := hs.broughtTo ht slash hcut hfollows
          rw [Arena.bring?_eq] at hbring
          exact Or.inr ⟨a', id, _, hbring, hbrought⟩

/-- **Whatever template is brought into the arena after a history of calls comes to its own cell**,
and comes to the same one again, without a change.  Each path that had a cell still has one, with
the same routes, and no cell has got a route.  A template that is refused has changed nothing. -/
theorem exists_run_brings (calls : List (Call H)) :
    ∃ s, empty.run calls = some s ∧ s.Stands (Tree.empty.run calls) ∧
      ∀ template : Text, template.head? = some '/' →
        (∃ e, s.cells.bring? template = some ⟨s.cells, .error e, []⟩) ∨
          ∃ a' id splits, s.cells.bring? template = some ⟨a', .ok id, splits⟩ ∧
            s.cells.BroughtTo template id a' := by
  obtain ⟨s, hrun, hs⟩ := exists_run calls
  exact ⟨s, hrun, hs, fun _ slash => hs.brings (Tree.run_sound calls) slash⟩

/-- The cell of `/users` is cut, and its head is where `/user` has come to. -/
example : ((empty.run [.add "/users".toList 0 [Verb.get.method]]).bind fun s =>
      s.cells.bring? "/user".toList).map
        (fun i => (i.result.map fun c => String.ofList c.path, i.outcome.toOption)) =
      some (["", "/user", "/users"], some 1) := by
  decide +kernel

end Store

end RouteTree
