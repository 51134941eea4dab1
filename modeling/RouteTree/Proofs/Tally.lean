/-
**What a tree lists, and what it counts.**

A tree keeps two numbers beside its root: how many routes it has, and how many parameters a route
has at most.  They are changed by registrations only, while the routes are moved from node to node
by splits and are listed by going through the nodes.  What brings the two together is that a
registration changes the listing in one place, namely at the node that it comes to: all that is
listed before that node and after it stays, whatever was split on the way.

Main definitions:

* `Node.listing` — the routes at and below a node with their verbs, in order;
* `Tree.Counted` — the numbers of a tree are those of its listing;
* `Tree.Accounts` — a tree lists and counts what a history has registered.

Main results:

* `Node.Valid.nodup_pairs` — no two listed routes have their verb and their template in common;
* `Node.Brought.exists_listing` — **a way changes the listing at the visited node only**;
* `Tree.run_counted` — the numbers are right after every history;
* `Tree.run_accounts` — **every registration is listed once, and counted**.
-/
import RouteTree.Proofs.Agreement
import RouteTree.Proofs.Listing

set_option autoImplicit false
set_option relaxedAutoImplicit false

namespace RouteTree

variable {H α : Type}

namespace Node

/-! ### Listings -/

/-- **The routes at and below a node with their verbs**, in the order in which they are come by. -/
def listing (n : Node H) : List (Verb × Route H) := (n.visits 0).flatMap (·.node.ownRoutes)

/-- Depths do not matter for what is listed. -/
theorem flatMap_visits (n : Node H) (depth : Nat) :
    (n.visits depth).flatMap (·.node.ownRoutes) = n.listing := by
  induction n using Node.induction generalizing depth with
  | step n ih =>
      have hchildren : ∀ d, n.children.flatMap
          (fun c => (c.visits (d + 1)).flatMap (·.node.ownRoutes)) =
            n.children.flatMap listing := by
        intro d
        refine List.flatMap_congr fun c hc => ?_
        obtain ⟨s, first⟩ := mem_children.1 hc
        exact ih s c first (d + 1)
      rw [listing, visits_eq depth, visits_eq 0, List.flatMap_cons, List.flatMap_cons,
        List.flatMap_assoc, List.flatMap_assoc, hchildren, hchildren]

/-- **A node's own routes are listed before those of its children.** -/
theorem listing_eq (n : Node H) : n.listing = n.ownRoutes ++ n.children.flatMap listing := by
  rw [listing, visits_eq 0, List.flatMap_cons, List.flatMap_assoc]
  simp only [flatMap_visits]

/-- What is listed is what is held. -/
theorem mem_listing_iff {n : Node H} {v : Verb} {r : Route H} :
    (v, r) ∈ n.listing ↔ n.Holds v r := by
  induction n using Node.induction with
  | step n ih =>
      rw [listing_eq, List.mem_append, mem_ownRoutes_iff, holds_iff_children, List.mem_flatMap]
      refine or_congr_right (exists_congr fun c => and_congr_right fun hc => ?_)
      obtain ⟨s, first⟩ := mem_children.1 hc
      exact ih s c first

theorem listing_bare (text path : Text) (params : List Text) :
    (bare text path params : Node H).listing = [] := by
  rw [listing_eq]
  rfl

/-- The listing is a matter of a node's routes and children. -/
theorem listing_congr {n m : Node H} (routes : m.routes = n.routes)
    (same : m.children = n.children) : m.listing = n.listing := by
  rw [listing_eq, listing_eq, same, ownRoutes, ownRoutes, routes]

/-! ### Pairs of a verb and a template -/

/-- The verbs and templates of the routes at and below a node. -/
def pairs (n : Node H) : List (Verb × Text) := n.listing.map fun p => (p.1, p.2.template)

theorem mem_pairs_iff {n : Node H} {v : Verb} {template : Text} :
    (v, template) ∈ n.pairs ↔ ∃ r, n.Holds v r ∧ r.template = template := by
  rw [pairs, List.mem_map]
  constructor
  · rintro ⟨⟨v, r⟩, hmem, heq⟩
    obtain ⟨rfl, rfl⟩ := Prod.mk.inj heq
    exact ⟨r, mem_listing_iff.1 hmem, rfl⟩
  · rintro ⟨r, hholds, rfl⟩
    exact ⟨(v, r), mem_listing_iff.2 hholds, rfl⟩

/-- The verbs that a node has routes for. -/
theorem verbs_ownRoutes (n : Node H) :
    n.ownRoutes.map Prod.fst = Verb.all.filter fun v => (n.routes v).isSome := by
  rw [ownRoutes, List.map_filterMap, ← List.filterMap_eq_filter]
  refine List.filterMap_congr fun v _ => ?_
  cases h : n.routes v <;> simp [Option.guard, h]

/-- A node has one route for each verb. -/
theorem nodup_verbs (n : Node H) : (n.ownRoutes.map Prod.fst).Nodup := by
  rw [n.verbs_ownRoutes]
  exact List.Nodup.filter _ (by decide)

/-- The segment that leads to a child has its text. -/
theorem Branch.text_eq {n c : Node H} {s : Segment} (h : n.Branch s c) : s.text = c.text := by
  cases h <;> rfl

/-- The children of a node differ in their first characters. -/
theorem Regular.nodup_heads {n : Node H} (hn : n.Regular) :
    (n.children.map fun c => c.text.head?).Nodup := by
  -- children of different kinds are told apart by their markers
  have hkinds : ∀ {s s' c c'}, n.Branch s c → n.Branch s' c' → s.rank ≠ s'.rank →
      c.text.head? ≠ c'.text.head? := by
    intro s s' c c' first second hrank head
    rw [← first.text_eq, ← second.text_eq] at head
    exact hrank (congrArg Segment.rank (hn.branch_unique first second head).1)
  rw [children, List.map_append, List.map_append, List.nodup_append, List.nodup_append]
  refine ⟨⟨hn.apart, ?_, ?_⟩, ?_, ?_⟩
  · cases n.param <;> simp
  · simp only [List.mem_map, Option.mem_toList]
    rintro _ ⟨c, hc, rfl⟩ _ ⟨c', hc', rfl⟩
    exact hkinds (.literal hc) (.param hc') (by simp [Segment.rank])
  · cases n.wildcard <;> simp
  · simp only [List.mem_map, List.mem_append, Option.mem_toList]
    rintro _ (⟨c, hc, rfl⟩ | ⟨c, hc, rfl⟩) _ ⟨c', hc', rfl⟩
    · exact hkinds (.literal hc) (.wildcard hc') (by simp [Segment.rank])
    · exact hkinds (.param hc) (.wildcard hc') (by simp [Segment.rank])

/-- Behind a node's path, the templates below a child go on with the child's first character. -/
theorem Valid.template_of_child {n c : Node H} (hn : n.Valid) (hc : c ∈ n.children) {v : Verb}
    {r : Route H} (h : c.Holds v r) : ∃ more, r.template = n.path ++ more ∧
      more ≠ [] ∧ more.head? = c.text.head? := by
  obtain ⟨s, first⟩ := mem_children.1 hc
  obtain ⟨more, hmore⟩ := template_of_holds (hn.branch first) h
  have hne := (hn.regular.proper first).ne_nil
  refine ⟨s.text ++ more, ?_, by simp [hne], ?_⟩
  · rw [hmore, hn.regular.path first, List.append_assoc]
  · rw [List.head?_append_of_ne_nil _ hne, first.text_eq]

/-- **No two listed routes have their verb and their template in common.** -/
theorem Valid.nodup_pairs {n : Node H} (hn : n.Valid) : n.pairs.Nodup := by
  induction n using Node.induction with
  | step n ih =>
      have heq : n.pairs = (n.ownRoutes.map fun p => (p.1, p.2.template)) ++
          n.children.flatMap pairs := by
        rw [pairs, listing_eq, List.map_append, List.map_flatMap]
        rfl
      rw [heq, List.nodup_append]
      refine ⟨?_, List.nodup_flatMap.2 ⟨fun c hc => ?_, ?_⟩, ?_⟩
      · refine List.Nodup.of_map Prod.fst ?_
        rw [List.map_map]
        exact n.nodup_verbs
      · obtain ⟨s, first⟩ := mem_children.1 hc
        exact ih s c first (hn.branch first)
      · -- templates below different children part right behind the path of the node
        refine (List.pairwise_map.1 hn.regular.nodup_heads).imp_of_mem ?_
        intro c c' hc hc' hne ⟨v, template⟩ hmem hmem'
        obtain ⟨r, hr, rfl⟩ := mem_pairs_iff.1 hmem
        obtain ⟨r', hr', htemplate⟩ := mem_pairs_iff.1 hmem'
        obtain ⟨more, heq, _, head⟩ := hn.template_of_child hc hr
        obtain ⟨more', heq', _, head'⟩ := hn.template_of_child hc' hr'
        rw [heq, heq', List.append_cancel_left_eq] at htemplate
        exact hne (head.symm.trans (htemplate ▸ head'))
      · -- templates below a child are longer than the path of the node
        rintro _ hown ⟨v, template⟩ hbelow rfl
        obtain ⟨⟨v', r⟩, hr, heq⟩ := List.mem_map.1 hown
        obtain ⟨rfl, rfl⟩ := Prod.mk.inj heq
        obtain ⟨c, hc, hmem⟩ := List.mem_flatMap.1 hbelow
        obtain ⟨r', hr', htemplate⟩ := mem_pairs_iff.1 hmem
        obtain ⟨more, heq', hne, _⟩ := hn.template_of_child hc hr'
        rw [heq', (hn.regular.own (mem_ownRoutes_iff.1 hr)).1] at htemplate
        exact hne (by simpa using htemplate)

/-! ### The listing after a way -/

variable {visit : Node H → Node H × α}

/-- A child among the others adds its listing. -/
theorem exists_listing_insert {n m c : Node H} {before after : List (Node H)}
    (routes : m.routes = n.routes) (hn : n.children = before ++ after)
    (hm : m.children = before ++ c :: after) :
    ∃ earlier later, n.listing = earlier ++ later ∧ m.listing = earlier ++ c.listing ++ later := by
  refine ⟨n.ownRoutes ++ before.flatMap listing, after.flatMap listing, ?_, ?_⟩
  · simp [listing_eq n, hn]
  · simp [listing_eq m, hm, ownRoutes, routes]

/-- A child instead of another one brings its listing instead. -/
theorem exists_listing_exchange {n m c c' : Node H} {before after : List (Node H)}
    (routes : m.routes = n.routes) (hn : n.children = before ++ c :: after)
    (hm : m.children = before ++ c' :: after) :
    ∃ earlier later, n.listing = earlier ++ c.listing ++ later ∧
      m.listing = earlier ++ c'.listing ++ later := by
  refine ⟨n.ownRoutes ++ before.flatMap listing, after.flatMap listing, ?_, ?_⟩
  · simp [listing_eq n, hn]
  · simp [listing_eq m, hm, ownRoutes, routes]

/-- A literal child instead of another one brings its listing instead. -/
theorem exists_listing_literals {n c : Node H} {before after : List (Node H)}
    (among : n.literals = before ++ c :: after) (c' : Node H) :
    ∃ earlier later, n.listing = earlier ++ c.listing ++ later ∧
      listing { n with literals := before ++ c' :: after } = earlier ++ c'.listing ++ later := by
  have hold : n.children = before ++ c :: (after ++ n.param.toList ++ n.wildcard.toList) := by
    simp [children, among]
  exact exists_listing_exchange rfl hold (by simp [children])

/-- A split lists what the node listed. -/
theorem listing_split {c : Node H} {start keep tail : Text} (text : c.text = keep ++ tail)
    (path : c.path = start ++ c.text) : (c.split keep.length).listing = c.listing := by
  have htail : listing { c with text := tail } = c.listing := listing_congr rfl rfl
  rw [split_eq text path, listing_eq]
  simp [attach, bare, children, ownRoutes, htail]

/-- A listing that changes in one place changes there as a part of a larger one. -/
theorem exists_listing_within {d d' : List (Verb × Route H)} {n n' c c' : Node H}
    {earlier later : List (Verb × Route H)} (hn : n.listing = earlier ++ c.listing ++ later)
    (hn' : n'.listing = earlier ++ c'.listing ++ later)
    (hc : ∃ before after, c.listing = before ++ d ++ after ∧
      c'.listing = before ++ d' ++ after) :
    ∃ before after, n.listing = before ++ d ++ after ∧ n'.listing = before ++ d' ++ after := by
  obtain ⟨before, after, hc, hc'⟩ := hc
  exact ⟨earlier ++ before, after ++ later, by simp [hn, hc], by simp [hn', hc']⟩

/-- **A way changes the listing at the visited node only**, whose names are those of the way. -/
theorem Brought.exists_listing (keeps : KeepsShape visit) {n n' : Node H} {segs : List Segment}
    {a : α} {es : List Event} (h : Brought visit n segs n' a es) (hn : n.Valid)
    (hsegs : Template.Linked segs) :
    ∃ d, d.params = n.params ++ Template.paramNames segs ∧ (visit d).2 = a ∧
      ∃ before after, n.listing = before ++ d.ownRoutes ++ after ∧
        n'.listing = before ++ (visit d).1.ownRoutes ++ after := by
  induction h with
  | here n =>
      have hchildren : (visit n).1.children = n.children := by rw [keeps n]; rfl
      exact ⟨n, by simp, rfl, [], n.children.flatMap listing, listing_eq n,
        by rw [listing_eq (visit n).1, hchildren]; rfl⟩
  | @fresh n c s rest a free onward ih =>
      have hrest := (Template.linked_cons.1 hsegs).2.2
      obtain ⟨d, hparams, ha, hlisting⟩ := ih (valid_bare _ _ _) hrest
      obtain ⟨before, after, hn, hm⟩ := children_attach_of_free (c := c) free
      obtain ⟨earlier, later, hn, hm⟩ := exists_listing_insert (attach_routes ..) hn hm
      refine ⟨d, by simp [hparams, child, bare], ha, exists_listing_within (c := n.child s) ?_ hm
        hlisting⟩
      rw [child, listing_bare, List.append_nil, hn]
  | @shared n c c' before after more rest a es among nonempty onward ih =>
      have hmem : c ∈ n.literals := by simp [among]
      have hparams := hn.regular.params_literal hmem
      obtain ⟨d, hd, ha, hlisting⟩ := ih (hn.branch (.literal hmem)) hsegs.literalThen
      obtain ⟨earlier, later, hn, hm⟩ := exists_listing_literals among c'
      exact ⟨d, by simp [hd, hparams, Segment.name?], ha, exists_listing_within hn hm hlisting⟩
  | @split n c c' before after keep tail more rest a among text kept cut parts onward ih =>
      have hmem : c ∈ n.literals := by simp [among]
      have hbranch : n.Branch (.literal c.text) c := .literal hmem
      have hpath := hn.regular.path hbranch
      have hparams := hn.regular.params_literal hmem
      have hproper := hn.regular.proper hbranch
      obtain ⟨d, hd, ha, hlisting⟩ :=
        ih (valid_split (hn.branch hbranch) hproper text cut hpath) hsegs.literalThen
      rw [listing_split text hpath] at hlisting
      rw [split_eq text hpath] at hd
      obtain ⟨earlier, later, hn, hm⟩ := exists_listing_literals among c'
      exact ⟨d, by simp [hd, bare, hparams, Segment.name?], ha,
        exists_listing_within hn hm hlisting⟩
  | @placed n c c' s rest a es place same onward ih =>
      have hrest := (Template.linked_cons.1 hsegs).2.2
      have hbranch := branch_of_place place same
      have hparams := hn.regular.params hbranch
      obtain ⟨d, hd, ha, hlisting⟩ := ih (hn.branch hbranch) hrest
      obtain ⟨before, after, hn', hm⟩ := children_attach_of_place place
      obtain ⟨earlier, later, hn', hm⟩ := exists_listing_exchange (attach_routes ..) hn' (hm c')
      exact ⟨d, by simp [hd, hparams], ha, exists_listing_within hn' hm hlisting⟩

/-- A node that takes routes lists them beside the old ones. -/
theorem ownRoutes_register_perm {template : Text} {handler : H} {verbs : List Verb} {n : Node H}
    {k : Nat} (h : (n.register template handler verbs).2 = .ok k) (once : verbs.Nodup) :
    (n.register template handler verbs).1.ownRoutes.Perm
      (n.ownRoutes ++ verbs.map fun v => (v, ⟨template, n.params, handler⟩)) := by
  have hown : ∀ m : Node H, m.ownRoutes.Nodup := fun m => .of_map _ m.nodup_verbs
  refine (List.perm_ext_iff_of_nodup (hown _) ?_).2 fun ⟨v, r⟩ => ?_
  · refine List.nodup_append.2 ⟨hown n, once.map fun v w heq => congrArg Prod.fst heq, ?_⟩
    rintro ⟨v, r⟩ hmem _ hnew rfl
    obtain ⟨w, hw, heq⟩ := List.mem_map.1 hnew
    obtain ⟨rfl, rfl⟩ := Prod.mk.inj heq
    have hnone := (register_of_ok h).2.1 w hw
    rw [mem_ownRoutes_iff.1 hmem] at hnone
    cases hnone
  · rw [mem_ownRoutes_iff, register_routes_iff h, List.mem_append, mem_ownRoutes_iff, List.mem_map]
    refine or_congr_right ?_
    constructor
    · rintro ⟨hv, rfl⟩
      exact ⟨v, hv, rfl⟩
    · rintro ⟨w, hw, heq⟩
      obtain ⟨rfl, rfl⟩ := Prod.mk.inj heq
      exact ⟨hw, rfl⟩

/-- A node that is asked for no verb stays as it is. -/
theorem register_nil (template : Text) (handler : H) (n : Node H) :
    n.register template handler [] = (n, .ok n.params.length) := by
  cases n
  simp [register, occupied?]

end Node

namespace Tree

/-! ### Counting -/

/-- **The numbers of a tree are those of its listing.** -/
structure Counted (t : Tree H) : Prop where
  /-- The size is the number of listed routes. -/
  size : t.size = t.walk.length
  /-- The largest number of parameters is that of a listed route, or zero. -/
  reached : t.maxParams = 0 ∨ ∃ p ∈ t.walk, p.2.params.length = t.maxParams

theorem walk_eq_listing (t : Tree H) : t.walk = t.root.listing := rfl

theorem nodup_requestedVerbs (methods : List Method) : (requestedVerbs methods).Nodup :=
  List.Nodup.filter _ (by decide)

/-- A registration that succeeds lists the new routes beside the old ones. -/
theorem Placed.walk_perm {t : Tree H} (ht : t.Sound) {template : Text} {handler : H}
    {verbs : List Verb} {g : Registration H} (h : t.Placed template handler verbs g)
    (once : verbs.Nodup) :
    ∃ names, g.tree.walk.Perm (t.walk ++ verbs.map fun v => (v, ⟨template, names, handler⟩)) ∧
      g.tree.size = t.size + verbs.length ∧
      g.tree.maxParams = if verbs = [] then t.maxParams else max t.maxParams names.length := by
  obtain ⟨segs, root, params, splits, hcut, hbrought, rfl⟩ := h
  obtain ⟨d, _, hvisit, before, after, hold, hnew⟩ :=
    hbrought.exists_listing (Node.keepsShape_register template handler verbs) ht.valid
      (Template.linked_of_segments hcut)
  refine ⟨d.params, ?_, rfl, by rw [(Node.register_of_ok hvisit).1]⟩
  rw [walk_eq_listing, walk_eq_listing, hold]
  dsimp only
  rw [hnew]
  have hown := Node.ownRoutes_register_perm hvisit once
  refine ((hown.append_left before).append_right after).trans ?_
  simp only [List.append_assoc]
  exact ((List.perm_append_comm).append_left _).append_left _

/-- A registration without methods changes nothing that is listed. -/
theorem Placed.walk_eq {t : Tree H} (ht : t.Sound) {template : Text} {handler : H}
    {g : Registration H} (h : t.Placed template handler [] g) : g.tree.walk = t.walk := by
  obtain ⟨segs, root, params, splits, hcut, hbrought, rfl⟩ := h
  obtain ⟨d, _, _, before, after, hold, hnew⟩ :=
    hbrought.exists_listing (Node.keepsShape_register template handler []) ht.valid
      (Template.linked_of_segments hcut)
  rw [Node.register_nil] at hnew
  exact hnew.trans hold.symm

/-- A registration that succeeds keeps the numbers right. -/
theorem Placed.counted {t : Tree H} (ht : t.Sound) (hcounted : t.Counted) {template : Text}
    {handler : H} {verbs : List Verb} {g : Registration H}
    (h : t.Placed template handler verbs g) (once : verbs.Nodup) : g.tree.Counted := by
  obtain ⟨names, hperm, hsize, hmax⟩ := h.walk_perm ht once
  refine ⟨?_, ?_⟩
  · rw [hsize, hperm.length_eq, hcounted.size]
    simp
  · have hold : ∀ p ∈ t.walk, p ∈ g.tree.walk := fun p hp =>
      hperm.mem_iff.2 (List.mem_append_left _ hp)
    rw [hmax]
    cases verbs with
    | nil => exact hcounted.reached.imp id fun ⟨p, hp, hlen⟩ => ⟨p, hold p hp, hlen⟩
    | cons v verbs =>
        rw [if_neg (by simp)]
        rcases le_total t.maxParams names.length with hle | hle
        · -- the new routes have as many parameters as any, or more
          rw [max_eq_right hle]
          exact Or.inr ⟨_, hperm.mem_iff.2 (List.mem_append_right _ List.mem_cons_self), rfl⟩
        · rw [max_eq_left hle]
          exact hcounted.reached.imp id fun ⟨p, hp, hlen⟩ => ⟨p, hold p hp, hlen⟩

/-- **The numbers of a tree are right after every history.** -/
theorem run_counted (calls : List (Call H)) : (empty.run calls).Counted := by
  induction calls using List.reverseRecOn with
  | nil => exact ⟨rfl, Or.inl rfl⟩
  | append_singleton calls call ih =>
      rw [run_append, run_cons, run_nil]
      rcases (empty.run calls).serve_cases call with
        hrefused | rfl | ⟨_, _, _, _, _, _, _, hplaced⟩
      · rwa [hrefused.tree_eq]
      · exact ⟨ih.size, ih.reached⟩
      · exact hplaced.counted (run_sound calls) ih (nodup_requestedVerbs _)

/-! ### Accounts -/

/-- What the walk through a tree hands over for one route: its method, template and handler. -/
def account (t : Tree H) : List (Method × Text × H) :=
  t.walk.map fun p => (p.1.method, p.2.template, p.2.handler)

/-- **A tree gives account of what a history has registered.** -/
structure Accounts (calls : List (Call H)) (t : Tree H) : Prop where
  /-- The walk comes by what has been registered, and by nothing else. -/
  listed : ∀ m template handler,
    (m, template, handler) ∈ t.account ↔ Registered calls m template handler
  /-- It comes by nothing twice. -/
  once : t.account.Nodup
  /-- It never comes by one template twice for one method. -/
  apart : (t.account.map fun entry => (entry.1, entry.2.1)).Nodup
  /-- The size is the number of what it comes by. -/
  size : t.size = t.account.length
  /-- The tree is called empty if that is nothing. -/
  isEmpty : t.isEmpty = true ↔ t.account = []
  /-- No registered template has more placeholders than the tree knows of. -/
  bound : ∀ m template handler, Registered calls m template handler →
    ∃ segs, Template.segments template = .ok segs ∧
      (Template.paramNames segs).length ≤ t.maxParams
  /-- Some registered template has that many, or there are none. -/
  reached : t.maxParams = 0 ∨ ∃ m template handler segs, Registered calls m template handler ∧
    Template.segments template = .ok segs ∧ (Template.paramNames segs).length = t.maxParams
  /-- A template without methods may come in at any time: nothing is counted or listed for it, and
  no look-up is answered otherwise. -/
  unrouted : ∀ template handler, let t' := (t.add template handler []).tree
    t'.size = t.size ∧ t'.maxParams = t.maxParams ∧ t'.walk = t.walk ∧
      ∀ m path values, (t.find m path values).Agrees (t'.find m path values)

theorem mem_account_iff {t : Tree H} {m : Method} {template : Text} {handler : H} :
    (m, template, handler) ∈ t.account ↔
      ∃ v r, (v, r) ∈ t.walk ∧ v.method = m ∧ r.template = template ∧ r.handler = handler := by
  simp [account]

/-- What is listed for a history has been registered, with the placeholders of its template. -/
theorem mem_walk_run_iff {calls : List (Call H)} {v : Verb} {r : Route H} :
    (v, r) ∈ (empty.run calls).walk ↔ Registered calls v.method r.template r.handler ∧
      ∃ segs, Template.segments r.template = .ok segs ∧ r.params = Template.paramNames segs :=
  mem_walk_iff.trans holds_run_iff

/-- A registration without methods brings a template into the tree and counts nothing. -/
theorem add_nil_keeps {t : Tree H} (ht : t.Sound) (template : Text) (handler : H) :
    (t.add template handler []).tree.size = t.size ∧
      (t.add template handler []).tree.maxParams = t.maxParams ∧
        (t.add template handler []).tree.walk = t.walk := by
  rcases t.add_cases template handler [] with hrefused | ⟨_, _, hplaced⟩
  · rw [hrefused.tree_eq]
    exact ⟨rfl, rfl, rfl⟩
  · have hwalk := Placed.walk_eq ht hplaced
    obtain ⟨_, _, hsize, hmax⟩ := hplaced.walk_perm ht (nodup_requestedVerbs [])
    exact ⟨by simpa [requestedVerbs] using hsize, by simpa [requestedVerbs] using hmax, hwalk⟩

/-- A call without methods registers nothing. -/
theorem sameRegistered_concat_nil (calls : List (Call H)) (template : Text) (handler : H) :
    SameRegistered calls (calls ++ [.add template handler []]) := by
  intro m template' handler'
  simp [registered_concat, Call.Asks]

/-- No template is listed twice for one method. -/
theorem apart_run (calls : List (Call H)) :
    ((empty.run calls).account.map fun entry => (entry.1, entry.2.1)).Nodup := by
  have hmethod : Function.Injective fun p : Verb × Text => (p.1.method, p.2) := by
    rintro ⟨v, s⟩ ⟨w, s'⟩ h
    obtain ⟨hverb, rfl⟩ := Prod.mk.inj h
    have hvw := congrArg Method.verb? hverb
    rw [v.verb?_method, w.verb?_method] at hvw
    rw [Option.some.inj hvw]
  have hpairs := (run_sound calls).valid.nodup_pairs.map hmethod
  rw [Node.pairs, List.map_map] at hpairs
  rw [account, List.map_map]
  exact hpairs

/-- **Every tree gives account of its history**: whatever calls have been made and refused, each
registration is listed once and counted once. -/
theorem run_accounts (calls : List (Call H)) : Accounts calls (empty.run calls) where
  listed m template handler := by
    rw [mem_account_iff]
    constructor
    · rintro ⟨v, r, hmem, rfl, rfl, rfl⟩
      exact (mem_walk_run_iff.1 hmem).1
    · intro h
      obtain ⟨v, rfl⟩ := exists_verb_of_registered h
      obtain ⟨segs, hcut⟩ := exists_segments_of_registered h
      exact ⟨v, ⟨template, Template.paramNames segs, handler⟩,
        mem_walk_run_iff.2 ⟨h, segs, hcut, rfl⟩, rfl, rfl, rfl⟩
  once := .of_map (fun entry => (entry.1, entry.2.1)) (apart_run calls)
  apart := apart_run calls
  size := by rw [account, List.length_map, (run_counted calls).size]
  isEmpty := by simp [isEmpty, account, (run_counted calls).size]
  bound m template handler h := by
    obtain ⟨v, rfl⟩ := exists_verb_of_registered h
    obtain ⟨segs, hcut⟩ := exists_segments_of_registered h
    exact ⟨segs, hcut, (run_sound calls).room v ⟨template, Template.paramNames segs, handler⟩
      (holds_run_iff.2 ⟨h, segs, hcut, rfl⟩)⟩
  reached := by
    refine (run_counted calls).reached.imp id fun ⟨⟨v, r⟩, hmem, hlen⟩ => ?_
    obtain ⟨h, segs, hcut, hparams⟩ := mem_walk_run_iff.1 hmem
    exact ⟨v.method, r.template, r.handler, segs, h, hcut, hparams ▸ hlen⟩
  unrouted template handler := by
    obtain ⟨hsize, hmax, hwalk⟩ := add_nil_keeps (run_sound calls) template handler
    refine ⟨hsize, hmax, hwalk, fun m path values => ?_⟩
    have hfind := find_run_agrees (sameRegistered_concat_nil calls template handler) m path values
    rwa [run_append] at hfind

end Tree

end RouteTree
