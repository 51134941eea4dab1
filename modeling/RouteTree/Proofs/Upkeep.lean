/-
**Bringing a template into a tree keeps the tree in order.**

Each step of the way changes one child of a node: it makes one, splits one, or leaves the change
to the steps below one.  A valid node stays valid when the child that took the place fits to it.
Together with what the visit does to the node it comes to, this gives what a whole way does to a
tree: its order stays, and the routes below it are those that were there and those that the visit
adds.

Main definitions:

* `Node.KeepsShape` — a visit that changes routes only.

Main results:

* `Node.Brought.valid` — **a valid tree stays valid**;
* `Node.Brought.holds_iff` — **the routes afterwards are the old ones and those of the visit**;
* `Node.Brought.canPrecede` — what could be in front of the children and the segments can still be
  in front of the children.
-/
import RouteTree.Proofs.Growth

set_option autoImplicit false
set_option relaxedAutoImplicit false

namespace RouteTree

/-- A beginning of a literal run is a literal run. -/
theorem Segment.Proper.left_of_append {keep tail : Text} (kept : keep ≠ [])
    (h : (Segment.literal (keep ++ tail)).Proper) : (Segment.literal keep).Proper := by
  cases h with
  | literal _ plain => exact .literal kept fun x hx => plain x (List.mem_append_left _ hx)

/-- The rest of a literal run is a literal run. -/
theorem Segment.Proper.right_of_append {keep tail : Text} (cut : tail ≠ [])
    (h : (Segment.literal (keep ++ tail)).Proper) : (Segment.literal tail).Proper := by
  cases h with
  | literal _ plain => exact .literal cut fun x hx => plain x (List.mem_append_right _ hx)

/-- What can be in front of a run can be in front of the beginning of the run. -/
theorem Segment.CanPrecede.of_append {q : Segment} {keep tail : Text} (kept : keep ≠ [])
    (h : q.CanPrecede (.literal (keep ++ tail))) : q.CanPrecede (.literal keep) := by
  cases q with
  | literal run => trivial
  | param name =>
      cases keep with
      | nil => exact absurd rfl kept
      | cons c keep => exact h
  | wildcard name => exact h

namespace Node

variable {H α : Type}

/-! ### Nodes that differ in one child -/

theorem branch_congr {n m c : Node H} {s : Segment} (literals : m.literals = n.literals)
    (param : m.param = n.param) (wildcard : m.wildcard = n.wildcard) :
    m.Branch s c ↔ n.Branch s c := by
  constructor
  · intro h
    cases h with
    | literal h => exact .literal (literals ▸ h)
    | param h => exact .param (param ▸ h)
    | wildcard h => exact .wildcard (wildcard ▸ h)
  · intro h
    cases h with
    | literal h => exact .literal (literals ▸ h)
    | param h => exact .param (param ▸ h)
    | wildcard h => exact .wildcard (wildcard ▸ h)

/-- Routes do not matter for what a node branches into. -/
theorem branch_routes {n c : Node H} {routes : Slots H} {s : Segment} :
    Branch { n with routes } s c ↔ n.Branch s c := branch_congr rfl rfl rfl

/-- The child in the place of a placeholder stands behind the placeholder. -/
theorem branch_of_place {n c : Node H} {s : Segment} (place : n.place? s = some c)
    (same : c.text = s.text) : n.Branch s c := by
  cases s with
  | literal run => cases place
  | param name =>
      obtain rfl : c.text = name := same
      exact .param place
  | wildcard name =>
      obtain rfl : c.text = name := same
      exact .wildcard place

/-- Below a valid node, segments lead to valid nodes. -/
theorem Valid.of_leads {n d : Node H} {segs : List Segment} (hn : n.Valid) (h : n.Leads segs d) :
    d.Valid := by
  induction h with
  | here n => exact hn
  | shared among _ _ ih => exact ih (hn.branch (.literal among))
  | placed place same _ ih => exact ih (hn.branch (branch_of_place place same))

theorem branch_attach {n c d : Node H} {s s' : Segment} (same : c.text = s.text)
    (h : (n.attach s c).Branch s' d) : n.Branch s' d ∨ s' = s ∧ d = c := by
  cases s with
  | literal run =>
      obtain rfl : c.text = run := same
      cases h with
      | literal h =>
          rcases List.mem_append.1 h with h | h
          · exact Or.inl (.literal h)
          · obtain rfl := List.mem_singleton.1 h
            exact Or.inr ⟨rfl, rfl⟩
      | param h => exact Or.inl (.param h)
      | wildcard h => exact Or.inl (.wildcard h)
  | param name =>
      obtain rfl : c.text = name := same
      cases h with
      | literal h => exact Or.inl (.literal h)
      | param h =>
          obtain rfl := Option.some.inj h
          exact Or.inr ⟨rfl, rfl⟩
      | wildcard h => exact Or.inl (.wildcard h)
  | wildcard name =>
      obtain rfl : c.text = name := same
      cases h with
      | literal h => exact Or.inl (.literal h)
      | param h => exact Or.inl (.param h)
      | wildcard h =>
          obtain rfl := Option.some.inj h
          exact Or.inr ⟨rfl, rfl⟩

theorem branch_literals {n c c' d : Node H} {before after : List (Node H)} {s : Segment}
    (among : n.literals = before ++ c :: after)
    (h : Branch { n with literals := before ++ c' :: after } s d) :
    n.Branch s d ∨ s = .literal c'.text ∧ d = c' := by
  cases h with
  | literal h =>
      rcases List.mem_append.1 h with h | h
      · exact Or.inl (.literal (by simp [among, h]))
      · rcases List.mem_cons.1 h with rfl | h
        · exact Or.inr ⟨rfl, rfl⟩
        · exact Or.inl (.literal (by simp [among, h]))
  | param h => exact Or.inl (.param h)
  | wildcard h => exact Or.inl (.wildcard h)

@[simp] theorem attach_text (n c : Node H) (s : Segment) : (n.attach s c).text = n.text := by
  cases s <;> rfl

@[simp] theorem attach_path (n c : Node H) (s : Segment) : (n.attach s c).path = n.path := by
  cases s <;> rfl

@[simp] theorem attach_params (n c : Node H) (s : Segment) :
    (n.attach s c).params = n.params := by
  cases s <;> rfl

@[simp] theorem attach_routes (n c : Node H) (s : Segment) :
    (n.attach s c).routes = n.routes := by
  cases s <;> rfl

/-! ### Order -/

/-- A node with the children, the path and the names of a valid one is valid, if its own routes
are in order. -/
theorem Valid.congr {n m : Node H} (hn : n.Valid) (literals : m.literals = n.literals)
    (param : m.param = n.param) (wildcard : m.wildcard = n.wildcard) (path : m.path = n.path)
    (params : m.params = n.params)
    (own : ∀ {v r}, m.routes v = some r → r.template = m.path ∧ r.params = m.params) :
    m.Valid := by
  have hb : ∀ {s c}, m.Branch s c → n.Branch s c := (branch_congr literals param wildcard).1
  have hr := hn.regular
  refine valid_iff.2 ⟨?_, fun s c h => hn.branch (hb h)⟩
  exact
    { proper := fun h => hr.proper (hb h)
      path := fun h => path ▸ hr.path (hb h)
      params := fun h => params ▸ hr.params (hb h)
      follows := fun h => hr.follows (hb h)
      apart := literals ▸ hr.apart
      own := own }

/-- A valid node stays valid when the one child that is new fits to it. -/
theorem Valid.exchange {n m c : Node H} {s : Segment} (hn : n.Valid) (hc : c.Valid)
    (path : m.path = n.path) (params : m.params = n.params) (routes : m.routes = n.routes)
    (branch : ∀ {s' d}, m.Branch s' d → n.Branch s' d ∨ s' = s ∧ d = c) (proper : s.Proper)
    (cpath : c.path = n.path ++ s.text) (cparams : c.params = n.params ++ s.name?.toList)
    (follows : ∀ {s' d}, c.Branch s' d → s.CanPrecede s')
    (apart : (m.literals.map fun c => c.text.head?).Nodup) : m.Valid := by
  have hr := hn.regular
  refine valid_iff.2 ⟨?_, ?_⟩
  · refine ⟨?_, ?_, ?_, ?_, apart, ?_⟩
    · intro s' d h
      rcases branch h with h | ⟨rfl, rfl⟩
      · exact hr.proper h
      · exact proper
    · intro s' d h
      rw [path]
      rcases branch h with h | ⟨rfl, rfl⟩
      · exact hr.path h
      · exact cpath
    · intro s' d h
      rw [params]
      rcases branch h with h | ⟨rfl, rfl⟩
      · exact hr.params h
      · exact cparams
    · intro s' d s'' e h h'
      rcases branch h with h | ⟨rfl, rfl⟩
      · exact hr.follows h h'
      · exact follows h'
    · intro v r h
      rw [path, params]
      exact hr.own (routes ▸ h)
  · intro s' d h
    rcases branch h with h | ⟨rfl, rfl⟩
    · exact hn.branch h
    · exact hc

theorem not_branch_bare {text path : Text} {params : List Text} {s : Segment} {c : Node H} :
    ¬ (bare text path params : Node H).Branch s c := by
  intro h
  cases h with
  | literal h => cases h
  | param h => cases h
  | wildcard h => cases h

/-- A node without children and routes is valid. -/
theorem valid_bare (text path : Text) (params : List Text) :
    (bare text path params : Node H).Valid := by
  refine valid_iff.2 ⟨?_, fun s c h => (not_branch_bare h).elim⟩
  exact
    { proper := fun h => (not_branch_bare h).elim
      path := fun h => (not_branch_bare h).elim
      params := fun h => (not_branch_bare h).elim
      follows := fun h => (not_branch_bare h).elim
      apart := List.nodup_nil
      own := fun h => nomatch h }

/-- A child that fits can be put into its place, or behind the literal children that differ from
it. -/
theorem Valid.attach {n c : Node H} {s : Segment} (hn : n.Valid) (hc : c.Valid) (proper : s.Proper)
    (text : c.text = s.text) (path : c.path = n.path ++ s.text)
    (params : c.params = n.params ++ s.name?.toList)
    (follows : ∀ {s' d}, c.Branch s' d → s.CanPrecede s')
    (free : ∀ run, s = .literal run → n.Free s) : (n.attach s c).Valid := by
  refine hn.exchange hc (attach_path ..) (attach_params ..) (attach_routes ..)
    (branch_attach text) proper path params follows ?_
  cases s with
  | literal run =>
      have hne : ∀ d ∈ n.literals, d.text.head? ≠ c.text.head? := by
        intro d hd
        rw [text]
        exact Text.head?_ne_of_shared_nil (free run rfl d hd)
          (hn.regular.proper (.literal hd)).ne_nil
      simpa [Node.attach, List.nodup_append, hn.regular.apart] using hne
  | param name => exact hn.regular.apart
  | wildcard name => exact hn.regular.apart

/-- A literal child that fits can stand for one with the same first character. -/
theorem Valid.literals {n c c' : Node H} {before after : List (Node H)} (hn : n.Valid)
    (hc : c'.Valid) (among : n.literals = before ++ c :: after)
    (proper : (Segment.literal c'.text).Proper) (head : c'.text.head? = c.text.head?)
    (path : c'.path = n.path ++ c'.text) (params : c'.params = n.params) :
    Valid { n with literals := before ++ c' :: after } := by
  refine hn.exchange (s := .literal c'.text) hc rfl rfl rfl (branch_literals among) proper path
    (by simpa [Segment.name?] using params) (fun _ => trivial) ?_
  have hapart := hn.regular.apart
  rw [among] at hapart
  simpa [head] using hapart

/-! ### Splitting -/

/-- A split is a fresh node with the tail as its only child. -/
theorem split_eq {c : Node H} {start keep tail : Text} (text : c.text = keep ++ tail)
    (path : c.path = start ++ c.text) :
    c.split keep.length =
      (bare keep (start ++ keep) c.params).attach (.literal tail) { c with text := tail } := by
  simp [split, attach, bare, path, text, ← List.append_assoc]

/-- Splitting a child keeps its order. -/
theorem valid_split {c : Node H} {start keep tail : Text} (hc : c.Valid)
    (proper : (Segment.literal c.text).Proper) (text : c.text = keep ++ tail) (cut : tail ≠ [])
    (path : c.path = start ++ c.text) : (c.split keep.length).Valid := by
  rw [split_eq text path]
  have htail : Valid { c with text := tail } := hc.congr rfl rfl rfl rfl rfl hc.regular.own
  have hproper : (Segment.literal tail).Proper := .right_of_append cut (text ▸ proper)
  refine (valid_bare keep (start ++ keep) c.params).attach htail hproper rfl ?_ ?_
    (fun _ => trivial) fun _ _ d hd => nomatch hd
  · simp [path, text, bare, Segment.text]
  · simp [bare, Segment.name?]

/-! ### Whole ways -/

/-- A visit that may change the routes of a node, and nothing else. -/
def KeepsShape (visit : Node H → Node H × α) : Prop :=
  ∀ d, (visit d).1 = { d with routes := (visit d).1.routes }

variable {visit : Node H → Node H × α}

/-- A way changes neither the text of the node where it begins nor its path and names. -/
theorem Brought.frame (keeps : KeepsShape visit) {n n' : Node H} {segs : List Segment} {a : α}
    {es : List Event} (h : Brought visit n segs n' a es) :
    n'.text = n.text ∧ n'.path = n.path ∧ n'.params = n.params := by
  cases h with
  | here n =>
      rw [keeps n]
      exact ⟨rfl, rfl, rfl⟩
  | fresh _ _ => simp
  | shared _ _ _ => exact ⟨rfl, rfl, rfl⟩
  | split _ _ _ _ _ _ => exact ⟨rfl, rfl, rfl⟩
  | placed _ _ _ => simp

/-- The head of a split keeps the first part of the text. -/
theorem split_text {c : Node H} {keep tail : Text} (text : c.text = keep ++ tail) :
    (c.split keep.length).text = keep := by
  simp [split, bare, text]

/-- What could be in front of the children of a node, and can be in front of the segments, can be
in front of its children afterwards. -/
theorem Brought.canPrecede (keeps : KeepsShape visit) {q : Segment} {n n' : Node H}
    {segs : List Segment} {a : α} {es : List Event} (h : Brought visit n segs n' a es)
    (hn : ∀ s d, n.Branch s d → q.CanPrecede s) (hsegs : ∀ s ∈ segs.head?, q.CanPrecede s)
    {s : Segment} {d : Node H} (hd : n'.Branch s d) : q.CanPrecede s := by
  cases h with
  | here n =>
      rw [keeps n] at hd
      exact hn s d (branch_routes.1 hd)
  | fresh _ onward =>
      rcases branch_attach (onward.frame keeps).1 hd with hd | ⟨rfl, _⟩
      · exact hn s d hd
      · exact hsegs _ rfl
  | shared among _ onward =>
      rcases branch_literals among hd with hd | ⟨rfl, _⟩
      · exact hn s d hd
      · rw [(onward.frame keeps).1]
        exact hn _ _ (.literal (by simp [among]))
  | split among text kept _ _ onward =>
      rcases branch_literals among hd with hd | ⟨rfl, _⟩
      · exact hn s d hd
      · rw [(onward.frame keeps).1, split_text text]
        refine Segment.CanPrecede.of_append kept (text ▸ hn _ _ (.literal ?_))
        simp [among]
  | placed _ same onward =>
      rcases branch_attach ((onward.frame keeps).1.trans same) hd with hd | ⟨rfl, _⟩
      · exact hn s d hd
      · exact hsegs _ rfl

/-- **A valid tree stays valid** when segments are followed, provided that the visit at their end
leaves routes which are in order there. -/
theorem Brought.valid (keeps : KeepsShape visit) {n n' : Node H} {segs : List Segment} {a : α}
    {es : List Event} (h : Brought visit n segs n' a es) (hn : n.Valid)
    (hsegs : Template.Linked segs)
    (own : ∀ d, d.path = n.path ++ Template.spelled segs →
      d.params = n.params ++ Template.paramNames segs → d.Regular → ∀ {v r},
        (visit d).1.routes v = some r → r.template = d.path ∧ r.params = d.params) :
    n'.Valid := by
  -- along the way, `own` is kept for the rest of the segments: what they spell and name is what
  -- the node below still lacks of the path and the names at the end
  induction h with
  | here n =>
      rw [keeps n]
      exact hn.congr rfl rfl rfl rfl rfl (own n (by simp) (by simp) hn.regular)
  | @fresh n c s rest a free onward ih =>
      obtain ⟨proper, hnext, hrest⟩ := Template.linked_cons.1 hsegs
      obtain ⟨text, path, params⟩ := onward.frame keeps
      have hc : c.Valid := ih (valid_bare _ _ _) hrest fun d hpath hparams =>
        own d (by simpa [child, bare] using hpath) (by simpa [child, bare] using hparams)
      refine hn.attach hc proper text path params ?_ fun _ _ => free
      exact onward.canPrecede keeps (fun s' d hb => (not_branch_bare hb).elim) hnext
  | @shared n c c' before after more rest a es among nonempty onward ih =>
      have hmem : c ∈ n.literals := by simp [among]
      have hbranch : n.Branch (.literal c.text) c := .literal hmem
      have hpath := hn.regular.path hbranch
      have hparams := hn.regular.params_literal hmem
      obtain ⟨text, path, params⟩ := onward.frame keeps
      have hc : c'.Valid := ih (hn.branch hbranch) hsegs.literalThen fun d hd hd' =>
        own d (by simpa [hpath, Segment.text] using hd)
          (by simpa [hparams, Segment.name?] using hd')
      -- the child has kept its text, so the others differ from it as before
      refine hn.literals hc among ?_ (by rw [text]) ?_ (params.trans hparams)
      · rw [text]
        exact hn.regular.proper hbranch
      · rw [text, path, hpath]
        rfl
  | @split n c c' before after keep tail more rest a among text kept cut parts onward ih =>
      have hmem : c ∈ n.literals := by simp [among]
      have hbranch : n.Branch (.literal c.text) c := .literal hmem
      have hpath := hn.regular.path hbranch
      have hparams := hn.regular.params_literal hmem
      have hproper := hn.regular.proper hbranch
      obtain ⟨text', path', params'⟩ := onward.frame keeps
      rw [split_text text] at text'
      rw [split_eq text hpath] at path' params'
      -- what was the child stands below the head now, and the way goes on between them
      have hc : c'.Valid := by
        refine ih (valid_split (hn.branch hbranch) hproper text cut hpath) hsegs.literalThen ?_
        rw [split_eq text hpath]
        exact fun d hd hd' => own d (by simpa [bare, Segment.text] using hd)
          (by simpa [bare, hparams, Segment.name?] using hd')
      have hkeep : (Segment.literal keep).Proper := .left_of_append kept (text ▸ hproper)
      -- the head begins with the same character as the child did
      refine hn.literals hc among (by rwa [text']) ?_ (by simpa [text', bare] using path')
        (by simpa [bare, hparams] using params')
      rw [text', text]
      cases keep with
      | nil => exact absurd rfl kept
      | cons x keep => rfl
  | @placed n c c' s rest a es place same onward ih =>
      obtain ⟨proper, hnext, hrest⟩ := Template.linked_cons.1 hsegs
      have hbranch := branch_of_place place same
      have hpath := hn.regular.path hbranch
      have hparams := hn.regular.params hbranch
      obtain ⟨text, path, params⟩ := onward.frame keeps
      have hc : c'.Valid := ih (hn.branch hbranch) hrest fun d hd hd' =>
        own d (by simpa [hpath] using hd) (by simpa [hparams] using hd')
      refine hn.attach hc proper (text.trans same) (path.trans hpath) (params.trans hparams)
        (onward.canPrecede keeps (fun s' d hb => hn.regular.follows hbranch hb) hnext) ?_
      rintro run rfl
      cases place

/-! ### Routes -/

theorem mem_children {n c : Node H} : c ∈ n.children ↔ ∃ s, n.Branch s c := by
  simp only [children, List.mem_append, Option.mem_toList]
  constructor
  · rintro ((h | h) | h)
    · exact ⟨_, .literal h⟩
    · exact ⟨_, .param h⟩
    · exact ⟨_, .wildcard h⟩
  · rintro ⟨s, h⟩
    cases h with
    | literal h => exact Or.inl (Or.inl h)
    | param h => exact Or.inl (Or.inr h)
    | wildcard h => exact Or.inr h

/-- A route is held by a node itself, or by one of its children. -/
theorem holds_iff_children {n : Node H} {v : Verb} {r : Route H} :
    n.Holds v r ↔ n.routes v = some r ∨ ∃ c ∈ n.children, c.Holds v r := by
  rw [Node.holds_iff, exists_comm]
  simp only [mem_children, exists_and_right]

/-- A node without children and routes holds nothing. -/
theorem not_holds_bare {text path : Text} {params : List Text} {v : Verb} {r : Route H} :
    ¬ (bare text path params : Node H).Holds v r := by
  rw [holds_iff_children]
  simp [bare, children]

/-- A child in a place that was free comes among the others. -/
theorem children_attach_of_free {n c : Node H} {s : Segment} (free : n.Free s) :
    ∃ before after, n.children = before ++ after ∧
      (n.attach s c).children = before ++ c :: after := by
  cases s with
  | literal run =>
      exact ⟨n.literals, n.param.toList ++ n.wildcard.toList, by simp [children],
        by simp [children, attach]⟩
  | param name =>
      have hfree : n.param = none := free
      exact ⟨n.literals, n.wildcard.toList, by simp [children, hfree], by simp [children, attach]⟩
  | wildcard name =>
      have hfree : n.wildcard = none := free
      exact ⟨n.literals ++ n.param.toList, [], by simp [children, hfree],
        by simp [children, attach]⟩

/-- A child in a place that was taken comes instead of the one there. -/
theorem children_attach_of_place {n c : Node H} {s : Segment} (place : n.place? s = some c) :
    ∃ before after, n.children = before ++ c :: after ∧
      ∀ c', (n.attach s c').children = before ++ c' :: after := by
  cases s with
  | literal run => cases place
  | param name =>
      have hplace : n.param = some c := place
      exact ⟨n.literals, n.wildcard.toList, by simp [children, hplace],
        fun c' => by simp [children, attach]⟩
  | wildcard name =>
      have hplace : n.wildcard = some c := place
      exact ⟨n.literals ++ n.param.toList, [], by simp [children, hplace],
        fun c' => by simp [children, attach]⟩

theorem holds_congr {n m : Node H} {v : Verb} {r : Route H} (routes : m.routes = n.routes)
    (same : m.children = n.children) : m.Holds v r ↔ n.Holds v r := by
  rw [holds_iff_children, holds_iff_children, routes, same]

/-- A child among the others adds what it holds. -/
theorem holds_insert {n m c : Node H} {before after : List (Node H)} {v : Verb} {r : Route H}
    (routes : m.routes = n.routes) (hn : n.children = before ++ after)
    (hm : m.children = before ++ c :: after) : m.Holds v r ↔ n.Holds v r ∨ c.Holds v r := by
  rw [holds_iff_children, holds_iff_children, routes, hn, hm]
  simp only [List.mem_append, List.mem_cons, or_and_right, exists_or, exists_eq_left]
  grind

/-- A child instead of one adds what it holds beyond that one. -/
theorem holds_exchange {n m c c' : Node H} {before after : List (Node H)} {v : Verb}
    {r : Route H} {new : Prop} (routes : m.routes = n.routes)
    (hn : n.children = before ++ c :: after) (hm : m.children = before ++ c' :: after)
    (hc : c'.Holds v r ↔ c.Holds v r ∨ new) : m.Holds v r ↔ n.Holds v r ∨ new := by
  rw [holds_iff_children, holds_iff_children, routes, hn, hm]
  simp only [List.mem_append, List.mem_cons, or_and_right, exists_or, exists_eq_left, hc]
  grind

/-- A literal child instead of one adds what it holds beyond that one. -/
theorem holds_literals {n c c' : Node H} {before after : List (Node H)}
    (among : n.literals = before ++ c :: after) {v : Verb} {r : Route H} {new : Prop}
    (hc : c'.Holds v r ↔ c.Holds v r ∨ new) :
    Holds { n with literals := before ++ c' :: after } v r ↔ n.Holds v r ∨ new := by
  have hn : n.children = before ++ c :: (after ++ n.param.toList ++ n.wildcard.toList) := by
    simp [children, among]
  exact holds_exchange rfl hn (by simp [children]) hc

/-- A split holds what the node held. -/
theorem holds_split {c : Node H} {start keep tail : Text} (text : c.text = keep ++ tail)
    (path : c.path = start ++ c.text) {v : Verb} {r : Route H} :
    (c.split keep.length).Holds v r ↔ c.Holds v r := by
  have hfree : (bare keep (start ++ keep) c.params : Node H).Free (.literal tail) :=
    fun d hd => nomatch hd
  obtain ⟨before, after, hn, hm⟩ := children_attach_of_free (c := { c with text := tail }) hfree
  rw [split_eq text path, holds_insert (attach_routes ..) hn hm]
  have htail : Holds { c with text := tail } v r ↔ c.Holds v r := holds_congr rfl rfl
  simp [not_holds_bare, htail]

/-- **The routes after a way are those before it and those that the visit adds.** -/
theorem Brought.holds_iff (keeps : KeepsShape visit) {n n' : Node H} {segs : List Segment}
    {a : α} {es : List Event} (h : Brought visit n segs n' a es) (hn : n.Valid)
    (hsegs : Template.Linked segs) {v : Verb} {r : Route H} {new : Prop}
    (visited : ∀ d, d.params = n.params ++ Template.paramNames segs → (visit d).2 = a →
      ((visit d).1.routes v = some r ↔ d.routes v = some r ∨ new)) :
    n'.Holds v r ↔ n.Holds v r ∨ new := by
  induction h with
  | here n =>
      have hroutes := visited n (by simp) rfl
      have hchildren : (visit n).1.children = n.children := by rw [keeps n]; rfl
      rw [holds_iff_children, holds_iff_children, hroutes, hchildren, or_right_comm]
  | @fresh n c s rest a free onward ih =>
      have hrest := (Template.linked_cons.1 hsegs).2.2
      have hc : c.Holds v r ↔ (n.child s).Holds v r ∨ new :=
        ih (valid_bare _ _ _) hrest fun d hd => visited d (by simpa [child, bare] using hd)
      obtain ⟨before, after, hn, hm⟩ := children_attach_of_free (c := c) free
      rw [holds_insert (attach_routes ..) hn hm, hc]
      simp [child, not_holds_bare]
  | @shared n c c' before after more rest a es among nonempty onward ih =>
      have hmem : c ∈ n.literals := by simp [among]
      have hparams := hn.regular.params_literal hmem
      refine holds_literals among (ih (hn.branch (.literal hmem)) hsegs.literalThen fun d hd => ?_)
      exact visited d (by simpa [hparams, Segment.name?] using hd)
  | @split n c c' before after keep tail more rest a among text kept cut parts onward ih =>
      have hmem : c ∈ n.literals := by simp [among]
      have hbranch : n.Branch (.literal c.text) c := .literal hmem
      have hpath := hn.regular.path hbranch
      have hparams := hn.regular.params_literal hmem
      have hproper := hn.regular.proper hbranch
      refine holds_literals among ?_
      rw [← holds_split text hpath]
      refine ih (valid_split (hn.branch hbranch) hproper text cut hpath) hsegs.literalThen ?_
      rw [split_eq text hpath]
      exact fun d hd => visited d (by simpa [bare, hparams, Segment.name?] using hd)
  | @placed n c c' s rest a es place same onward ih =>
      have hrest := (Template.linked_cons.1 hsegs).2.2
      have hbranch := branch_of_place place same
      have hparams := hn.regular.params hbranch
      obtain ⟨before, after, hn', hm⟩ := children_attach_of_place place
      refine holds_exchange (attach_routes ..) hn' (hm c') ?_
      exact ih (hn.branch hbranch) hrest fun d hd => visited d (by simpa [hparams] using hd)

end Node

end RouteTree
