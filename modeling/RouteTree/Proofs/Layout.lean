/-
**An arena that lays a tree out.**

A cell *shows* a node when it has the data of the node and the cells that it links to, in their
order, show the node's children.  So an arena may lay out a whole tree from its root on.

When segments are followed in the arena, the same happens to the tree that it lays out as when they
are brought into the tree itself, and the same splits are reported.  What makes this work is that a
change below a node concerns the cells with longer paths only: the cells that show the other
children have paths that part from it, and they show the same nodes afterwards.

Main definitions:

* `Arena.Shows` — a cell shows a node;
* `Arena.Frame` — nothing has happened to the cells that do not continue a path.

Main results:

* `Arena.Wired.exists_cut` — a literal cell can be split, and the cells beside it stay;
* `Arena.Shows.transport` — a node is shown by the cells that continue its path;
* `Arena.follow_of_brought` — **following segments in an arena brings them into the tree that it
  lays out**;
* `Arena.follow_of_error` — what bars the way in the tree bars it in the arena;
* `Arena.Shows.follow_of_leads` — following segments that lead to a node changes nothing.
-/
import Mathlib.Data.List.Forall2
import RouteTree.Proofs.Conflicts
import RouteTree.Proofs.Wiring

set_option autoImplicit false
set_option relaxedAutoImplicit false

namespace RouteTree

variable {H α : Type}

/-- A cell has the data of a node. -/
structure Cell.Fits (c : Cell H) (n : Node H) : Prop where
  text : c.text = n.text
  path : c.path = n.path
  params : c.params = n.params
  routes : c.routes = n.routes

/-- Literal children differ from one of them in their first characters. -/
theorem Node.Regular.head?_ne_of_among {n d e : Node H} (hn : n.Regular)
    {before after : List (Node H)} (literals : n.literals = before ++ d :: after)
    (he : e ∈ before ++ after) : e.text.head? ≠ d.text.head? := by
  have hapart := hn.apart
  rw [literals, List.map_append, List.map_cons, List.nodup_middle, List.nodup_cons] at hapart
  intro head
  rw [← List.map_append, ← head] at hapart
  exact hapart.1 (List.mem_map_of_mem he)

namespace Arena

/-! ### Showing -/

/-- **The cell at a place shows a node**, and the cells that it links to show the node's
children. -/
inductive Shows (a : Arena H) : Nat → Node H → Prop
  | intro {id : Nat} {c : Cell H} {n : Node H} (here : a[id]? = some c) (fits : c.Fits n)
      (literals : List.Forall₂ (Shows a) c.literals n.literals)
      (param : Option.Rel (Shows a) c.param n.param)
      (wildcard : Option.Rel (Shows a) c.wildcard n.wildcard) : Shows a id n

theorem forall₂_of_mem {ι β : Type} {R S : ι → β → Prop} {l : List ι} {m : List β}
    (h : List.Forall₂ R l m) (imp : ∀ x, ∀ y ∈ m, R x y → S x y) : List.Forall₂ S l m := by
  induction h with
  | nil => exact .nil
  | @cons x y l m hxy _ ih =>
      exact .cons (imp x y List.mem_cons_self hxy)
        (ih fun x' y' hy' => imp x' y' (List.mem_cons_of_mem _ hy'))

theorem rel_of_mem {ι β : Type} {R S : ι → β → Prop} {x : Option ι} {y : Option β}
    (h : Option.Rel R x y) (imp : ∀ i, ∀ b ∈ y, R i b → S i b) : Option.Rel S x y := by
  cases h with
  | some h => exact .some (imp _ _ rfl h)
  | none => exact .none

theorem exists_of_rel_left {ι β : Type} {R : ι → β → Prop} {x : Option ι} {y : Option β}
    (h : Option.Rel R x y) {i : ι} (hx : x = some i) : ∃ b, y = some b ∧ R i b := by
  cases h with
  | some h =>
      obtain rfl := Option.some.inj hx
      exact ⟨_, rfl, h⟩
  | none => cases hx

theorem exists_of_rel_right {ι β : Type} {R : ι → β → Prop} {x : Option ι} {y : Option β}
    (h : Option.Rel R x y) {b : β} (hy : y = some b) : ∃ i, x = some i ∧ R i b := by
  cases h with
  | some h =>
      obtain rfl := Option.some.inj hy
      exact ⟨_, rfl, h⟩
  | none => cases hy

theorem eq_none_of_rel {ι β : Type} {R : ι → β → Prop} {x : Option ι} {y : Option β}
    (h : Option.Rel R x y) (hy : y = none) : x = none := by
  cases h with
  | some _ => cases hy
  | none => rfl

namespace Shows

variable {a a' : Arena H} {id : Nat} {c : Cell H} {n : Node H}

theorem exists_cell (h : a.Shows id n) : ∃ c, a[id]? = some c ∧ c.Fits n := by
  cases h with
  | intro here fits _ _ _ => exact ⟨_, here, fits⟩

/-- The links of a cell that shows a node. -/
theorem children (h : a.Shows id n) (here : a[id]? = some c) :
    c.Fits n ∧ List.Forall₂ a.Shows c.literals n.literals ∧ Option.Rel a.Shows c.param n.param ∧
      Option.Rel a.Shows c.wildcard n.wildcard := by
  cases h with
  | intro here' fits literals param wildcard =>
      rw [here] at here'
      obtain rfl := Option.some.inj here'
      exact ⟨fits, literals, param, wildcard⟩

/-- The links of a cell that shows a node, in an arena that still shows the children of the
node. -/
theorem children_of (h : a.Shows id n) (here : a[id]? = some c)
    (child : ∀ s d, n.Branch s d → ∀ j, a.Shows j d → a'.Shows j d) :
    List.Forall₂ a'.Shows c.literals n.literals ∧ Option.Rel a'.Shows c.param n.param ∧
      Option.Rel a'.Shows c.wildcard n.wildcard := by
  obtain ⟨_, literals, param, wildcard⟩ := h.children here
  refine ⟨?_, ?_, ?_⟩
  · exact forall₂_of_mem literals fun j d hd => child _ d (.literal hd) j
  · exact rel_of_mem param fun j d hd => child _ d (.param hd) j
  · exact rel_of_mem wildcard fun j d hd => child _ d (.wildcard hd) j

/-- **A node is shown by the cells that continue its path**, whatever their parents are said to
be. -/
theorem transport (hn : n.Valid) (h : a.Shows id n)
    (same : ∀ (j : Nat) (d : Cell H), a[j]? = some d → n.path <+: d.path →
      ∃ parent, a'[j]? = some { d with parent }) : a'.Shows id n := by
  induction n using Node.induction generalizing id with
  | step n ih =>
      obtain ⟨c, here, fits⟩ := h.exists_cell
      obtain ⟨parent, here'⟩ := same id c here (fits.path ▸ List.prefix_refl _)
      obtain ⟨literals, param, wildcard⟩ := h.children_of here fun s d first j hj => by
        refine ih s d first (hn.branch first) hj fun i e hi hpath => same i e hi ?_
        rw [hn.regular.path first] at hpath
        exact (List.prefix_append _ _).trans hpath
      exact .intro here' ⟨fits.text, fits.path, fits.params, fits.routes⟩ literals param wildcard

/-- The children of a node are shown by cells with longer paths. -/
theorem transport_child (hn : n.Valid) {s : Segment} {d : Node H} {j : Nat} (first : n.Branch s d)
    (h : a.Shows j d)
    (same : ∀ (i : Nat) (e : Cell H), a[i]? = some e → n.path <+: e.path → e.path ≠ n.path →
      ∃ parent, a'[i]? = some { e with parent }) : a'.Shows j d := by
  refine h.transport (hn.branch first) fun i e hi hpath => ?_
  rw [hn.regular.path first] at hpath
  refine same i e hi ((List.prefix_append _ _).trans hpath) fun heq => ?_
  have hlen := hpath.length_le
  have htext := List.length_pos_iff.2 (hn.regular.proper first).ne_nil
  rw [heq, List.length_append] at hlen
  omega

end Shows

/-! ### What a change leaves alone -/

/-- A cell with another path is in another place. -/
theorem ne_of_path_ne {a : Arena H} {id j : Nat} {c d : Cell H} (h : a[id]? = some c)
    (hj : a[j]? = some d) (hne : d.path ≠ c.path) : j ≠ id := by
  rintro rfl
  rw [h] at hj
  obtain rfl := Option.some.inj hj
  exact hne rfl

/-- A cell that does not continue the path of another one is in another place. -/
theorem ne_of_not_prefix {a : Arena H} {id j : Nat} {c d : Cell H} (h : a[id]? = some c)
    (hj : a[j]? = some d) (hp : ¬ c.path <+: d.path) : j ≠ id :=
  ne_of_path_ne h hj fun heq => hp (heq ▸ List.prefix_refl _)

/-- Nothing has happened to the cells that do not continue a path. -/
def Frame (p : Text) (a a' : Arena H) : Prop :=
  ∀ (j : Nat) (d : Cell H), a[j]? = some d → ¬ p <+: d.path → a'[j]? = some d

theorem Frame.trans {p : Text} {a a' a'' : Arena H} (h : Frame p a a') (h' : Frame p a' a'') :
    Frame p a a'' := by
  intro j d hj hp
  exact h' j d (h j d hj hp) hp

theorem Frame.mono {p q : Text} {a a' : Arena H} (h : Frame p a a') (hq : q <+: p) :
    Frame q a a' := by
  intro j d hj hp
  exact h j d hj fun hpre => hp (hq.trans hpre)

theorem Sprouted.frame {a a' : Arena H} {id : Nat} {c : Cell H} {s : Segment}
    (h : a[id]? = some c) (h' : a.Sprouted id c s a') : Frame c.path a a' := by
  intro j d hj hp
  have hlt := lt_length_of_getElem? hj
  have hjid := ne_of_not_prefix h hj hp
  rw [h'.others j hjid (by omega), hj]

theorem Cut.frame {a a' : Arena H} (ha : a.Wired) {id k : Nat} {c : Cell H} {start : Text}
    (h : a[id]? = some c) (h' : a.Cut id c start k a') : Frame c.path a a' := by
  intro j d hj hp
  have hlt := lt_length_of_getElem? hj
  have hjid := ne_of_not_prefix h hj hp
  have hmem : j ∉ c.children := by
    intro hmem
    obtain ⟨k', hk⟩ := Cell.mem_children_iff.1 hmem
    rw [(ha.eq_of_links h hk hj).path] at hp
    exact hp (List.prefix_append _ _)
  rw [h'.others j hjid (by omega), hj]
  simp [hmem]

/-- **A literal cell can be split where its text falls into two parts.**  The row is wired as it
was, and nothing happens to the cells whose paths do not continue that of the first part. -/
theorem Wired.exists_cut {a : Arena H} (ha : a.Wired) {p id : Nat} {q c : Cell H}
    (hp : a[p]? = some q) (hlink : q.Links .literal id) (here : a[id]? = some c)
    {keep tail : Text} (text : c.text = keep ++ tail) (kept : keep ≠ []) (cut : tail ≠ []) :
    ∃ a', a.split id keep.length = some (a', .nodeSplit c.path keep tail) ∧
      a.Cut id c q.path keep.length a' ∧ a'.Wired ∧ Frame (q.path ++ keep) a a' := by
  obtain ⟨a', hsplit, h'⟩ := ha.exists_split hp hlink here keep.length
  have hkeep : c.text.take keep.length = keep := by rw [text, List.take_left]
  have htail : c.text.drop keep.length = tail := by rw [text, List.drop_left]
  rw [hkeep, htail] at hsplit
  have hframe := h'.frame ha here
  rw [(ha.eq_of_links hp hlink here).path, text, ← List.append_assoc] at hframe
  refine ⟨a', hsplit, h', ha.cut here hp hlink ?_ ?_ h', hframe.mono (List.prefix_append _ _)⟩
  · rwa [hkeep]
  · rwa [htail]

namespace Shows

variable {a a' : Arena H} {id : Nat} {c : Cell H} {n : Node H}

/-- **A child is shown as before after a change behind another text.** -/
theorem beside (hn : n.Valid) {s : Segment} {d : Node H} {j : Nat} (first : n.Branch s d)
    (h : a.Shows j d) {u : Text} (hu : u ≠ []) (head : s.text.head? ≠ u.head?)
    (frame : Frame (n.path ++ u) a a') : a'.Shows j d := by
  refine h.transport (hn.branch first) fun i e hi hpath => ⟨e.parent, frame i e hi fun hpre => ?_⟩
  rw [hn.regular.path first] at hpath
  obtain ⟨x, hx⟩ := hpath
  obtain ⟨y, hy⟩ := hpre
  rw [← hx, List.append_assoc, List.append_assoc, List.append_cancel_left_eq] at hy
  have h := congrArg List.head? hy
  rw [List.head?_append_of_ne_nil _ hu,
    List.head?_append_of_ne_nil _ (hn.regular.proper first).ne_nil] at h
  exact head h.symm

/-- A fresh cell shows a fresh child. -/
theorem of_fresh {s : Segment} (fits : c.Fits n) (h' : a.Sprouted id c s a') :
    a'.Shows a.length (n.child s) := by
  refine .intro h'.fresh ⟨rfl, ?_, ?_, rfl⟩ .nil .none .none
  · simp [Cell.fresh, Node.child, Node.bare, fits.path]
  · simp [Cell.fresh, Node.child, Node.bare, fits.params]

/-- A split cell shows a split node. -/
theorem of_cut (hn : n.Valid) (h : a.Shows id n) (here : a[id]? = some c)
    {start keep tail : Text} (text : n.text = keep ++ tail) (path : n.path = start ++ n.text)
    (h' : a.Cut id c start keep.length a') : a'.Shows id (n.split keep.length) := by
  have fits := (h.children here).1
  have hbelow : ∀ s d, n.Branch s d → ∀ j, a.Shows j d → a'.Shows j d := by
    intro s d first j hj
    refine hj.transport_child hn first fun i e hi hpre hne => ?_
    have hlt := lt_length_of_getElem? hi
    have hid := ne_of_path_ne here hi (fits.path ▸ hne)
    exact ⟨_, by rw [h'.others i hid (by omega), hi]; rfl⟩
  have htail : a'.Shows a.length { n with text := tail } := by
    obtain ⟨literals, param, wildcard⟩ := h.children_of here hbelow
    refine .intro h'.tail ⟨?_, fits.path, fits.params, fits.routes⟩ literals param wildcard
    simp [Cell.tail, fits.text, text]
  rw [Node.split_eq text path]
  refine .intro h'.head ⟨?_, ?_, fits.params, rfl⟩ (.cons htail .nil) .none .none
  · simp [Cell.head, Node.bare, Node.attach, fits.text, text]
  · simp [Node.bare, Node.attach, fits.text, text]

/-! ### A node with one child changed -/

theorem not_append_prefix {p u : Text} (hu : u ≠ []) : ¬ p ++ u <+: p := by
  intro h
  have hlen := h.length_le
  have hpos := List.length_pos_iff.2 hu
  rw [List.length_append] at hlen
  omega

/-- The cells of the literal children, around one of them. -/
theorem among (h : a.Shows id n) (here : a[id]? = some c) {before after : List (Node H)}
    {d : Node H} (literals : n.literals = before ++ d :: after) :
    ∃ lb j la, c.literals = lb ++ j :: la ∧ List.Forall₂ a.Shows lb before ∧ a.Shows j d ∧
      List.Forall₂ a.Shows la after := by
  have hall := (h.children here).2.1
  rw [literals] at hall
  have hbefore := List.forall₂_take_append _ _ _ hall
  have hrest := List.forall₂_drop_append _ _ _ hall
  obtain ⟨j, la, hj, hafter, heq⟩ := List.forall₂_cons_right_iff.1 hrest
  refine ⟨_, j, la, ?_, hbefore, hj, hafter⟩
  rw [← heq, List.take_append_drop]

/-- After a change below one literal child, a node is shown with the child changed. -/
theorem exchange_literal (hn : n.Valid) (h : a.Shows id n) (here : a[id]? = some c)
    {before after : List (Node H)} {d d' : Node H} (literals : n.literals = before ++ d :: after)
    {lb la : List Nat} {j : Nat} (ids : c.literals = lb ++ j :: la)
    (hbefore : List.Forall₂ a.Shows lb before) (hafter : List.Forall₂ a.Shows la after)
    {u : Text} (hu : u ≠ []) (head : d.text.head? = u.head?) (frame : Frame (n.path ++ u) a a')
    (hd : a'.Shows j d') : a'.Shows id { n with literals := before ++ d' :: after } := by
  obtain ⟨fits, _, param, wildcard⟩ := h.children here
  have here' : a'[id]? = some c := frame id c here (fits.path ▸ not_append_prefix hu)
  have first : n.Branch (.literal d.text) d := .literal (by simp [literals])
  have hliteral : ∀ e ∈ before ++ after, ∀ i, a.Shows i e → a'.Shows i e := by
    intro e he i hi
    have hmem : e ∈ n.literals := by
      rw [literals]
      simpa [or_left_comm] using Or.inr (List.mem_append.1 he)
    refine hi.beside hn (.literal hmem) hu ?_ frame
    rw [← head]
    exact hn.regular.head?_ne_of_among literals he
  have hplaced : ∀ s e, n.Branch s e → s.IsPlaceholder → ∀ i, a.Shows i e → a'.Shows i e := by
    intro s e second hs i hi
    refine hi.beside hn second hu (fun heq => ?_) frame
    rw [← head] at heq
    exact hs.ne_literal _ (hn.regular.branch_unique second first heq).1
  refine .intro here' ⟨fits.text, fits.path, fits.params, fits.routes⟩ ?_ ?_ ?_
  · rw [ids]
    refine List.rel_append ?_ (.cons hd ?_)
    · exact forall₂_of_mem hbefore fun i e he => hliteral e (List.mem_append_left _ he) i
    · exact forall₂_of_mem hafter fun i e he => hliteral e (List.mem_append_right _ he) i
  · exact rel_of_mem param fun i e he => hplaced _ e (.param he) rfl i
  · exact rel_of_mem wildcard fun i e he => hplaced _ e (.wildcard he) rfl i

/-- After a change below the child of a placeholder, a node is shown with the child changed. -/
theorem exchange_place (hn : n.Valid) (h : a.Shows id n) (here : a[id]? = some c) {s : Segment}
    {d d' : Node H} {j : Nat} (place : n.place? s = some d) (same : d.text = s.text)
    (hplace : c.place? s = some j) (frame : Frame (n.path ++ s.text) a a')
    (hd : a'.Shows j d') : a'.Shows id (n.attach s d') := by
  obtain ⟨fits, literals, param, wildcard⟩ := h.children here
  have first := Node.branch_of_place place same
  have hs := (hn.regular.proper first).ne_nil
  have here' : a'[id]? = some c := frame id c here (fits.path ▸ not_append_prefix hs)
  have hothers : ∀ s' e, n.Branch s' e → s'.kind ≠ s.kind → ∀ i, a.Shows i e → a'.Shows i e := by
    intro s' e second hne i hi
    refine hi.beside hn second hs (fun heq => ?_) frame
    exact hne (congrArg Segment.kind (hn.regular.branch_unique second first heq).1)
  have hliterals : s.kind ≠ .literal → List.Forall₂ a'.Shows c.literals n.literals := by
    intro hne
    exact forall₂_of_mem literals fun i e he => hothers _ e (.literal he) hne.symm i
  cases s with
  | literal run => cases place
  | param name =>
      refine .intro here' ⟨fits.text, fits.path, fits.params, fits.routes⟩
        (hliterals (by simp [Segment.kind])) ?_ ?_
      · rw [show c.param = some j from hplace]
        exact .some hd
      · refine rel_of_mem wildcard fun i e he => hothers _ e (.wildcard he) ?_ i
        simp [Segment.kind]
  | wildcard name =>
      refine .intro here' ⟨fits.text, fits.path, fits.params, fits.routes⟩
        (hliterals (by simp [Segment.kind])) ?_ ?_
      · refine rel_of_mem param fun i e he => hothers _ e (.param he) ?_ i
        simp [Segment.kind]
      · rw [show c.wildcard = some j from hplace]
        exact .some hd

/-- After a fresh child has been put below a node, and changed, the node is shown with it. -/
theorem attach_fresh (hn : n.Valid) (h : a.Shows id n) (here : a[id]? = some c) {s : Segment}
    (free : n.Free s) (proper : s.Proper) {a₁ : Arena H} (h₁ : a.Sprouted id c s a₁)
    (frame : Frame (n.path ++ s.text) a₁ a') {d : Node H} (hd : a'.Shows a.length d) :
    a'.Shows id (n.attach s d) := by
  have fits := (h.children here).1
  have hpath : (c.adopt s a.length).path = n.path := (c.adopt_path s a.length).trans fits.path
  have here' : a'[id]? = some (c.adopt s a.length) :=
    frame id _ h₁.parent (hpath ▸ not_append_prefix proper.ne_nil)
  have hothers : ∀ s' e, n.Branch s' e → ∀ i, a.Shows i e → a'.Shows i e := by
    intro s' e first i hi
    have hi₁ : a₁.Shows i e := by
      refine hi.transport_child hn first fun k f hk _ hne => ⟨f.parent, ?_⟩
      have hlt := lt_length_of_getElem? hk
      have hkid := ne_of_path_ne here hk (fits.path ▸ hne)
      rw [h₁.others k hkid (by omega), hk]
    exact hi₁.beside hn first proper.ne_nil (free.head?_ne hn proper first) frame
  obtain ⟨hliterals, hparam, hwildcard⟩ := h.children_of here hothers
  cases s with
  | literal run =>
      exact .intro here' ⟨fits.text, fits.path, fits.params, fits.routes⟩
        (List.rel_append hliterals (.cons hd .nil)) hparam hwildcard
  | param name =>
      exact .intro here' ⟨fits.text, fits.path, fits.params, fits.routes⟩ hliterals (.some hd)
        hwildcard
  | wildcard name =>
      exact .intro here' ⟨fits.text, fits.path, fits.params, fits.routes⟩ hliterals hparam
        (.some hd)

end Shows

/-! ### Following segments -/

/-- A change at the end of a way does to a cell what a visit does to the node that it shows. -/
def Performs (finish : Arena H → Nat → Option (Arena H × α)) (visit : Node H → Node H × α) :
    Prop :=
  ∀ {a : Arena H} {id : Nat} {n : Node H}, a.Wired → a.Shows id n → n.Valid →
    ∃ a', finish a id = some (a', (visit n).2) ∧ a'.Wired ∧ a'.Shows id (visit n).1 ∧
      Frame n.path a a'

variable {a : Arena H} {id : Nat} {n : Node H} {c : Cell H}

/-- A segment that nothing takes has a free place. -/
theorem Shows.place?_eq_none (h : a.Shows id n) (here : a[id]? = some c) {s : Segment}
    (free : n.Free s) : c.place? s = none := by
  obtain ⟨_, _, param, wildcard⟩ := h.children here
  cases s with
  | literal run => rfl
  | param name => exact eq_none_of_rel param free
  | wildcard name => exact eq_none_of_rel wildcard free

/-- The child in the place of a placeholder is shown by the cell in that place. -/
theorem Shows.exists_place (h : a.Shows id n) (here : a[id]? = some c) {s : Segment} {d : Node H}
    (place : n.place? s = some d) : ∃ j, c.place? s = some j ∧ a.Shows j d := by
  obtain ⟨_, _, param, wildcard⟩ := h.children here
  cases s with
  | literal run => cases place
  | param name => exact exists_of_rel_right param place
  | wildcard name => exact exists_of_rel_right wildcard place

theorem exists_of_forall₂_left {ι β : Type} {R : ι → β → Prop} {l : List ι} {m : List β}
    (h : List.Forall₂ R l m) {x : ι} (hx : x ∈ l) : ∃ y ∈ m, R x y := by
  induction h with
  | nil => cases hx
  | @cons i b l m hib _ ih =>
      rcases List.mem_cons.1 hx with rfl | hx
      · exact ⟨b, List.mem_cons_self, hib⟩
      · obtain ⟨y, hy, hxy⟩ := ih hx
        exact ⟨y, List.mem_cons_of_mem _ hy, hxy⟩

/-- Cells that show nodes with other first characters do not open a run. -/
theorem opens_of_forall₂ {ids : List Nat} {cs : List (Node H)} (h : List.Forall₂ a.Shows ids cs)
    {first : Char} (hne : ∀ d ∈ cs, d.text.head? ≠ some first) :
    ∀ j ∈ ids, ∃ d, a[j]? = some d ∧ d.text.head? ≠ some first := by
  intro j hj
  obtain ⟨d, hd, hshow⟩ := exists_of_forall₂_left h hj
  obtain ⟨e, he, fits⟩ := hshow.exists_cell
  exact ⟨e, he, by rw [fits.text]; exact hne d hd⟩

/-- A literal child is found by its first character. -/
theorem Shows.opening? (hn : n.Valid) (h : a.Shows id n) (here : a[id]? = some c)
    {before after : List (Node H)} {d : Node H} (literals : n.literals = before ++ d :: after) :
    ∃ lb j la, c.literals = lb ++ j :: la ∧ List.Forall₂ a.Shows lb before ∧ a.Shows j d ∧
      List.Forall₂ a.Shows la after ∧ ∀ first, d.text.head? = some first →
        a.opening? first c.literals = some (some j) := by
  obtain ⟨lb, j, la, ids, hbefore, hj, hafter⟩ := h.among here literals
  refine ⟨lb, j, la, ids, hbefore, hj, hafter, fun first head => ?_⟩
  obtain ⟨e, he, fits⟩ := hj.exists_cell
  rw [ids]
  refine opening?_eq_some (opens_of_forall₂ hbefore fun b hb => ?_) he (by rw [fits.text, head])
  rw [← head]
  exact hn.regular.head?_ne_of_among literals (List.mem_append_left _ hb)

/-- A segment that nothing takes gets a fresh cell. -/
theorem follow_of_free (template : Text) (hn : n.Valid) (h : a.Shows id n)
    (here : a[id]? = some c) {s : Segment} (free : n.Free s) (proper : s.Proper) {a' : Arena H}
    (sprout : a.sprout id s = some (a', a.length)) (rest : List Segment) :
    a.follow template id (s :: rest) = a'.follow template a.length rest := by
  by_cases hs : s.kind = .literal
  · cases proper with
    | @literal run nonempty _ =>
        obtain ⟨first, more, rfl⟩ := List.exists_cons_of_ne_nil nonempty
        have hnone : a.opening? first c.literals = some none := by
          refine opening?_eq_none (opens_of_forall₂ (h.children here).2.1 fun d hd head => ?_)
          have hne := (hn.regular.proper (.literal hd)).ne_nil
          exact Text.head?_ne_of_shared_nil (free d hd) hne head
        rw [follow_literal, followRun_of_none here hnone, sprout]
        simp
    | param _ _ => cases hs
    | wildcard _ _ => cases hs
  · rw [follow_placed template hs, followPlaced]
    simp [here, h.place?_eq_none here free, sprout]

/-- A run that begins with the text of a child goes on there. -/
theorem follow_of_shared (template : Text) (here : a[id]? = some c) {j : Nat} {d : Node H}
    (hj : a.Shows j d) (nonempty : d.text ≠ [])
    (found : ∀ first, d.text.head? = some first → a.opening? first c.literals = some (some j))
    (more : Text) (rest : List Segment) :
    a.follow template id (.literal (d.text ++ more) :: rest) =
      a.follow template j (Segment.literalThen more rest) := by
  obtain ⟨e, he, fits⟩ := hj.exists_cell
  obtain ⟨first, keep, htext⟩ := List.exists_cons_of_ne_nil nonempty
  have hfound := found first (by rw [htext]; rfl)
  rw [follow_literal, follow_literalThen, htext, List.cons_append,
    followRun_of_shared here hfound he (fits.text.trans htext)]

/-- A run that leaves the text of a child half way goes on at the head of a split. -/
theorem follow_of_split (template : Text) (here : a[id]? = some c) {j : Nat} {d : Node H}
    (hj : a.Shows j d) {keep tail more : Text} (text : d.text = keep ++ tail) (kept : keep ≠ [])
    (cut : tail ≠ []) (parts : tail.head? ≠ more.head?)
    (found : ∀ first, d.text.head? = some first → a.opening? first c.literals = some (some j))
    {a' : Arena H} {report : Event} (split : a.split j keep.length = some (a', report))
    (rest : List Segment) :
    a.follow template id (.literal (keep ++ more) :: rest) =
      (a'.follow template j (Segment.literalThen more rest)).map (·.after [report]) := by
  obtain ⟨e, he, fits⟩ := hj.exists_cell
  obtain ⟨first, keep, rfl⟩ := List.exists_cons_of_ne_nil kept
  have hfound := found first (by rw [text]; rfl)
  rw [follow_literal, follow_literalThen, List.cons_append,
    followRun_of_split here hfound he (fits.text.trans text) cut parts split]
  cases a'.followRun j more with
  | none => rfl
  | some i => simp only [Option.map_some, Option.bind_some, Insertion.onward_after]

/-- A placeholder goes on at the child in its place, if that has the same name. -/
theorem follow_of_placed (template : Text) (here : a[id]? = some c) {s : Segment} {j : Nat}
    {d : Node H} (hplace : c.place? s = some j) (hj : a.Shows j d) (same : d.text = s.text)
    (rest : List Segment) :
    a.follow template id (s :: rest) = a.follow template j rest := by
  obtain ⟨e, he, fits⟩ := hj.exists_cell
  rw [follow_placed template (Cell.kind_ne_of_place hplace), followPlaced]
  simp [here, hplace, he, fits.text, same]

/-- A placeholder is barred by a child with another name in its place. -/
theorem follow_of_barred (template : Text) (here : a[id]? = some c) {s : Segment} {j : Nat}
    {d : Node H} (hplace : c.place? s = some j) (hj : a.Shows j d) (other : d.text ≠ s.text)
    (rest : List Segment) :
    a.follow template id (s :: rest) =
      some ⟨a, .error (.routeConflict d.path template), []⟩ := by
  obtain ⟨e, he, fits⟩ := hj.exists_cell
  rw [follow_placed template (Cell.kind_ne_of_place hplace), followPlaced]
  simp [here, hplace, he, fits.text, fits.path, other, Insertion.onward]

/-- **Following segments in an arena brings them into the tree that it lays out**: the way leads to
a cell, with the same splits, and what is done there is what the visit does to the node at the end
of the way. -/
theorem follow_of_brought {finish : Arena H → Nat → Option (Arena H × α)}
    {visit : Node H → Node H × α} (performs : Performs finish visit) (template : Text)
    {n' : Node H} {segs : List Segment} {x : α} {es : List Event}
    (h : Node.Brought visit n segs n' x es) (hn : n.Valid) (hsegs : Template.Linked segs)
    (ha : a.Wired) (hshow : a.Shows id n) :
    ∃ a₁ j a', a.follow template id segs = some ⟨a₁, .ok j, es⟩ ∧ finish a₁ j = some (a', x) ∧
      a'.Wired ∧ a'.Shows id n' ∧ Frame n.path a a' := by
  induction h generalizing a id with
  | here n =>
      obtain ⟨a', hfinish, hwired, hshow', hframe⟩ := performs ha hshow hn
      exact ⟨a, id, a', rfl, hfinish, hwired, hshow', hframe⟩
  | @fresh n d s rest x free onward ih =>
      obtain ⟨proper, _, hrest⟩ := Template.linked_cons.1 hsegs
      obtain ⟨c, here, fits⟩ := hshow.exists_cell
      obtain ⟨a₁, hsprout, h₁⟩ := exists_sprout here s
      have hwired₁ := ha.sprouted here (hshow.place?_eq_none here free) proper.ne_nil h₁
      obtain ⟨a₂, j, a', hfollow, hfinish, hwired, hshow', hframe⟩ :=
        ih (Node.valid_bare _ _ _) hrest hwired₁ (Shows.of_fresh fits h₁)
      refine ⟨a₂, j, a', ?_, hfinish, hwired, ?_, ?_⟩
      · rw [follow_of_free template hn hshow here free proper hsprout, hfollow]
      · exact hshow.attach_fresh hn here free proper h₁ hframe hshow'
      · have hbefore := h₁.frame here
        rw [fits.path] at hbefore
        exact hbefore.trans (hframe.mono (List.prefix_append _ _))
  | @shared n d d' before after more rest x es among nonempty onward ih =>
      obtain ⟨c, here, fits⟩ := hshow.exists_cell
      obtain ⟨lb, k, la, ids, hleft, hk, hright, found⟩ := hshow.opening? hn here among
      have first : n.Branch (.literal d.text) d := .literal (by simp [among])
      have hpath : d.path = n.path ++ d.text := hn.regular.path first
      obtain ⟨a₁, j, a', hfollow, hfinish, hwired, hshow', hframe⟩ :=
        ih (hn.branch first) hsegs.literalThen ha hk
      rw [hpath] at hframe
      refine ⟨a₁, j, a', ?_, hfinish, hwired, ?_, hframe.mono (List.prefix_append _ _)⟩
      · rw [follow_of_shared template here hk nonempty found, hfollow]
      · exact hshow.exchange_literal hn here among ids hleft hright nonempty rfl hframe hshow'
  | @split n d d' before after keep tail more rest x among text kept cut parts onward ih =>
      obtain ⟨c, here, fits⟩ := hshow.exists_cell
      obtain ⟨lb, k, la, ids, hleft, hk, hright, found⟩ := hshow.opening? hn here among
      have first : n.Branch (.literal d.text) d := .literal (by simp [among])
      have hpath : d.path = n.path ++ d.text := hn.regular.path first
      have hvalid := Node.valid_split (hn.branch first) (hn.regular.proper first) text cut hpath
      obtain ⟨e, he, fits'⟩ := hk.exists_cell
      have hlink : c.Links .literal k := .literal (by simp [ids])
      obtain ⟨a₀, hsplit, hcut, hwired₀, hbefore⟩ :=
        ha.exists_cut here hlink he (fits'.text.trans text) kept cut
      rw [fits'.path] at hsplit
      rw [fits.path] at hcut hbefore
      have hshow₀ := hk.of_cut (hn.branch first) he text hpath hcut
      obtain ⟨a₁, j, a', hfollow, hfinish, hwired, hshow', hframe⟩ :=
        ih hvalid hsegs.literalThen hwired₀ hshow₀
      have hstart : (d.split keep.length).path = n.path ++ keep := by
        rw [Node.split_eq text hpath, Node.attach_path]
        rfl
      rw [hstart] at hframe
      have hframe' := hbefore.trans hframe
      refine ⟨a₁, j, a', ?_, hfinish, hwired, ?_, hframe'.mono (List.prefix_append _ _)⟩
      · rw [follow_of_split template here hk text kept cut parts found hsplit, hfollow]
        rfl
      · refine hshow.exchange_literal hn here among ids hleft hright kept ?_ hframe' hshow'
        rw [text, List.head?_append_of_ne_nil _ kept]
  | @placed n d d' s rest x es place same onward ih =>
      obtain ⟨proper, _, hrest⟩ := Template.linked_cons.1 hsegs
      obtain ⟨c, here, fits⟩ := hshow.exists_cell
      obtain ⟨k, hplace, hk⟩ := hshow.exists_place here place
      have first := Node.branch_of_place place same
      obtain ⟨a₁, j, a', hfollow, hfinish, hwired, hshow', hframe⟩ :=
        ih (hn.branch first) hrest ha hk
      rw [hn.regular.path first] at hframe
      refine ⟨a₁, j, a', ?_, hfinish, hwired, ?_, hframe.mono (List.prefix_append _ _)⟩
      · rw [follow_of_placed template here hplace hk same, hfollow]
      · exact hshow.exchange_place hn here place same hplace hframe hshow'

/-- **What bars the way in a tree bars it in the arena that lays it out**, before anything is
changed. -/
theorem follow_of_error {visit : Node H → Node H × α} {template : Text} {segs : List Segment}
    {e : RouteError} (hn : n.Valid) (hshow : a.Shows id n)
    (h : (n.insert template visit segs).outcome = .error e) :
    a.follow template id segs = some ⟨a, .error e, []⟩ := by
  induction n using Node.induction generalizing id segs with
  | step n ih =>
      obtain ⟨c, here, fits⟩ := hshow.exists_cell
      have hplaced : ∀ s rest,
          (Node.insertPlaced template visit n s (n.place? s) rest).outcome = .error e →
          a.follow template id (s :: rest) = some ⟨a, .error e, []⟩ := by
        intro s rest h
        obtain ⟨d, place, ⟨other, rfl⟩ | ⟨same, hbelow⟩⟩ := Node.exists_of_insertPlaced_error h
        · obtain ⟨j, hplace, hj⟩ := hshow.exists_place here place
          exact follow_of_barred template here hplace hj other rest
        · obtain ⟨j, hplace, hj⟩ := hshow.exists_place here place
          have first := Node.branch_of_place place same
          rw [follow_of_placed template here hplace hj same]
          exact ih _ d first (hn.branch first) hj hbelow
      cases segs with
      | nil =>
          rw [Node.insert_nil] at h
          cases h
      | cons s rest =>
          cases s with
          | literal run =>
              rw [Node.insert_literal] at h
              obtain ⟨d, hd, more, rfl, hbelow⟩ := Node.exists_of_insertLiteral_error h
              have first : n.Branch (.literal d.text) d := .literal hd
              obtain ⟨before, after, among⟩ := List.append_of_mem hd
              obtain ⟨_, j, _, _, _, hj, _, found⟩ := hshow.opening? hn here among
              have hne := (hn.regular.proper first).ne_nil
              rw [follow_of_shared template here hj hne found]
              exact ih _ d first (hn.branch first) hj hbelow
          | param name =>
              rw [Node.insert_param] at h
              exact hplaced (.param name) rest h
          | wildcard name =>
              rw [Node.insert_wildcard] at h
              exact hplaced (.wildcard name) rest h

/-- **Following segments that lead to a node changes nothing**, and comes to a cell that shows the
node. -/
theorem Shows.follow_of_leads {a : Arena H} {id : Nat} {n d : Node H} {segs : List Segment}
    (template : Text) (hn : n.Valid) (h : n.Leads segs d) (hshow : a.Shows id n) :
    ∃ j, a.follow template id segs = some ⟨a, .ok j, []⟩ ∧ a.Shows j d := by
  induction h generalizing id with
  | here n => exact ⟨id, rfl, hshow⟩
  | @shared n c d more rest among nonempty onward ih =>
      obtain ⟨e, here, _⟩ := hshow.exists_cell
      obtain ⟨before, after, hliterals⟩ := List.append_of_mem among
      obtain ⟨_, k, _, _, _, hk, _, found⟩ := hshow.opening? hn here hliterals
      obtain ⟨j, hfollow, hj⟩ := ih (hn.branch (.literal among)) hk
      exact ⟨j, by rw [follow_of_shared template here hk nonempty found, hfollow], hj⟩
  | @placed n c d s rest place same onward ih =>
      obtain ⟨e, here, _⟩ := hshow.exists_cell
      obtain ⟨k, hplace, hk⟩ := hshow.exists_place here place
      obtain ⟨j, hfollow, hj⟩ := ih (hn.branch (Node.branch_of_place place same)) hk
      exact ⟨j, by rw [follow_of_placed template here hplace hk same, hfollow], hj⟩

end Arena

end RouteTree
