/-
**The shape of an arena.**

Whatever calls have been made, and whichever of them failed, the cells that they leave are at the
breaks of the admitted templates, one at each.  The parent of a cell, its text and its kind follow
from its path.  So the admitted templates decide on the shape, and the order in which they came is
seen in the places of the cells only.

A break is where a template ends, where a placeholder begins or ends, or where two templates part.
So a literal cell that leads to one other literal cell only is the end of a template, and then it
has routes, unless the template was admitted for no method at all.

Main definitions:

* `Template.IsStem` — the longest break that a path goes on behind;
* `Arena.Canonical` — **an arena whose cells are decided by some templates**;
* `Arena.HasCell` — a cell as it is wherever it may stand;
* `Arena.Compact` — no literal cell could be joined with its child.

Main results:

* `Arena.Canonical.hasCell_iff` — the shape of a canonical arena, in terms of the templates;
* `Tree.compact_of_routed` — a literal node without routes has a placeholder below it, or two
  literal children;
* `Store.exists_run_canonical` — **every history leaves a canonical arena**, and a compact one if no
  template was admitted without a method.
-/
import RouteTree.Proofs.ArenaOrder
import RouteTree.Proofs.Breaks

set_option autoImplicit false
set_option relaxedAutoImplicit false

namespace RouteTree

variable {H : Type}

/-! ### Kinds and stems -/

/-- The kind that the first character of a text decides on. -/
def Segment.Kind.opened (t : Text) : Segment.Kind :=
  if t.head? = some ':' then .param else if t.head? = some '*' then .wildcard else .literal

/-- What a segment begins with decides on its kind. -/
theorem Segment.Proper.kind_eq {s : Segment} (h : s.Proper) : s.kind = .opened s.text := by
  have hrank := h.rank_eq
  unfold Segment.Kind.opened
  cases s with
  | literal run =>
      by_cases hcolon : run.head? = some ':'
      · simp [Segment.rank, Segment.text, hcolon] at hrank
      · by_cases hstar : run.head? = some '*'
        · simp [Segment.rank, Segment.text, hstar] at hrank
        · simp [Segment.kind, Segment.text, hcolon, hstar]
  | param t => cases h; rfl
  | wildcard t => cases h; rfl

/-- Of two segments that are not one literal run cut in two, one takes a value. -/
theorem Segment.Parts.isPlaceholder {s s' : Segment} (h : s.Parts s') :
    s.IsPlaceholder ∨ s'.IsPlaceholder := by
  cases s with
  | literal run =>
      cases s' with
      | literal run' => exact h.elim
      | param t => exact Or.inr rfl
      | wildcard t => exact Or.inr rfl
  | param t => exact Or.inl rfl
  | wildcard t => exact Or.inl rfl

namespace Template

/-- **The stem of a path**: the longest of the breaks that it goes on behind, or nothing if there is
none. -/
structure IsStem (templates : Text → Prop) (p stem : Text) : Prop where
  isBreak : stem = [] ∨ IsBreak templates stem
  behind : stem <+: p ∧ stem ≠ p
  longest : ∀ q, IsBreak templates q → q <+: p → q ≠ p → q.length ≤ stem.length

/-- A path has one stem. -/
theorem IsStem.unique {templates : Text → Prop} {p stem stem' : Text}
    (h : IsStem templates p stem) (h' : IsStem templates p stem') : stem = stem' := by
  have hle : ∀ {stem stem'}, IsStem templates p stem → IsStem templates p stem' →
      stem.length ≤ stem'.length := by
    intro stem stem' h h'
    rcases h.isBreak with rfl | hbreak
    · simp
    · exact h'.longest stem hbreak h.behind.1 h.behind.2
  have hprefix := List.prefix_of_prefix_length_le h.behind.1 h'.behind.1 (hle h h')
  exact hprefix.eq_of_length_le (hle h' h)

end Template

namespace Arena

/-! ### Canonical arenas -/

/-- **An arena whose cells are decided by some templates.** -/
structure Canonical (a : Arena H) (templates : Text → Prop) : Prop where
  /-- The root is at place `0` and has the empty path. -/
  root : ∃ r, a[0]? = some r ∧ r.kind = .literal ∧ r.text = [] ∧ r.path = [] ∧ r.parent = none
  /-- The other cells are at the breaks of the templates. -/
  paths : ∀ p, (∃ (j : Nat) (d : Cell H), j ≠ 0 ∧ a[j]? = some d ∧ d.path = p) ↔
    Template.IsBreak templates p
  /-- At each break there is one cell. -/
  once : ∀ (i j : Nat) (c d : Cell H), a[i]? = some c → a[j]? = some d → c.path = d.path → i = j
  /-- A cell is a child of the cell at the stem of its path, which is the root if there is no other,
  and its text is what it adds to that. -/
  parent : ∀ (j : Nat) (d : Cell H), j ≠ 0 → a[j]? = some d → ∃ (i : Nat) (c : Cell H),
    a[i]? = some c ∧ d.parent = some i ∧ j ∈ c.children ∧ d.path = c.path ++ d.text ∧
      Template.IsStem templates d.path c.path
  /-- The kind of a cell is decided by the first character of its text. -/
  kind : ∀ (j : Nat) (d : Cell H), j ≠ 0 → a[j]? = some d → d.kind = .opened d.text

/-- **An arena has a cell**, in whatever place, with a path, a text and a kind, below a cell with
some path. -/
def HasCell (a : Arena H) (path text : Text) (kind : Segment.Kind) (above : Option Text) : Prop :=
  ∃ (j : Nat) (d : Cell H), a[j]? = some d ∧ d.path = path ∧ d.text = text ∧ d.kind = kind ∧
    (d.parent.bind fun i => a[i]?.map Cell.path) = above

/-- **No literal cell could be joined with its child**: each but the root has routes, or a
placeholder below it, or two literal children. -/
def Compact (a : Arena H) : Prop :=
  ∀ (j : Nat) (d : Cell H), j ≠ 0 → a[j]? = some d → d.kind = .literal →
    (d.routes = fun _ => none) →
      d.param ≠ none ∨ d.wildcard ≠ none ∨ 2 ≤ d.literals.length

/-- **The shape of a canonical arena**, in terms of the templates. -/
theorem Canonical.hasCell_iff {a : Arena H} {templates : Text → Prop} (h : a.Canonical templates)
    {path text : Text} {kind : Segment.Kind} {above : Option Text} :
    a.HasCell path text kind above ↔
      (path = [] ∧ text = [] ∧ kind = .literal ∧ above = none) ∨
        Template.IsBreak templates path ∧ kind = .opened text ∧
          ∃ stem, Template.IsStem templates path stem ∧ path = stem ++ text ∧
            above = some stem := by
  obtain ⟨r, hr, rkind, rtext, rpath, rparent⟩ := h.root
  constructor
  · rintro ⟨j, d, hj, rfl, rfl, rfl, rfl⟩
    by_cases hzero : j = 0
    · subst hzero
      obtain rfl := Option.some.inj (hr.symm.trans hj)
      exact Or.inl ⟨rpath, rtext, rkind, by simp [rparent]⟩
    · obtain ⟨i, c, hi, hparent, _, hpath, hstem⟩ := h.parent j d hzero hj
      refine Or.inr ⟨(h.paths _).1 ⟨j, d, hzero, hj, rfl⟩, h.kind j d hzero hj, c.path, hstem,
        hpath, ?_⟩
      simp [hparent, hi]
  · rintro (⟨rfl, rfl, rfl, rfl⟩ | ⟨hbreak, rfl, stem, hstem, hpath, rfl⟩)
    · exact ⟨0, r, hr, rpath, rtext, rkind, by simp [rparent]⟩
    · obtain ⟨j, d, hzero, hj, rfl⟩ := (h.paths _).2 hbreak
      obtain ⟨i, c, hi, hparent, _, hpath', hstem'⟩ := h.parent j d hzero hj
      obtain rfl := hstem.unique hstem'
      obtain rfl : d.text = text := List.append_cancel_left (hpath'.symm.trans hpath)
      exact ⟨j, d, hj, rfl, rfl, h.kind j d hzero hj, by simp [hparent, hi]⟩

end Arena

namespace Tree

variable {calls : List (Call H)}

/-! ### Stems in a tree -/

/-- The root is at no break. -/
theorem ne_nil_of_isBreak {p : Text} (h : Template.IsBreak (Admitted calls) p) : p ≠ [] := by
  rintro rfl
  rcases h with ⟨template, segs, _, hcut, before, after, rfl, hne, hspelled⟩ |
    ⟨template, template', hold, hold', _, hpart⟩
  · obtain ⟨s, before, rfl⟩ := List.exists_cons_of_ne_nil hne
    have proper := (Template.linked_cons.1 (Template.linked_of_segments hcut)).1
    exact proper.ne_nil (List.append_eq_nil_iff.1 hspelled).1
  · -- all templates have the slash at their beginnings in common
    have hslash : ∀ {template}, Admitted calls template → ['/'] <+: template := by
      intro template hold
      obtain ⟨rest, rfl⟩ := List.head?_eq_some_iff.1 (exists_segments_of_admitted hold).1
      exact List.prefix_append ['/'] rest
    simpa using (hpart.longest _ (hslash hold) (hslash hold')).length_le

/-- **The path of a parent is the stem of the path of its child.** -/
theorem isStem_of_branch {segs : List Segment} {c d : Node H} {s : Segment}
    (hreach : (empty.run calls).root.Reach segs c) (last : c.Branch s d) :
    Template.IsStem (Admitted calls) d.path c.path := by
  have ht := run_sound calls
  have hd := hreach.concat last
  have hcd : Template.spelled (segs ++ [s]) = Template.spelled segs ++ s.text := by
    simp [Template.spelled]
  rw [(ht.path_of_reach hd).1, (ht.path_of_reach hreach).1, hcd]
  refine ⟨hasPath_run_iff.1 ⟨segs, c, hreach, rfl⟩, ⟨List.prefix_append _ _, ?_⟩, ?_⟩
  · have hs := ((ht.valid _ _ hreach).proper last).ne_nil
    simpa using hs
  · rintro q hbreak ⟨more, hmore⟩ hne
    obtain ⟨segs', e, hreach', rfl⟩ := hasPath_run_iff.2 (Or.inr hbreak)
    obtain ⟨rest, hsegs, _, hrest⟩ :=
      Node.reach_of_spelled_append ht.valid hreach' hd (hcd.trans hmore.symm)
    -- the way to the break ends before the last step
    rcases List.eq_nil_or_concat rest with rfl | ⟨rest, s', rfl⟩
    · rw [← hmore, ← hrest] at hne
      simp at hne
    · rw [List.concat_eq_append, ← List.append_assoc] at hsegs
      obtain ⟨rfl, _⟩ := List.append_inj' hsegs rfl
      simp [Template.spelled]

/-! ### Nodes without routes -/

/-- What a tree holds behind the path of a node is held below the node. -/
theorem Sound.holds_of_reach {t : Tree H} (ht : t.Sound) {segs : List Segment} {d : Node H}
    (hreach : t.root.Reach segs d) {v : Verb} {r : Route H} (h : t.root.Holds v r)
    (behind : d.path <+: r.template) : d.Holds v r := by
  obtain ⟨segs', e, hreach', he⟩ := h
  obtain ⟨more, hmore⟩ := behind
  rw [(ht.path_of_reach hreach).1, (ht.template_of_reach hreach' he).1] at hmore
  obtain ⟨rest, _, hbelow, _⟩ :=
    Node.reach_of_spelled_append ht.valid hreach hreach' hmore.symm
  exact ⟨rest, e, hbelow, he⟩

/-- A node below which two routes go on with different characters has a placeholder below it, or two
literal children. -/
theorem children_of_holds {d : Node H} (hd : d.Valid) {v v' : Verb} {r r' : Route H}
    {more more' : Text} (h : d.Holds v r) (h' : d.Holds v' r')
    (template : r.template = d.path ++ more) (template' : r'.template = d.path ++ more')
    (hne : more ≠ []) (hne' : more' ≠ []) (parts : more.head? ≠ more'.head?) :
    d.param ≠ none ∨ d.wildcard ≠ none ∨ 2 ≤ d.literals.length := by
  obtain ⟨s, c, first, _, head⟩ := Node.exists_branch_of_holds hd h template hne
  obtain ⟨s', c', first', _, head'⟩ := Node.exists_branch_of_holds hd h' template' hne'
  rw [← head, ← head'] at parts
  cases first with
  | param hc => exact Or.inl (by simp [hc])
  | wildcard hc => exact Or.inr (Or.inl (by simp [hc]))
  | literal hc =>
      cases first' with
      | param hc' => exact Or.inl (by simp [hc'])
      | wildcard hc' => exact Or.inr (Or.inl (by simp [hc']))
      | literal hc' =>
          refine Or.inr (Or.inr ?_)
          match hl : d.literals with
          | [] => simp [hl] at hc
          | [e] =>
              rw [hl, List.mem_singleton] at hc hc'
              subst hc hc'
              exact absurd rfl parts
          | _ :: _ :: _ => simp

/-- Where a segment of a template ends and another one begins, a literal node has a placeholder
below it. -/
theorem placeholder_of_cut {segs before after : List Segment} {run template : Text} {d : Node H}
    (hreach : (empty.run calls).root.Reach (segs ++ [.literal run]) d)
    (hold : Admitted calls template) (hcut : Template.segments template = .ok (before ++ after))
    (hbefore : before ≠ []) (hafter : after ≠ []) (ends : Template.spelled before = d.path) :
    d.param ≠ none ∨ d.wildcard ≠ none := by
  have ht := run_sound calls
  rw [(ht.path_of_reach hreach).1] at ends
  obtain ⟨before, s, rfl⟩ := (List.eq_nil_or_concat before).resolve_left hbefore
  obtain ⟨s', after, rfl⟩ := List.exists_cons_of_ne_nil hafter
  rw [List.concat_eq_append] at hcut ends
  -- a placeholder of a template stands below the node that ends where it begins
  have hbranch : ∀ {before after s}, Template.segments template = .ok (before ++ s :: after) →
      s.IsPlaceholder → ∃ segs e c, (empty.run calls).root.Reach segs e ∧
        Template.spelled segs = Template.spelled before ∧ e.Branch s c := by
    intro before after s hcut hs
    exact (hasBranch_run_iff hs).2 ⟨template, hold, hs, _, hcut, before, after, rfl, rfl⟩
  have hparts : s.Parts s' := List.isChain_iff_forall_rel_of_append_cons_cons.1
    (Template.parted_of_segments hcut) (List.append_assoc before [s] (s' :: after))
  rcases hparts.isPlaceholder with hs | hs'
  · -- then the node would not be a literal one
    rw [List.append_assoc] at hcut
    obtain ⟨segs', e, c, hreach', hspelled, last⟩ := hbranch hcut hs
    have hsame : Template.spelled (segs' ++ [s]) = Template.spelled (segs ++ [.literal run]) := by
      rw [← ends]
      simpa [Template.spelled] using hspelled
    obtain ⟨hsegs, _⟩ := Node.reach_unique ht.valid (hreach'.concat last) hreach hsame
    obtain ⟨_, hlast⟩ := List.append_inj' hsegs rfl
    exact absurd (List.singleton_inj.1 hlast) (hs.ne_literal run)
  · obtain ⟨segs', e, c, hreach', hspelled, last⟩ := hbranch hcut hs'
    obtain ⟨_, rfl⟩ := Node.reach_unique ht.valid hreach' hreach (hspelled.trans ends)
    cases last with
    | literal _ => cases hs'
    | param hc => exact Or.inl (by simp [hc])
    | wildcard hc => exact Or.inr (by simp [hc])

/-- **A literal node without routes has a placeholder below it, or two literal children**, if each
admitted template is registered for some verb. -/
theorem compact_of_routed
    (routed : ∀ template, Admitted calls template →
      ∃ v r, (empty.run calls).root.Holds v r ∧ r.template = template)
    {segs : List Segment} {run : Text} {d : Node H}
    (hreach : (empty.run calls).root.Reach (segs ++ [.literal run]) d)
    (bare : d.routes = fun _ => none) :
    d.param ≠ none ∨ d.wildcard ≠ none ∨ 2 ≤ d.literals.length := by
  have ht := run_sound calls
  have hd : d.Valid := fun more e hmore => ht.valid _ e (hreach.append hmore)
  have hpath := (ht.path_of_reach hreach).1
  have hrun : run ≠ [] :=
    ((Node.linked_of_reach ht.valid hreach).1 (.literal run) (by simp)).ne_nil
  have hne : d.path ≠ [] := by simp [hpath, Template.spelled, Segment.text, hrun]
  -- the routes of a template are at the node of its path
  have hnot : ∀ template, Admitted calls template → template ≠ d.path := by
    rintro _ hold rfl
    obtain ⟨v, r, ⟨segs', e, hreach', he⟩, htemplate⟩ := routed _ hold
    have hown := ((ht.valid _ _ hreach').own he).1
    obtain ⟨_, rfl⟩ := Node.eq_of_path_eq ht.valid hreach' hreach (hown.symm.trans htemplate)
    rw [bare] at he
    cases he
  have hhas : (empty.run calls).root.HasPath d.path := ⟨_, d, hreach, hpath.symm⟩
  rw [hasPath_run_iff, or_iff_right hne] at hhas
  rcases hhas with ⟨template, _, hold, hcut, before, after, rfl, hbefore, ends⟩ |
    ⟨template, template', hold, hold', _, hpart⟩
  · have hafter : after ≠ [] := by
      rintro rfl
      rw [List.append_nil] at hcut
      exact hnot _ hold ((Template.spelled_of_segments hcut).symm.trans ends)
    exact (placeholder_of_cut hreach hold hcut hbefore hafter ends).imp_right Or.inl
  · -- where two templates part, both go on, and with different characters
    obtain ⟨more, rfl⟩ := hpart.left
    obtain ⟨more', rfl⟩ := hpart.right
    obtain ⟨v, r, hr, htemplate⟩ := routed _ hold
    obtain ⟨v', r', hr', htemplate'⟩ := routed _ hold'
    have hmore : more ≠ [] := by
      rintro rfl
      exact hnot _ hold (List.append_nil _)
    have hmore' : more' ≠ [] := by
      rintro rfl
      exact hnot _ hold' (List.append_nil _)
    have hparts : more.head? ≠ more'.head? := by
      have hshared := Text.partAfter_iff.1 hpart
      rw [Text.shared_append] at hshared
      exact Text.head?_ne_of_shared_nil (List.self_eq_append_right.1 hshared.symm) hmore
    exact children_of_holds hd (ht.holds_of_reach hreach hr ⟨more, htemplate.symm⟩)
      (ht.holds_of_reach hreach hr' ⟨more', htemplate'.symm⟩) htemplate htemplate' hmore hmore'
      hparts

end Tree

/-- **A template has been admitted without a method**: a call for it with an empty list has
succeeded. -/
def AdmittedBare (calls : List (Call H)) : Prop :=
  ∃ before template handler after, calls = before ++ .add template handler [] :: after ∧
    ((Tree.empty.run before).serve (.add template handler [])).outcome = .ok ()

/-- If no template has been admitted without a method, each is registered for some verb. -/
theorem exists_holds_of_admitted {calls : List (Call H)} (hbare : ¬ AdmittedBare calls)
    {template : Text} (h : Admitted calls template) :
    ∃ v r, (Tree.empty.run calls).root.Holds v r ∧ r.template = template := by
  obtain ⟨_, segs, hcut⟩ := Tree.exists_segments_of_admitted h
  obtain ⟨before, call, after, rfl, htemplate, hok⟩ := h
  obtain ⟨m, handler, hasks⟩ : ∃ m handler, call.Asks m template handler := by
    cases call with
    | add template' handler methods =>
        obtain rfl := Option.some.inj htemplate
        cases methods with
        | nil => exact absurd ⟨before, _, handler, after, rfl, hok⟩ hbare
        | cons m methods => exact ⟨m, handler, rfl, rfl, List.mem_cons_self⟩
    | addAny template' handler =>
        obtain rfl := Option.some.inj htemplate
        exact ⟨Verb.get.method, handler, rfl, rfl, List.mem_map_of_mem (Verb.mem_all .get)⟩
    | sealing => cases htemplate
  have hreg : Registered (before ++ call :: after) m template handler :=
    ⟨before, call, after, rfl, hasks, hok⟩
  obtain ⟨v, rfl⟩ := Tree.exists_verb_of_registered hreg
  exact ⟨v, ⟨template, Template.paramNames segs, handler⟩,
    Tree.holds_run_iff.2 ⟨hreg, segs, hcut, rfl⟩, rfl⟩

/-! ### Stores -/

namespace Store

variable {s : Store H} {calls : List (Call H)}

/-- The paths of the cells are those in the tree. -/
theorem Stands.exists_cell_iff {t : Tree H} (hs : s.Stands t) (ht : t.Sound) {p : Text} :
    (∃ (j : Nat) (d : Cell H), s.cells[j]? = some d ∧ d.path = p) ↔ t.root.HasPath p := by
  constructor
  · rintro ⟨j, d, hj, rfl⟩
    obtain ⟨cells, e, _, hreach, hshow⟩ := Arena.exists_shown hs.wired hs.root hj
    exact ⟨_, e, hreach, by rw [(hshow.children hj).1.path, (ht.path_of_reach hreach).1]⟩
  · rintro ⟨segs, e, hreach, rfl⟩
    obtain ⟨j, hshow⟩ := hs.root.exists_shown_of_reach hreach
    obtain ⟨d, hj, fits⟩ := hshow.exists_cell
    exact ⟨j, d, hj, fits.path.trans (ht.path_of_reach hreach).1⟩

/-- The root alone has the empty path. -/
theorem Stands.path_eq_nil_iff {t : Tree H} (hs : s.Stands t) (ht : t.Sound) {j : Nat} {d : Cell H}
    (hj : s.cells[j]? = some d) : d.path = [] ↔ j = 0 := by
  obtain ⟨r, hr, _, _, rpath, _⟩ := hs.wired.root
  constructor
  · intro hpath
    exact Arena.eq_of_path_eq hs.wired hs.root ht.valid hj hr (hpath.trans rpath.symm)
  · rintro rfl
    obtain rfl := Option.some.inj (hr.symm.trans hj)
    exact rpath

/-- **A store for the tree that a history leaves has a canonical arena.** -/
theorem Stands.canonical (hs : s.Stands (Tree.empty.run calls)) :
    s.cells.Canonical (Admitted calls) where
  root := hs.wired.root
  paths := by
    intro p
    have ht := Tree.run_sound calls
    constructor
    · rintro ⟨j, d, hne, hj, rfl⟩
      have hbreak := Tree.hasPath_run_iff.1 ((hs.exists_cell_iff ht).1 ⟨j, d, hj, rfl⟩)
      exact hbreak.resolve_left (mt (hs.path_eq_nil_iff ht hj).1 hne)
    · intro hbreak
      obtain ⟨j, d, hj, rfl⟩ :=
        (hs.exists_cell_iff ht).2 (Tree.hasPath_run_iff.2 (Or.inr hbreak))
      exact ⟨j, d, mt (hs.path_eq_nil_iff ht hj).2 (Tree.ne_nil_of_isBreak hbreak), hj, rfl⟩
  once _ _ _ _ hi hj := Arena.eq_of_path_eq hs.wired hs.root (Tree.run_sound calls).valid hi hj
  parent := by
    intro j d hne hj
    obtain ⟨i, c, k, hi, hlink⟩ := hs.wired.listed hj hne
    have hangs := hs.wired.eq_of_links hi hlink hj
    have hlisted := Cell.mem_children_iff.2 ⟨k, hlink⟩
    obtain ⟨cells, e, _, hreach, hshow⟩ := Arena.exists_shown hs.wired hs.root hi
    obtain ⟨e', last, hshow'⟩ := hshow.exists_branch_segment hs.wired hi hlisted hj
    have hstem := Tree.isStem_of_branch hreach last
    rw [← (hshow.children hi).1.path, ← (hshow'.children hj).1.path] at hstem
    exact ⟨i, c, hi, hangs.parent, hlisted, hangs.path, hstem⟩
  kind := by
    intro j d hne hj
    have hvalid := (Tree.run_sound calls).valid
    have hkind := (Arena.proper_of_kind hs.wired hs.root hvalid hj hne rfl).kind_eq
    rwa [Segment.Kind.segment_kind, Segment.Kind.segment_text] at hkind

/-- **A store is compact** if each template has been admitted with a method. -/
theorem Stands.compact (hs : s.Stands (Tree.empty.run calls)) (hbare : ¬ AdmittedBare calls) :
    s.cells.Compact := by
  intro j d hne hj hkind hroutes
  obtain ⟨cells, trail⟩ := hs.wired.exists_trail hj
  cases trail with
  | root => exact absurd rfl hne
  | @step cells i _ c _ up above listed here =>
      obtain rfl := Option.some.inj (here.symm.trans hj)
      obtain ⟨e, hreach, hshow⟩ :=
        (Arena.Trail.step up above listed hj).exists_reach hs.wired hs.root
      obtain ⟨fits, hliterals, hparam, hwildcard⟩ := hshow.children hj
      rw [List.map_append, List.map_singleton, Cell.segment, hkind] at hreach
      rw [hliterals.length_eq]
      -- a child of the node is one of the cell
      have hsome : ∀ {x : Option Nat} {y : Option (Node H)}, Option.Rel s.cells.Shows x y →
          y ≠ none → x ≠ none := by
        intro x y hrel hy
        obtain ⟨b, hb⟩ := Option.ne_none_iff_exists'.1 hy
        obtain ⟨i, hi, _⟩ := Arena.exists_of_rel_right hrel hb
        simp [hi]
      exact (Tree.compact_of_routed (fun _ => exists_holds_of_admitted hbare) hreach
        (fits.routes ▸ hroutes)).imp (hsome hparam) (Or.imp_left (hsome hwildcard))

/-- **Every history of calls leaves a canonical arena.**  Its cells are decided by the admitted
templates, so it has the same shape as the arena of every other history that admits the same ones.
If each of them has been admitted with a method, the arena is compact. -/
theorem exists_run_canonical (calls : List (Call H)) :
    ∃ s, empty.run calls = some s ∧ s.Stands (Tree.empty.run calls) ∧
      s.cells.Canonical (Admitted calls) ∧
        (∀ (others : List (Call H)) (s' : Store H), empty.run others = some s' →
          (∀ template, Admitted others template ↔ Admitted calls template) →
            ∀ path text kind above,
              s'.cells.HasCell path text kind above ↔ s.cells.HasCell path text kind above) ∧
          (¬ AdmittedBare calls → s.cells.Compact) := by
  obtain ⟨s, hrun, hs⟩ := exists_run calls
  refine ⟨s, hrun, hs, hs.canonical, fun others s' hrun' same path text kind above => ?_,
    hs.compact⟩
  obtain ⟨s'', hrun'', hs'⟩ := exists_run others
  obtain rfl := Option.some.inj (hrun'.symm.trans hrun'')
  have htemplates : Admitted others = Admitted calls := funext fun template =>
    propext (same template)
  rw [hs'.canonical.hasCell_iff, hs.canonical.hasCell_iff, htemplates]

/-- The end of a template that was admitted without a method keeps its cell, though it has neither
routes nor a second child. -/
example : ((empty.run [.add "/user".toList 0 [], .add "/users".toList 1 [Verb.get.method]]).map
      fun s => s.cells.map fun c => (String.ofList c.path, c.literals)) =
    some [("", [1]), ("/user", [2]), ("/users", [])] := by
  decide +kernel

end Store

end RouteTree
