/-
**Siblings stay in the order in which they came.**

The literal children of a node queue up behind the older ones.  Bringing a template into a tree
changes nothing about the order of those that are there: a child that is split is replaced in its
place by its head, which begins with the same character, and what was below it is found again below
the tail.  So two literal children that follow each other after a way either followed each other
before it, or the second one is new, and no path of the tree went on with its first character.

Main definitions:

* `Node.heads` — the first characters of the literal children, oldest first;
* `Node.HasSiblings` — **somewhere below a node, two literal children follow each other**;
* `Node.HasBeginning` — a path below a node begins with a text;
* `Node.Joins` — a text goes on with one character below a node, and not with another one.

Main results:

* `Node.hasBeginning_branch_iff`, `Node.hasBeginning_split_iff` — beginnings that go along with a
  child, or leave it half way;
* `Node.Brought.hasSiblings` — **a way makes no siblings but behind those that are there**.
-/
import RouteTree.Proofs.Breaks

set_option autoImplicit false
set_option relaxedAutoImplicit false

namespace RouteTree

variable {H α : Type}

namespace Node

/-! ### Literal children in order -/

/-- The first characters of the literal children, oldest first. -/
def heads (n : Node H) : List (Option Char) := n.literals.map fun c => c.text.head?

/-- **At or below a node, behind some text, a literal child that begins with `x` comes in front of
one that begins with `y`.** -/
def HasSiblings (n : Node H) (start : Text) (x y : Char) : Prop :=
  ∃ segs d, n.Reach segs d ∧ Template.spelled segs = start ∧ [some x, some y].Sublist d.heads

/-- Siblings are children of the node itself, or below one of its children. -/
theorem hasSiblings_iff {n : Node H} {start : Text} {x y : Char} : n.HasSiblings start x y ↔
    (start = [] ∧ [some x, some y].Sublist n.heads) ∨
      ∃ s c rest, n.Branch s c ∧ start = s.text ++ rest ∧ c.HasSiblings rest x y := by
  constructor
  · rintro ⟨segs, d, hreach, rfl, hheads⟩
    cases hreach with
    | here => exact Or.inl ⟨rfl, hheads⟩
    | step first rest => exact Or.inr ⟨_, _, _, first, by simp, _, d, rest, rfl, hheads⟩
  · rintro (⟨rfl, hheads⟩ | ⟨s, c, _, first, rfl, segs, d, rest, rfl, hheads⟩)
    · exact ⟨[], n, .here n, rfl, hheads⟩
    · exact ⟨s :: segs, d, .step first rest, by simp, hheads⟩

theorem HasSiblings.below {n c : Node H} {s : Segment} {rest : Text} {x y : Char}
    (first : n.Branch s c) (h : c.HasSiblings rest x y) : n.HasSiblings (s.text ++ rest) x y :=
  hasSiblings_iff.2 (Or.inr ⟨s, c, rest, first, rfl, h⟩)

theorem hasSiblings_congr {n m : Node H} (heads : m.heads = n.heads)
    (same : ∀ s c, m.Branch s c ↔ n.Branch s c) {start : Text} {x y : Char} :
    m.HasSiblings start x y ↔ n.HasSiblings start x y := by
  rw [hasSiblings_iff, hasSiblings_iff (n := n), heads]
  simp only [same]

theorem not_hasSiblings_bare {text path start : Text} {params : List Text} {x y : Char} :
    ¬ (bare text path params : Node H).HasSiblings start x y := by
  rw [hasSiblings_iff]
  rintro (⟨_, hheads⟩ | ⟨_, _, _, first, _⟩)
  · cases hheads
  · exact not_branch_bare first

/-- Below the head of a split there are the siblings of the node, behind the tail. -/
theorem HasSiblings.of_split {c : Node H} {keep tail start : Text} {x y : Char}
    (text : c.text = keep ++ tail) (h : (c.split keep.length).HasSiblings start x y) :
    ∃ rest, start = tail ++ rest ∧ c.HasSiblings rest x y := by
  rcases hasSiblings_iff.1 h with ⟨_, hheads⟩ | ⟨s, d, rest, first, rfl, hrest⟩
  · -- the head has one child
    have hlength := hheads.length_le
    simp [heads, split] at hlength
  · rcases (branch_split text s d).1 first with first | ⟨rfl, rfl⟩
    · exact (not_branch_bare first).elim
    · exact ⟨rest, rfl, (hasSiblings_congr (by rfl) branch_text).1 hrest⟩

/-! ### Beginnings of paths -/

/-- A path below a node begins with a text. -/
def HasBeginning (n : Node H) (p : Text) : Prop := ∃ q, n.HasPath q ∧ p <+: q

theorem not_hasBeginning_bare {text path p : Text} {params : List Text} (hp : p ≠ []) :
    ¬ (bare text path params : Node H).HasBeginning p := by
  rintro ⟨q, hq, hbegins⟩
  obtain rfl := hasPath_bare_iff.1 hq
  exact hp (List.prefix_nil.1 hbegins)

/-- The first character of a text decides below which child paths can begin with it. -/
theorem hasBeginning_iff_of_head {n c : Node H} (hn : n.Valid) {s : Segment}
    (first : n.Branch s c) {p : Text} (hp : p ≠ []) (head : s.text.head? = p.head?) :
    n.HasBeginning p ↔ ∃ more, c.HasPath more ∧ p <+: s.text ++ more := by
  constructor
  · rintro ⟨q, hq, t, ht⟩
    rcases hasPath_iff.1 hq with rfl | ⟨s', c', more, first', rfl, hmore⟩
    · exact absurd (List.append_eq_nil_iff.1 ht).1 hp
    · have head' : s.text.head? = s'.text.head? := by
        have h := congrArg List.head? ht
        rw [List.head?_append_of_ne_nil _ hp,
          List.head?_append_of_ne_nil _ (hn.regular.proper first').ne_nil] at h
        exact head.trans h
      obtain ⟨rfl, rfl⟩ := hn.regular.branch_unique first first' head'
      exact ⟨more, hmore, t, ht⟩
  · rintro ⟨more, hmore, hbegins⟩
    exact ⟨s.text ++ more, hasPath_iff.2 (Or.inr ⟨s, c, more, first, rfl, hmore⟩), hbegins⟩

/-- A text that goes along with a child goes on below the child. -/
theorem hasBeginning_branch_iff {n c : Node H} (hn : n.Valid) {s : Segment}
    (first : n.Branch s c) {p : Text} : n.HasBeginning (s.text ++ p) ↔ c.HasBeginning p := by
  have hne := (hn.regular.proper first).ne_nil
  rw [hasBeginning_iff_of_head hn first (by simp [hne])
    (List.head?_append_of_ne_nil _ hne).symm]
  simp only [List.prefix_append_right_inj]
  rfl

/-- A text that goes along with the first part of a child goes on below the head of its split. -/
theorem hasBeginning_split_iff {n c : Node H} (hn : n.Valid) (first : n.Branch (.literal c.text) c)
    {keep tail : Text} (text : c.text = keep ++ tail) (kept : keep ≠ []) {p : Text} :
    n.HasBeginning (keep ++ p) ↔ (c.split keep.length).HasBeginning p := by
  have head : (Segment.literal c.text).text.head? = (keep ++ p).head? := by
    rw [Segment.text, text, List.head?_append_of_ne_nil _ kept, List.head?_append_of_ne_nil _ kept]
  rw [hasBeginning_iff_of_head hn first (by simp [kept]) head]
  simp only [Segment.text, text, List.append_assoc, List.prefix_append_right_inj]
  constructor
  · rintro ⟨more, hmore, hbegins⟩
    exact ⟨tail ++ more, (hasPath_split text).2 (Or.inr ⟨more, rfl, hmore⟩), hbegins⟩
  · rintro ⟨q, hq, hbegins⟩
    rcases (hasPath_split text).1 hq with rfl | ⟨more, rfl, hmore⟩
    · obtain rfl := List.prefix_nil.1 hbegins
      exact ⟨[], c.hasPath_nil, List.nil_prefix⟩
    · exact ⟨more, hmore, hbegins⟩

/-- Below a node paths begin with the first characters of its literal children. -/
theorem hasBeginning_of_mem_heads {n : Node H} {x : Char} (h : some x ∈ n.heads) :
    n.HasBeginning [x] := by
  obtain ⟨c, hc, head⟩ := List.mem_map.1 h
  obtain ⟨t, ht⟩ := List.head?_eq_some_iff.1 head
  refine ⟨c.text, hasPath_iff.2 (Or.inr ⟨.literal c.text, c, [], .literal hc, ?_,
    c.hasPath_nil⟩), t, ht.symm⟩
  simp [Segment.text]

/-- What paths below a reached node begin with, paths go on with behind the way to it. -/
theorem HasBeginning.of_reach {n d : Node H} {segs : List Segment} {p : Text}
    (hreach : n.Reach segs d) (h : d.HasBeginning p) :
    n.HasBeginning (Template.spelled segs ++ p) := by
  obtain ⟨q, ⟨more, e, hmore, rfl⟩, hbegins⟩ := h
  refine ⟨Template.spelled (segs ++ more), ⟨_, e, hreach.append hmore, rfl⟩, ?_⟩
  rw [Template.spelled, Template.spelled, List.flatMap_append, List.prefix_append_right_inj]
  exact hbegins

/-- Paths go on with the second one of two siblings. -/
theorem HasSiblings.hasBeginning {n : Node H} {start : Text} {x y : Char}
    (h : n.HasSiblings start x y) : n.HasBeginning (start ++ [y]) := by
  obtain ⟨segs, d, hreach, rfl, hheads⟩ := h
  have hy : some y ∈ d.heads := hheads.subset (by simp)
  exact (hasBeginning_of_mem_heads hy).of_reach hreach

/-! ### Siblings that are new -/

/-- Below a node, a text goes on with `x`, and does not go on with `y`. -/
def Joins (n : Node H) (start : Text) (x y : Char) : Prop :=
  n.HasBeginning (start ++ [x]) ∧ ¬ n.HasBeginning (start ++ [y])

theorem joins_branch_iff {n c : Node H} (hn : n.Valid) {s : Segment} (first : n.Branch s c)
    {rest : Text} {x y : Char} : n.Joins (s.text ++ rest) x y ↔ c.Joins rest x y := by
  rw [Joins, Joins, List.append_assoc, List.append_assoc, hasBeginning_branch_iff hn first,
    hasBeginning_branch_iff hn first]

/-- Of two elements that follow each other, only the second one can be the last one. -/
theorem sublist_concat_cases {β : Type} {x y z : β} {l : List β}
    (h : [x, y].Sublist (l ++ [z])) : [x, y].Sublist l ∨ x ∈ l ∧ y = z := by
  -- from the back, the last element is the one in front
  have hreverse : [y, x].Sublist (z :: l.reverse) := by
    simpa using h.reverse
  cases hreverse with
  | cons _ hwithin =>
      refine Or.inl ?_
      simpa using hwithin.reverse
  | cons_cons _ hfront =>
      exact Or.inr ⟨List.mem_reverse.1 (List.singleton_sublist.1 hfront), rfl⟩

/-- A child that is new joins the literal children at their end, if it is one. -/
theorem siblings_attach {n c : Node H} {s : Segment} {x y : Char} (text : c.text = s.text)
    (h : [some x, some y].Sublist (n.attach s c).heads) :
    [some x, some y].Sublist n.heads ∨ some x ∈ n.heads ∧ s.text.head? = some y := by
  cases s with
  | literal run =>
      have heads_eq : (n.attach (.literal run) c).heads = n.heads ++ [c.text.head?] := by
        simp [heads, attach]
      rw [heads_eq] at h
      rcases sublist_concat_cases h with hold | ⟨hx, hy⟩
      · exact Or.inl hold
      · refine Or.inr ⟨hx, ?_⟩
        rw [hy, text]
  | param name => exact Or.inl h
  | wildcard name => exact Or.inl h

/-- A segment that nothing takes joins the literal children of a node. -/
theorem joins_of_free {n : Node H} (hn : n.Valid) {s : Segment} (free : n.Free s)
    (proper : s.Proper) {x y : Char} (hx : some x ∈ n.heads) (hy : s.text.head? = some y) :
    n.Joins [] x y := by
  refine ⟨hasBeginning_of_mem_heads hx, ?_⟩
  rintro ⟨q, hq, t, rfl⟩
  rcases hasPath_iff.1 hq with hnil | ⟨s', c, more, first, heq, _⟩
  · cases hnil
  · refine free.head?_ne hn proper first ?_
    have h := congrArg List.head? heq
    rw [List.head?_append_of_ne_nil _ (hn.regular.proper first).ne_nil] at h
    rw [hy, ← h]
    rfl

/-- Siblings after the change of one child, in its place. -/
theorem HasSiblings.of_exchange {n m c : Node H} {s : Segment} (heads : m.heads = n.heads)
    (branch : ∀ {s' d}, m.Branch s' d → n.Branch s' d ∨ s' = s ∧ d = c) {start : Text}
    {x y : Char} (h : m.HasSiblings start x y)
    (below : ∀ rest, c.HasSiblings rest x y →
      n.HasSiblings (s.text ++ rest) x y ∨ n.Joins (s.text ++ rest) x y) :
    n.HasSiblings start x y ∨ n.Joins start x y := by
  rcases hasSiblings_iff.1 h with ⟨rfl, hheads⟩ | ⟨s', d, rest, first, rfl, hrest⟩
  · rw [heads] at hheads
    exact Or.inl (hasSiblings_iff.2 (Or.inl ⟨rfl, hheads⟩))
  · rcases branch first with hold | ⟨rfl, rfl⟩
    · exact Or.inl (hrest.below hold)
    · exact below rest hrest

variable {visit : Node H → Node H × α}

/-- **A way makes no siblings but behind those that are there.**  Two literal children that follow
each other afterwards did so before, or the second one goes on with a character that no path went
on with. -/
theorem Brought.hasSiblings (keeps : KeepsShape visit) {n n' : Node H} {segs : List Segment}
    {a : α} {es : List Event} (h : Brought visit n segs n' a es) (hn : n.Valid)
    (hsegs : Template.Linked segs) {start : Text} {x y : Char}
    (hsiblings : n'.HasSiblings start x y) : n.HasSiblings start x y ∨ n.Joins start x y := by
  induction h generalizing start with
  | here n =>
      rw [keeps n] at hsiblings
      exact Or.inl ((hasSiblings_congr (by rfl) fun s d => branch_routes).1 hsiblings)
  | @fresh n c s rest a free onward ih =>
      have htext : c.text = s.text := (onward.frame keeps).1
      obtain ⟨proper, _, hrest⟩ := Template.linked_cons.1 hsegs
      rcases hasSiblings_iff.1 hsiblings with ⟨rfl, hheads⟩ | ⟨s', d, more, first, rfl, hmore⟩
      · rcases siblings_attach htext hheads with hold | ⟨hx, hy⟩
        · exact Or.inl (hasSiblings_iff.2 (Or.inl ⟨rfl, hold⟩))
        · exact Or.inr (joins_of_free hn free proper hx hy)
      · rcases branch_attach htext first with hold | ⟨rfl, rfl⟩
        · exact Or.inl (hmore.below hold)
        · -- below a fresh child there is nothing yet, so that no second child joins it
          rcases ih (valid_bare _ _ _) hrest hmore with hbare | hbare
          · exact (not_hasSiblings_bare hbare).elim
          · exact (not_hasBeginning_bare (by simp) hbare.1).elim
  | @shared n c c' before after more rest a es among nonempty onward ih =>
      have htext : c'.text = c.text := (onward.frame keeps).1
      have first : n.Branch (.literal c.text) c := .literal (by simp [among])
      refine hsiblings.of_exchange (by simp [heads, among, htext]) (branch_literals among) ?_
      intro below hbelow
      rw [htext]
      refine (ih (hn.branch first) hsegs.literalThen hbelow).imp (fun hold => ?_) fun hjoins => ?_
      · exact hold.below first
      · exact (joins_branch_iff hn first).2 hjoins
  | @split n c c' before after keep tail more rest a among text kept cut parts onward ih =>
      have htext : c'.text = keep := (onward.frame keeps).1.trans (split_text text)
      have first : n.Branch (.literal c.text) c := .literal (by simp [among])
      have hvalid := valid_split (hn.branch first) (hn.regular.proper first) text cut
        (hn.regular.path first)
      have hheads : heads { n with literals := before ++ c' :: after } = n.heads := by
        simp [heads, among, htext, text, List.head?_append_of_ne_nil _ kept]
      refine hsiblings.of_exchange hheads (branch_literals among) ?_
      intro below hbelow
      rw [htext]
      refine (ih hvalid hsegs.literalThen hbelow).imp (fun hold => ?_) fun hjoins => ?_
      · -- what was below the child is found again behind the tail
        obtain ⟨rest', rfl, hold'⟩ := hold.of_split text
        have hwhole := hold'.below first
        rwa [Segment.text, text, List.append_assoc] at hwhole
      · rw [Segment.text, Joins, List.append_assoc, List.append_assoc,
          hasBeginning_split_iff hn first text kept, hasBeginning_split_iff hn first text kept]
        exact hjoins
  | @placed n c c' s rest a es place same onward ih =>
      have htext : c'.text = s.text := (onward.frame keeps).1.trans same
      have first : n.Branch s c := branch_of_place place same
      have hheads : (n.attach s c').heads = n.heads := by
        cases s with
        | literal run => cases place
        | param name => rfl
        | wildcard name => rfl
      refine hsiblings.of_exchange hheads (branch_attach htext) ?_
      intro below hbelow
      have hrest := (Template.linked_cons.1 hsegs).2.2
      refine (ih (hn.branch first) hrest hbelow).imp (fun hold => ?_) fun hjoins => ?_
      · exact hold.below first
      · exact (joins_branch_iff hn first).2 hjoins

end Node

end RouteTree
