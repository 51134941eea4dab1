/-
**In which order the routes are listed.**

The walk through a tree lists the routes of a node in the order of their verbs, and before those of
its children; among the children the literal ones come first, then the parameter, then the
wildcard.  The literal children are in the order in which they came, and that is a matter of the
history: of the characters with which admitted templates went on behind one beginning, the one that
was brought first comes first.  So the history alone says which of two templates is listed first,
and where the nodes were split does not show.

Main definitions:

* `Template.ListedFirst` — **which of two templates is listed first**, if it is known which texts
  arrived earlier;
* `Arrived`, `FirstArrival`, `ArrivesBefore` — when a history first brings a template in that
  begins with a text;
* `Route.ListedFirst`, `Route.AllBefore` — the order of two routes, and of all those of two
  templates;
* `Node.Queued` — the literal children at and below a node are in the order of their arrival.

Main results:

* `Tree.arrivesBefore_of_hasSiblings` — **siblings have arrived in their order**;
* `Node.Valid.pairwise_listing` — the order of a listing, where siblings are in order;
* `Route.allBefore_iff` — what that order says about two templates;
* `Tree.walk_order` — **the order of the walk, after every history**.
-/
import RouteTree.Proofs.Siblings
import RouteTree.Proofs.Tally

set_option autoImplicit false
set_option relaxedAutoImplicit false

namespace RouteTree

variable {H : Type}

/-! ### Which of two templates is listed first -/

namespace Template

/-- Which of two different characters leads to the templates that are listed first, behind a common
beginning: one that is literal comes before a marker, the colon before the star, and of two that
are literal the one that has arrived earlier. -/
def CharFirst (earlier : Text → Text → Prop) (start : Text) (a b : Char) : Prop :=
  (isMarker a = false ∧ isMarker b = true) ∨ (a = ':' ∧ b = '*') ∨
    (isMarker a = false ∧ isMarker b = false ∧ earlier (start ++ [a]) (start ++ [b]))

/-- **Which of two different templates is listed first.**  Right after their longest common
beginning, the first one ends, or it goes on with the character that comes first there. -/
def ListedFirst (earlier : Text → Text → Prop) (first second : Text) : Prop :=
  match (Text.fork first second).left, (Text.fork first second).right with
  | [], _ => True
  | _ :: _, [] => False
  | a :: _, b :: _ => CharFirst earlier (Text.fork first second).shared a b

variable {earlier : Text → Text → Prop}

theorem listedFirst_append (start more : Text) : ListedFirst earlier start (start ++ more) := by
  have hfork := Text.fork_append start [] more (Or.inl rfl)
  rw [List.append_nil] at hfork
  simp [ListedFirst, hfork]

theorem not_listedFirst_append (start more : Text) (hmore : more ≠ []) :
    ¬ ListedFirst earlier (start ++ more) start := by
  obtain ⟨b, more, rfl⟩ := List.exists_cons_of_ne_nil hmore
  have hfork := Text.fork_append start (b :: more) [] (Or.inr (by simp))
  rw [List.append_nil] at hfork
  simp [ListedFirst, hfork]

/-- Where two templates go on differently, these characters decide. -/
theorem listedFirst_iff_of_ne {start s t : Text} {a b : Char} (hne : a ≠ b) :
    ListedFirst earlier (start ++ a :: s) (start ++ b :: t) ↔ CharFirst earlier start a b := by
  have hfork := Text.fork_append start (a :: s) (b :: t) (Or.inr (by simpa using hne))
  simp [ListedFirst, hfork]

/-- Two different templates part: one of them ends, or they go on differently. -/
theorem exists_part {first second : Text} (hne : first ≠ second) :
    ∃ start, (first = start ∧ ∃ more, more ≠ [] ∧ second = start ++ more) ∨
      (second = start ∧ ∃ more, more ≠ [] ∧ first = start ++ more) ∨
      ∃ a b s t, a ≠ b ∧ first = start ++ a :: s ∧ second = start ++ b :: t := by
  have hleft := Text.fork_left first second
  have hright := Text.fork_right first second
  have hparts := Text.fork_parts first second
  generalize Text.fork first second = f at hleft hright hparts
  obtain ⟨start, left, right⟩ := f
  refine ⟨start, ?_⟩
  dsimp only at hleft hright hparts
  cases left with
  | nil =>
      rw [List.append_nil] at hleft
      refine Or.inl ⟨hleft.symm, right, ?_, hright.symm⟩
      rintro rfl
      rw [List.append_nil] at hright
      exact hne (hleft.symm.trans hright)
  | cons a s =>
      cases right with
      | nil =>
          rw [List.append_nil] at hright
          exact Or.inr (Or.inl ⟨hright.symm, a :: s, by simp, hleft.symm⟩)
      | cons b t =>
          have hab : a ≠ b := by simpa using hparts
          exact Or.inr (Or.inr ⟨a, b, s, t, hab, hleft.symm, hright.symm⟩)

theorem CharFirst.asymm (hearlier : ∀ p q, earlier p q → ¬ earlier q p) {start : Text} {a b : Char}
    (h : CharFirst earlier start a b) : ¬ CharFirst earlier start b a := by
  rintro (⟨hb, ha⟩ | ⟨rfl, rfl⟩ | ⟨hb, ha, hback⟩)
  · rcases h with ⟨ha', _⟩ | ⟨rfl, rfl⟩ | ⟨ha', _⟩
    · simp [ha] at ha'
    · exact absurd hb (by decide)
    · simp [ha] at ha'
  · rcases h with ⟨ha', _⟩ | ⟨ha', _⟩ | ⟨ha', _⟩
    · exact absurd ha' (by decide)
    · exact absurd ha' (by decide)
    · exact absurd ha' (by decide)
  · rcases h with ⟨_, hb'⟩ | ⟨rfl, _⟩ | ⟨_, _, hforth⟩
    · simp [hb] at hb'
    · exact absurd ha (by decide)
    · exact hearlier _ _ hforth hback

/-- Of two different templates only one is listed first. -/
theorem ListedFirst.asymm (hearlier : ∀ p q, earlier p q → ¬ earlier q p) {first second : Text}
    (hne : first ≠ second) (h : ListedFirst earlier first second) :
    ¬ ListedFirst earlier second first := by
  obtain ⟨start, ⟨rfl, more, hmore, rfl⟩ | ⟨rfl, more, hmore, rfl⟩ |
    ⟨a, b, s, t, hab, rfl, rfl⟩⟩ := exists_part hne
  · exact not_listedFirst_append first more hmore
  · exact absurd h (not_listedFirst_append second more hmore)
  · rw [listedFirst_iff_of_ne hab] at h
    rw [listedFirst_iff_of_ne hab.symm]
    exact h.asymm hearlier

end Template

/-! ### Arrivals -/

/-- A history has brought a template in that begins with a text. -/
def Arrived (calls : List (Call H)) (p : Text) : Prop :=
  ∃ template, Admitted calls template ∧ p <+: template

/-- **The call behind `before` is the first one that brings a template in which begins with a
text**, be it with methods or without. -/
def FirstArrival (calls : List (Call H)) (p : Text) (before : List (Call H)) : Prop :=
  ∃ call after template, calls = before ++ call :: after ∧ call.template? = some template ∧
    p <+: template ∧ ((Tree.empty.run before).serve call).outcome = .ok () ∧ ¬ Arrived before p

/-- **Of two texts that templates begin with, one was brought in before the other one.** -/
def ArrivesBefore (calls : List (Call H)) (p q : Text) : Prop :=
  ∃ first second, FirstArrival calls p first ∧ FirstArrival calls q second ∧
    first.length < second.length

section Arrivals

variable {calls before after : List (Call H)} {p q : Text}

theorem arrived_concat {call : Call H} : Arrived (calls ++ [call]) p ↔ Arrived calls p ∨
    ∃ template, call.template? = some template ∧ p <+: template ∧
      ((Tree.empty.run calls).serve call).outcome = .ok () := by
  simp only [Arrived, admitted_concat, or_and_right, exists_or]
  refine or_congr_right (exists_congr fun template => ?_)
  rw [and_assoc, and_comm (a := p <+: template)]

theorem not_arrived_nil : ¬ Arrived ([] : List (Call H)) p := by
  rintro ⟨template, hadmitted, _⟩
  exact not_admitted_nil hadmitted

theorem Arrived.of_prefix (h : Arrived before p) (hbegins : before <+: calls) :
    Arrived calls p := by
  obtain ⟨template, ⟨start, call, rest, rfl, htemplate, hok⟩, hp⟩ := h
  obtain ⟨after, rfl⟩ := hbegins
  exact ⟨template, ⟨start, call, rest ++ after, by simp, htemplate, hok⟩, hp⟩

theorem FirstArrival.append (h : FirstArrival before p calls) (after : List (Call H)) :
    FirstArrival (before ++ after) p calls := by
  obtain ⟨call, rest, template, rfl, htemplate, hp, hok, hnew⟩ := h
  exact ⟨call, rest ++ after, template, by simp, htemplate, hp, hok, hnew⟩

/-- What has arrived has arrived for a first time. -/
theorem exists_firstArrival (h : Arrived calls p) : ∃ before, FirstArrival calls p before := by
  induction calls using List.reverseRecOn with
  | nil => exact absurd h not_arrived_nil
  | append_singleton calls call ih =>
      by_cases hold : Arrived calls p
      · obtain ⟨before, hfirst⟩ := ih hold
        exact ⟨before, hfirst.append [call]⟩
      · obtain ⟨template, htemplate, hp, hok⟩ := (arrived_concat.1 h).resolve_left hold
        exact ⟨calls, call, [], template, rfl, htemplate, hp, hok, hold⟩

/-- A text has arrived in the histories that are longer than what came before its arrival, and in
no others. -/
theorem FirstArrival.arrived_iff {first : List (Call H)} (h : FirstArrival calls p first)
    (hbefore : before <+: calls) : Arrived before p ↔ first.length < before.length := by
  obtain ⟨call, rest, template, rfl, htemplate, hp, hok, hnew⟩ := h
  have hfirst : first <+: first ++ call :: rest := List.prefix_append _ _
  constructor
  · intro hdone
    by_contra hshort
    exact hnew (hdone.of_prefix (List.prefix_of_prefix_length_le hbefore hfirst (by omega)))
  · intro hlong
    have harrived : Arrived (first ++ [call]) p :=
      arrived_concat.2 (Or.inr ⟨template, htemplate, hp, hok⟩)
    have hstep : first ++ [call] <+: first ++ call :: rest := ⟨rest, by simp⟩
    refine harrived.of_prefix (List.prefix_of_prefix_length_le hstep hbefore ?_)
    rw [List.length_append, List.length_singleton]
    omega

/-- One text arrives before another one, if there is a time when it is there and the other one is
not. -/
theorem arrivesBefore_iff : ArrivesBefore calls p q ↔
    Arrived calls q ∧ ∃ before, before <+: calls ∧ Arrived before p ∧ ¬ Arrived before q := by
  constructor
  · rintro ⟨first, second, hfirst, hsecond, hlt⟩
    have hsecond' : second <+: calls := by
      obtain ⟨call, rest, _, rfl, _⟩ := hsecond
      exact List.prefix_append _ _
    have hlength : second.length < calls.length := by
      obtain ⟨call, rest, _, rfl, _⟩ := hsecond
      simp
    refine ⟨(hsecond.arrived_iff (List.prefix_refl calls)).2 hlength, second, hsecond',
      (hfirst.arrived_iff hsecond').2 hlt, ?_⟩
    rw [hsecond.arrived_iff hsecond']
    omega
  · rintro ⟨hq, before, hbefore, hp, hnot⟩
    obtain ⟨first, hfirst⟩ := exists_firstArrival (hp.of_prefix hbefore)
    obtain ⟨second, hsecond⟩ := exists_firstArrival hq
    rw [hfirst.arrived_iff hbefore] at hp
    rw [hsecond.arrived_iff hbefore] at hnot
    exact ⟨first, second, hfirst, hsecond, by omega⟩

theorem ArrivesBefore.asymm (h : ArrivesBefore calls p q) : ¬ ArrivesBefore calls q p := by
  obtain ⟨_, before, hbefore, hp, hnot⟩ := arrivesBefore_iff.1 h
  intro hback
  obtain ⟨_, before', hbefore', hq, hnot'⟩ := arrivesBefore_iff.1 hback
  rcases List.prefix_or_prefix_of_prefix hbefore hbefore' with hle | hle
  · exact hnot' (hp.of_prefix hle)
  · exact hnot (hq.of_prefix hle)

end Arrivals

/-! ### Siblings and arrivals -/

namespace Tree

/-- The paths of a tree begin as the templates that have arrived. -/
theorem hasBeginning_run_iff {calls : List (Call H)} {p : Text} (hp : p ≠ []) :
    (empty.run calls).root.HasBeginning p ↔ Arrived calls p := by
  constructor
  · rintro ⟨q, hq, hbegins⟩
    rcases hasPath_run_iff.1 hq with rfl | hbreak
    · exact absurd (List.prefix_nil.1 hbegins) hp
    · obtain ⟨template, hadmitted, hmore⟩ := hbreak.exists_prefix
      exact ⟨template, hadmitted, hbegins.trans hmore⟩
  · rintro ⟨template, hadmitted, hbegins⟩
    exact ⟨template, hasPath_run_iff.2 (Or.inr (isBreak_of_admitted hadmitted)), hbegins⟩

/-- A registration that succeeds makes no siblings but behind those that are there. -/
theorem Placed.hasSiblings {t : Tree H} (ht : t.Sound) {template : Text} {handler : H}
    {verbs : List Verb} {g : Registration H} (h : t.Placed template handler verbs g) {start : Text}
    {x y : Char} (hsiblings : g.tree.root.HasSiblings start x y) :
    t.root.HasSiblings start x y ∨ t.root.Joins start x y := by
  obtain ⟨segs, root, params, splits, hcut, hbrought, rfl⟩ := h
  exact hbrought.hasSiblings (Node.keepsShape_register template handler verbs) ht.valid
    (Template.linked_of_segments hcut) hsiblings

/-- Siblings are both there, and there was a time when only the first one was. -/
theorem exists_time_of_hasSiblings {calls : List (Call H)} {start : Text} {x y : Char}
    (h : (empty.run calls).root.HasSiblings start x y) :
    ∃ before, before <+: calls ∧ Arrived before (start ++ [x]) ∧
      ¬ Arrived before (start ++ [y]) := by
  induction calls using List.reverseRecOn with
  | nil => exact (Node.not_hasSiblings_bare h).elim
  | append_singleton calls call ih =>
      have hmore : calls <+: calls ++ [call] := List.prefix_append _ _
      have hold : (empty.run calls).root.HasSiblings start x y →
          ∃ before, before <+: calls ++ [call] ∧ Arrived before (start ++ [x]) ∧
            ¬ Arrived before (start ++ [y]) := by
        intro hsiblings
        obtain ⟨before, hbefore, htime⟩ := ih hsiblings
        exact ⟨before, hbefore.trans hmore, htime⟩
      rw [run_append, run_cons, run_nil] at h
      rcases (empty.run calls).serve_cases call with
        hrefused | rfl | ⟨_, _, _, _, _, _, _, hplaced⟩
      · rw [hrefused.tree_eq] at h
        exact hold h
      · exact hold h
      · rcases hplaced.hasSiblings (run_sound calls) h with hsiblings | ⟨hx, hy⟩
        · exact hold hsiblings
        · -- the call has brought the second one in, and the first one was there before it
          rw [hasBeginning_run_iff (by simp)] at hx hy
          exact ⟨calls, hmore, hx, hy⟩

/-- **Siblings have arrived in their order.** -/
theorem arrivesBefore_of_hasSiblings {calls : List (Call H)} {start : Text} {x y : Char}
    (h : (empty.run calls).root.HasSiblings start x y) :
    ArrivesBefore calls (start ++ [x]) (start ++ [y]) := by
  refine arrivesBefore_iff.2 ⟨?_, exists_time_of_hasSiblings h⟩
  rw [← hasBeginning_run_iff (by simp)]
  exact h.hasBeginning

end Tree

/-! ### The order of a listing -/

/-- Which of two listed routes comes first: for one template the verbs decide, and otherwise the
templates. -/
def Route.ListedFirst (earlier : Text → Text → Prop) (p q : Verb × Route H) : Prop :=
  (p.2.template = q.2.template ∧ p.1.index < q.1.index) ∨
    (p.2.template ≠ q.2.template ∧ Template.ListedFirst earlier p.2.template q.2.template)

namespace Node

variable {earlier : Text → Text → Prop}

/-- The literal children at and below a node are in the order of their arrival. -/
def Queued (earlier : Text → Text → Prop) (n : Node H) : Prop :=
  ∀ start x y, n.HasSiblings start x y →
    earlier (n.path ++ start ++ [x]) (n.path ++ start ++ [y])

theorem Queued.branch {n c : Node H} {s : Segment} (h : n.Queued earlier) (hn : n.Valid)
    (first : n.Branch s c) : c.Queued earlier := by
  intro start x y hsiblings
  have hbelow := h _ x y (hsiblings.below first)
  rwa [← List.append_assoc, ← hn.regular.path first] at hbelow

/-- The routes of a node are listed in the order of their verbs. -/
theorem Regular.pairwise_ownRoutes {n : Node H} (hn : n.Regular) :
    n.ownRoutes.Pairwise (Route.ListedFirst earlier) := by
  have hverbs : Verb.all.Pairwise fun v w => v.index < w.index := by decide
  refine List.Pairwise.filterMap _ ?_ hverbs
  intro v w hlt p hp q hq
  obtain ⟨r, hr, rfl⟩ := Option.map_eq_some_iff.1 hp
  obtain ⟨r', hr', rfl⟩ := Option.map_eq_some_iff.1 hq
  exact Or.inl ⟨(hn.own hr).1.trans (hn.own hr').1.symm, hlt⟩

theorem Regular.head_literal {n c : Node H} (hn : n.Regular) (hc : c ∈ n.literals) :
    ∃ a, c.text.head? = some a ∧ Template.isMarker a = false := by
  have hproper := hn.proper (.literal hc)
  cases hproper with
  | literal nonempty plain =>
      obtain ⟨a, t, ht⟩ := List.exists_cons_of_ne_nil nonempty
      exact ⟨a, by rw [ht]; rfl, plain a (by simp [ht])⟩

theorem Regular.head_param {n c : Node H} (hn : n.Regular) (hc : n.param = some c) :
    c.text.head? = some ':' := by
  have hproper := hn.proper (.param hc)
  generalize c.text = text at hproper ⊢
  cases hproper
  rfl

theorem Regular.head_wildcard {n c : Node H} (hn : n.Regular) (hc : n.wildcard = some c) :
    c.text.head? = some '*' := by
  have hproper := hn.proper (.wildcard hc)
  generalize c.text = text at hproper ⊢
  cases hproper
  rfl

/-- Two children are in the order of their first characters, which differ. -/
def HeadsFirst (earlier : Text → Text → Prop) (start : Text) (c c' : Node H) : Prop :=
  ∃ a b, c.text.head? = some a ∧ c'.text.head? = some b ∧ a ≠ b ∧
    Template.CharFirst earlier start a b

/-- A literal character and a marker differ, and the literal one comes first. -/
theorem headsFirst_of_marker {start : Text} {c c' : Node H} {b : Char}
    (hc : ∃ a, c.text.head? = some a ∧ Template.isMarker a = false)
    (hc' : c'.text.head? = some b) (hb : Template.isMarker b = true) :
    HeadsFirst earlier start c c' := by
  obtain ⟨a, ha, hplain⟩ := hc
  refine ⟨a, b, ha, hc', ?_, Or.inl ⟨hplain, hb⟩⟩
  rintro rfl
  simp [hplain] at hb

/-- Literal children that are in the order of their arrival are in order. -/
theorem Regular.pairwise_literals {n : Node H} (hn : n.Regular) (h : n.Queued earlier) :
    n.literals.Pairwise (HeadsFirst earlier n.path) := by
  rw [List.pairwise_iff_forall_sublist]
  intro c c' hsub
  have hheads : [c.text.head?, c'.text.head?].Sublist n.heads :=
    hsub.map fun c : Node H => c.text.head?
  obtain ⟨a, ha, hplain⟩ := hn.head_literal (hsub.subset List.mem_cons_self)
  obtain ⟨b, hb, hplain'⟩ := hn.head_literal (c := c') (hsub.subset (by simp))
  rw [ha, hb] at hheads
  have hne : some a ≠ some b := by simpa using hn.apart.sublist hheads
  have harrived := h [] a b (hasSiblings_iff.2 (Or.inl ⟨rfl, hheads⟩))
  rw [List.append_nil] at harrived
  exact ⟨a, b, ha, hb, fun hab => hne (congrArg some hab), Or.inr (Or.inr ⟨hplain, hplain',
    harrived⟩)⟩

/-- **The children of a node are in order**, if the literal ones are in that of their arrival. -/
theorem Regular.pairwise_children {n : Node H} (hn : n.Regular) (h : n.Queued earlier) :
    n.children.Pairwise (HeadsFirst earlier n.path) := by
  have hone : ∀ place : Option (Node H), place.toList.Pairwise (HeadsFirst earlier n.path) := by
    intro place
    cases place <;> simp
  rw [children, List.pairwise_append, List.pairwise_append]
  refine ⟨⟨hn.pairwise_literals h, hone _, ?_⟩, hone _, ?_⟩
  · intro c hc c' hc'
    have hparam := hn.head_param (Option.mem_toList.1 hc')
    exact headsFirst_of_marker (hn.head_literal hc) hparam rfl
  · intro c hc c' hc'
    have hwildcard := hn.head_wildcard (Option.mem_toList.1 hc')
    rcases List.mem_append.1 hc with hc | hc
    · exact headsFirst_of_marker (hn.head_literal hc) hwildcard rfl
    · -- the parameter comes before the wildcard
      have hparam := hn.head_param (Option.mem_toList.1 hc)
      exact ⟨':', '*', hparam, hwildcard, by decide, Or.inr (Or.inl ⟨rfl, rfl⟩)⟩

/-- **The order of a listing**, where the literal children are in the order of their arrival. -/
theorem Valid.pairwise_listing {n : Node H} (hn : n.Valid) (h : n.Queued earlier) :
    n.listing.Pairwise (Route.ListedFirst earlier) := by
  induction n using Node.induction with
  | step n ih =>
      rw [listing_eq, List.pairwise_append]
      refine ⟨hn.regular.pairwise_ownRoutes, List.pairwise_flatMap.2 ⟨?_, ?_⟩, ?_⟩
      · intro c hc
        obtain ⟨s, first⟩ := mem_children.1 hc
        exact ih s c first (hn.branch first) (h.branch hn first)
      · -- templates below different children part right behind the path of the node
        refine (hn.regular.pairwise_children h).imp_of_mem ?_
        rintro c c' hc hc' ⟨a, b, ha, hb, hab, hfirst⟩ ⟨v, r⟩ hr ⟨v', r'⟩ hr'
        obtain ⟨more, htemplate, _, head⟩ := hn.template_of_child hc (mem_listing_iff.1 hr)
        obtain ⟨more', htemplate', _, head'⟩ := hn.template_of_child hc' (mem_listing_iff.1 hr')
        obtain ⟨s, rfl⟩ := List.head?_eq_some_iff.1 (head.trans ha)
        obtain ⟨t, rfl⟩ := List.head?_eq_some_iff.1 (head'.trans hb)
        refine Or.inr ⟨?_, ?_⟩
        · rw [htemplate, htemplate']
          simp [hab]
        · rw [htemplate, htemplate', Template.listedFirst_iff_of_ne hab]
          exact hfirst
      · -- templates below a child are longer than the path of the node
        rintro ⟨v, r⟩ hr ⟨v', r'⟩ hr'
        obtain ⟨c, hc, hbelow⟩ := List.mem_flatMap.1 hr'
        obtain ⟨more, htemplate', hmore, _⟩ := hn.template_of_child hc (mem_listing_iff.1 hbelow)
        have htemplate : r.template = n.path := (hn.regular.own (mem_ownRoutes_iff.1 hr)).1
        refine Or.inr ⟨?_, ?_⟩
        · rw [htemplate, htemplate']
          simp [hmore]
        · rw [htemplate, htemplate']
          exact Template.listedFirst_append _ _

end Node

/-! ### Rows in order -/

namespace Route

/-- **In a row of routes, all those of one template come before all those of another one.** -/
def AllBefore (walk : List (Verb × Route H)) (first second : Text) : Prop :=
  ∀ (i j : Nat) (p q : Verb × Route H), walk[i]? = some p → walk[j]? = some q →
    p.2.template = first → q.2.template = second → i < j

variable {earlier : Text → Text → Prop} {walk : List (Verb × Route H)}

/-- In a row in order, the routes of one template are in the order of their verbs. -/
theorem pairwise_verbs (h : walk.Pairwise (ListedFirst earlier)) (template : Text) :
    ((walk.filter fun p => p.2.template = template).map Prod.fst).Pairwise
      fun v w => v.index < w.index := by
  rw [List.pairwise_map]
  refine (h.filter _).imp_of_mem ?_
  intro p q hp hq hfirst
  have hp' : p.2.template = template := of_decide_eq_true (List.mem_filter.1 hp).2
  have hq' : q.2.template = template := of_decide_eq_true (List.mem_filter.1 hq).2
  rcases hfirst with ⟨_, hlt⟩ | ⟨hne, _⟩
  · exact hlt
  · exact absurd (hp'.trans hq'.symm) hne

theorem listedFirst_of_lt (h : walk.Pairwise (ListedFirst earlier)) {i j : Nat}
    {p q : Verb × Route H} (hij : i < j) (hp : walk[i]? = some p) (hq : walk[j]? = some q)
    (hne : p.2.template ≠ q.2.template) :
    Template.ListedFirst earlier p.2.template q.2.template := by
  obtain ⟨hi, rfl⟩ := List.getElem?_eq_some_iff.1 hp
  obtain ⟨hj, rfl⟩ := List.getElem?_eq_some_iff.1 hq
  rcases List.pairwise_iff_getElem.1 h i j hi hj hij with ⟨heq, _⟩ | ⟨_, hfirst⟩
  · exact absurd heq hne
  · exact hfirst

/-- In a row in order, one template comes before another one exactly if it is listed first. -/
theorem allBefore_iff (h : walk.Pairwise (ListedFirst earlier))
    (hearlier : ∀ p q, earlier p q → ¬ earlier q p) {first second : Text} (hne : first ≠ second)
    (hfirst : ∃ (i : Nat) (p : Verb × Route H), walk[i]? = some p ∧ p.2.template = first)
    (hsecond : ∃ (j : Nat) (q : Verb × Route H), walk[j]? = some q ∧ q.2.template = second) :
    AllBefore walk first second ↔ Template.ListedFirst earlier first second := by
  constructor
  · intro hall
    obtain ⟨i, p, hp, rfl⟩ := hfirst
    obtain ⟨j, q, hq, rfl⟩ := hsecond
    exact listedFirst_of_lt h (hall i j p q hp hq rfl rfl) hp hq hne
  · intro hlisted i j p q hp hq hpt hqt
    subst hpt hqt
    rcases Nat.lt_trichotomy i j with hlt | rfl | hlt
    · exact hlt
    · obtain rfl := Option.some.inj (hp.symm.trans hq)
      exact absurd rfl hne
    · -- the other way round, the second one would be listed first
      have hback := listedFirst_of_lt h hlt hq hp hne.symm
      exact absurd hback (hlisted.asymm hearlier hne)

end Route

namespace Tree

/-- The literal children in the tree of a history are in the order of their arrival. -/
theorem queued_run (calls : List (Call H)) :
    (empty.run calls).root.Queued (ArrivesBefore calls) := by
  intro start x y hsiblings
  rw [(run_sound calls).path]
  exact arrivesBefore_of_hasSiblings hsiblings

/-- The routes of a history are listed in order. -/
theorem pairwise_walk (calls : List (Call H)) :
    (empty.run calls).walk.Pairwise (Route.ListedFirst (ArrivesBefore calls)) := by
  rw [walk_eq_listing]
  exact (run_sound calls).valid.pairwise_listing (queued_run calls)

/-- A registered template is listed. -/
theorem exists_walk_of_registered {calls : List (Call H)} {m : Method} {template : Text}
    {handler : H} (h : Registered calls m template handler) :
    ∃ (i : Nat) (p : Verb × Route H), (empty.run calls).walk[i]? = some p ∧
      p.2.template = template := by
  obtain ⟨v, rfl⟩ := exists_verb_of_registered h
  obtain ⟨segs, hcut⟩ := exists_segments_of_registered h
  have hmem : (v, ⟨template, Template.paramNames segs, handler⟩) ∈ (empty.run calls).walk :=
    mem_walk_run_iff.2 ⟨h, segs, hcut, rfl⟩
  obtain ⟨i, hi⟩ := List.mem_iff_getElem?.1 hmem
  exact ⟨i, _, hi, rfl⟩

/-- **The order of the walk, after every history.**  The routes of one template are listed in the
order of their verbs.  Of two different templates with routes, all of the first one's are listed
before all of the second one's exactly if, right after the longest common beginning of the two, the
first one ends, or has a literal character where the second one has a placeholder, or a colon where
the second one has a star, or if both have a literal character and a template with the first one's
has been admitted earlier there than any with the second one's. -/
theorem walk_order (calls : List (Call H)) :
    let walk := (empty.run calls).walk
    (∀ template, ((walk.filter fun p => p.2.template = template).map Prod.fst).Pairwise
      fun v w => v.index < w.index) ∧
    ∀ first second m m' handler handler', Registered calls m first handler →
      Registered calls m' second handler' → first ≠ second →
        (Route.AllBefore walk first second ↔
          Template.ListedFirst (ArrivesBefore calls) first second) := by
  intro walk
  have hordered : walk.Pairwise (Route.ListedFirst (ArrivesBefore calls)) := pairwise_walk calls
  constructor
  · intro template
    exact Route.pairwise_verbs hordered template
  · intro first second m m' handler handler' hreg hreg' hne
    exact Route.allBefore_iff hordered (fun _ _ => ArrivesBefore.asymm) hne
      (exists_walk_of_registered hreg) (exists_walk_of_registered hreg')

/-- What comes first is listed first, also when it is split for what comes later. -/
theorem walk_order_users_apps :
    let users := Call.add "/users".toList 0 [Verb.get.method]
    let apps := Call.add "/apps".toList 1 [Verb.get.method]
    Registered [users, apps] Verb.get.method "/users".toList 0 ∧
      Registered [users, apps] Verb.get.method "/apps".toList 1 ∧
      ArrivesBefore [users, apps] "/u".toList "/a".toList ∧
      Route.AllBefore (empty.run [users, apps]).walk "/users".toList "/apps".toList := by
  intro users apps
  have hreg : Registered [users, apps] Verb.get.method "/users".toList 0 :=
    ⟨[], users, [apps], rfl, ⟨rfl, rfl, by decide⟩, by decide +kernel⟩
  have hreg' : Registered [users, apps] Verb.get.method "/apps".toList 1 :=
    ⟨[users], apps, [], rfl, ⟨rfl, rfl, by decide⟩, by decide +kernel⟩
  have hnot : ¬ Arrived [users] "/a".toList := by
    intro h
    have h' : Arrived ([] ++ [users]) "/a".toList := h
    rcases arrived_concat.1 h' with hnil | ⟨template, htemplate, hp, _⟩
    · exact not_arrived_nil hnil
    · obtain rfl : "/users".toList = template := Option.some.inj htemplate
      exact absurd hp (by decide +kernel)
  have harrives : ArrivesBefore [users, apps] "/u".toList "/a".toList :=
    ⟨[], [users],
      ⟨users, [apps], "/users".toList, rfl, rfl, by decide +kernel, by decide +kernel,
        not_arrived_nil⟩,
      ⟨apps, [], "/apps".toList, rfl, rfl, by decide +kernel, by decide +kernel, hnot⟩, by decide⟩
  have hlisted : Template.ListedFirst (ArrivesBefore [users, apps])
      (['/'] ++ 'u' :: "sers".toList) (['/'] ++ 'a' :: "pps".toList) :=
    (Template.listedFirst_iff_of_ne (by decide)).2 (Or.inr (Or.inr ⟨rfl, rfl, harrives⟩))
  exact ⟨hreg, hreg', harrives,
    ((walk_order [users, apps]).2 _ _ _ _ _ _ hreg hreg' (by decide +kernel)).2 hlisted⟩

end Tree

end RouteTree
