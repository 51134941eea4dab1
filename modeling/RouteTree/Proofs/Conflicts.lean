/-
**What stands in the way of a template.**

Two things can stand in the way of a registration.  On the way down, the place of a placeholder can
be taken by one with another name; at its end, a verb can be taken.  The first is a matter of which
placeholders stand behind which texts, in the segments of a template and below a node.  Bringing
segments into a tree adds theirs to those of the tree, and so it cannot come to its end when the
two do not go together.  The second is a matter of the routes that the tree holds for the template.

Main definitions:

* `Template.StandsIn` — a segment stands in a row behind a text;
* `Node.HasBranch` — below a node, a child stands behind a text and a segment.

Main results:

* `Node.Brought.hasBranch_iff` — **the placeholders after a way are those before it and those of
  its segments**;
* `Node.hasBranch_unique` — a place has one placeholder;
* `Node.exists_conflict_of_error` — **what bars a way is a placeholder with another name**;
* `Node.Brought.exists_visited` — the node at the end of a way has the routes that the tree holds
  for its path.
-/
import RouteTree.Proofs.Paths
import RouteTree.Proofs.Upkeep

set_option autoImplicit false
set_option relaxedAutoImplicit false

namespace RouteTree

/-- A segment that takes a value. -/
def Segment.IsPlaceholder (s : Segment) : Prop := s.name?.isSome = true

theorem Segment.IsPlaceholder.ne_literal {s : Segment} (h : s.IsPlaceholder) (run : Text) :
    s ≠ .literal run := by
  rintro rfl
  cases h

/-- The placeholders are told from the literal runs by their rank. -/
theorem Segment.IsPlaceholder.of_rank_eq {s s' : Segment} (h : s.IsPlaceholder)
    (rank : s'.rank = s.rank) : s'.IsPlaceholder := by
  cases s' with
  | literal run =>
      cases s with
      | literal _ => exact h
      | param _ => cases rank
      | wildcard _ => cases rank
  | param name => rfl
  | wildcard name => rfl

namespace Template

/-! ### Segments in a row -/

/-- **A segment stands in a row behind a text**: the segments before it spell the text. -/
def StandsIn (segs : List Segment) (start : Text) (s : Segment) : Prop :=
  ∃ before after, segs = before ++ s :: after ∧ spelled before = start

theorem not_standsIn_nil {start : Text} {s : Segment} : ¬ StandsIn [] start s := by
  rintro ⟨before, after, h, _⟩
  simp at h

theorem standsIn_cons {s₀ s : Segment} {rest : List Segment} {start : Text} :
    StandsIn (s₀ :: rest) start s ↔
      s = s₀ ∧ start = [] ∨ ∃ more, start = s₀.text ++ more ∧ StandsIn rest more s := by
  constructor
  · rintro ⟨before, after, h, rfl⟩
    cases before with
    | nil =>
        obtain ⟨rfl, _⟩ := List.cons.inj h
        exact Or.inl ⟨rfl, rfl⟩
    | cons s' before =>
        obtain ⟨rfl, rfl⟩ := List.cons.inj h
        exact Or.inr ⟨_, rfl, before, after, rfl, rfl⟩
  · rintro (⟨rfl, rfl⟩ | ⟨_, rfl, before, after, rfl, rfl⟩)
    · exact ⟨[], rest, rfl, rfl⟩
    · exact ⟨s₀ :: before, after, rfl, rfl⟩

/-- A placeholder behind a literal run. -/
theorem standsIn_literal {s : Segment} (hs : s.IsPlaceholder) {run start : Text}
    {rest : List Segment} : StandsIn (.literal run :: rest) start s ↔
      ∃ more, start = run ++ more ∧ StandsIn rest more s := by
  rw [standsIn_cons, or_iff_right fun h => hs.ne_literal run h.1]
  rfl

/-- A placeholder behind a literal run that may be empty. -/
theorem standsIn_literalThen {s : Segment} (hs : s.IsPlaceholder) {run start : Text}
    {rest : List Segment} : StandsIn (Segment.literalThen run rest) start s ↔
      ∃ more, start = run ++ more ∧ StandsIn rest more s := by
  by_cases h : run = []
  · subst h
    simp
  · rw [Segment.literalThen, if_neg h, standsIn_literal hs]

end Template

namespace Node

variable {H α : Type} {visit : Node H → Node H × α}

/-! ### Children behind texts -/

/-- **Below a node, a child stands behind a text and a segment.** -/
def HasBranch (n : Node H) (start : Text) (s : Segment) : Prop :=
  ∃ segs d c, n.Reach segs d ∧ Template.spelled segs = start ∧ d.Branch s c

theorem hasBranch_iff {n : Node H} {start : Text} {s : Segment} :
    n.HasBranch start s ↔ (start = [] ∧ ∃ c, n.Branch s c) ∨
      ∃ s' c more, n.Branch s' c ∧ start = s'.text ++ more ∧ c.HasBranch more s := by
  constructor
  · rintro ⟨segs, d, c, hreach, rfl, last⟩
    cases hreach with
    | here => exact Or.inl ⟨rfl, c, last⟩
    | step first rest => exact Or.inr ⟨_, _, _, first, rfl, _, d, c, rest, rfl, last⟩
  · rintro (⟨rfl, c, last⟩ | ⟨s', c, _, first, rfl, segs, d, e, rest, rfl, last⟩)
    · exact ⟨[], n, c, .here n, rfl, last⟩
    · exact ⟨s' :: segs, d, e, .step first rest, rfl, last⟩

theorem not_hasBranch_bare {text path start : Text} {params : List Text} {s : Segment} :
    ¬ (bare text path params : Node H).HasBranch start s := by
  rw [hasBranch_iff]
  rintro (⟨_, _, h⟩ | ⟨_, _, _, h, _⟩)
  · exact not_branch_bare h
  · exact not_branch_bare h

theorem hasBranch_congr {n m : Node H} (same : ∀ s c, m.Branch s c ↔ n.Branch s c) {start : Text}
    {s : Segment} : m.HasBranch start s ↔ n.HasBranch start s := by
  rw [hasBranch_iff, hasBranch_iff (n := n)]
  simp only [same]

/-- A child more, and what stands below it. -/
theorem hasBranch_insert {n m c : Node H} {s₀ : Segment}
    (hm : ∀ s d, m.Branch s d ↔ n.Branch s d ∨ s = s₀ ∧ d = c) {start : Text} {s : Segment} :
    m.HasBranch start s ↔ n.HasBranch start s ∨ (s = s₀ ∧ start = [] ∨
      ∃ more, start = s₀.text ++ more ∧ c.HasBranch more s) := by
  rw [hasBranch_iff, hasBranch_iff (n := n)]
  simp only [hm]
  grind

/-- Another child instead of one, and what stands below it besides. -/
theorem hasBranch_exchange {n m c c' : Node H} {s₁ s₂ s : Segment}
    {others : Segment → Node H → Prop} {start : Text} {new : Prop}
    (hn : ∀ s d, n.Branch s d ↔ others s d ∨ s = s₁ ∧ d = c)
    (hm : ∀ s d, m.Branch s d ↔ others s d ∨ s = s₂ ∧ d = c') (own : s = s₂ ↔ s = s₁)
    (below : (∃ more, start = s₂.text ++ more ∧ c'.HasBranch more s) ↔
      (∃ more, start = s₁.text ++ more ∧ c.HasBranch more s) ∨ new) :
    m.HasBranch start s ↔ n.HasBranch start s ∨ new := by
  rw [hasBranch_iff, hasBranch_iff (n := n)]
  simp only [hn, hm]
  grind

/-! ### Nodes that differ in one child -/

theorem branch_attach_of_free {n c : Node H} {s₀ : Segment} (free : n.Free s₀)
    (text : c.text = s₀.text) (s : Segment) (d : Node H) :
    (n.attach s₀ c).Branch s d ↔ n.Branch s d ∨ s = s₀ ∧ d = c := by
  refine ⟨branch_attach text, ?_⟩
  cases s₀ with
  | literal run =>
      obtain rfl : c.text = run := text
      rintro (h | ⟨rfl, rfl⟩)
      · cases h with
        | literal h => exact .literal (List.mem_append_left _ h)
        | param h => exact .param h
        | wildcard h => exact .wildcard h
      · exact .literal (by simp [attach])
  | param name =>
      obtain rfl : c.text = name := text
      have hfree : n.param = none := free
      rintro (h | ⟨rfl, rfl⟩)
      · cases h with
        | literal h => exact .literal h
        | param h => simp [hfree] at h
        | wildcard h => exact .wildcard h
      · exact .param rfl
  | wildcard name =>
      obtain rfl : c.text = name := text
      have hfree : n.wildcard = none := free
      rintro (h | ⟨rfl, rfl⟩)
      · cases h with
        | literal h => exact .literal h
        | param h => exact .param h
        | wildcard h => simp [hfree] at h
      · exact .wildcard rfl

/-- One literal child stands for another one, and the others stay. -/
theorem branch_exchange_literal {n c : Node H} {before after : List (Node H)}
    (among : n.literals = before ++ c :: after) (c' : Node H) :
    ∃ others : Segment → Node H → Prop,
      (∀ s d, n.Branch s d ↔ others s d ∨ s = .literal c.text ∧ d = c) ∧
        ∀ s d, Branch { n with literals := before ++ c' :: after } s d ↔
          others s d ∨ s = .literal c'.text ∧ d = c' := by
  have hsplit : ∀ c : Node H, ∀ s d, Branch { n with literals := before ++ c :: after } s d ↔
      Branch { n with literals := before ++ after } s d ∨ s = .literal c.text ∧ d = c := by
    intro c s d
    constructor
    · intro h
      cases h with
      | literal h =>
          rcases List.mem_append.1 h with h | h
          · exact Or.inl (.literal (List.mem_append_left _ h))
          · rcases List.mem_cons.1 h with rfl | h
            · exact Or.inr ⟨rfl, rfl⟩
            · exact Or.inl (.literal (List.mem_append_right _ h))
      | param h => exact Or.inl (.param h)
      | wildcard h => exact Or.inl (.wildcard h)
    · rintro (h | ⟨rfl, rfl⟩)
      · cases h with
        | literal h =>
            refine .literal (List.mem_append.2 ((List.mem_append.1 h).imp_right fun h => ?_))
            exact List.mem_cons_of_mem _ h
        | param h => exact .param h
        | wildcard h => exact .wildcard h
      · exact .literal (by simp)
  refine ⟨_, fun s d => ?_, hsplit c'⟩
  rw [← hsplit c, with_literals among]

/-- One child stands for another one in the place of a placeholder, and the others stay. -/
theorem branch_exchange_place {n c c' : Node H} {s₀ : Segment} (place : n.place? s₀ = some c)
    (same : c.text = s₀.text) (text : c'.text = s₀.text) :
    ∃ others : Segment → Node H → Prop,
      (∀ s d, n.Branch s d ↔ others s d ∨ s = s₀ ∧ d = c) ∧
        ∀ s d, (n.attach s₀ c').Branch s d ↔ others s d ∨ s = s₀ ∧ d = c' := by
  cases s₀ with
  | literal run => cases place
  | param name =>
      have hfree : Free { n with param := none } (.param name) := rfl
      refine ⟨Branch { n with param := none }, fun s d => ?_, fun s d => ?_⟩
      · rw [← branch_attach_of_free hfree same]
        exact branch_congr rfl place rfl
      · exact branch_attach_of_free hfree text s d
  | wildcard name =>
      have hfree : Free { n with wildcard := none } (.wildcard name) := rfl
      refine ⟨Branch { n with wildcard := none }, fun s d => ?_, fun s d => ?_⟩
      · rw [← branch_attach_of_free hfree same]
        exact branch_congr rfl rfl place
      · exact branch_attach_of_free hfree text s d

/-! ### Placeholders after a way -/

/-- The only child of a split has the tail of its text, and the children of what was split. -/
theorem branch_split {c : Node H} {keep tail : Text} (text : c.text = keep ++ tail) (s : Segment)
    (d : Node H) : (c.split keep.length).Branch s d ↔
      (bare [] [] [] : Node H).Branch s d ∨ s = .literal tail ∧ d = { c with text := tail } := by
  constructor
  · intro h
    cases h with
    | literal h =>
        obtain rfl := List.mem_singleton.1 h
        exact Or.inr ⟨by simp [text], by simp [text]⟩
    | param h => cases h
    | wildcard h => cases h
  · rintro (h | ⟨rfl, rfl⟩)
    · exact (not_branch_bare h).elim
    · have hd : { c with text := tail } ∈ (c.split keep.length).literals := by
        simp [split, text]
      exact .literal hd

theorem branch_text {c : Node H} {text : Text} (s : Segment) (d : Node H) :
    Branch { c with text } s d ↔ c.Branch s d := branch_congr rfl rfl rfl

/-- The placeholders below a split stand behind the tail of its text. -/
theorem hasBranch_split {c : Node H} {keep tail start : Text} (text : c.text = keep ++ tail)
    {s : Segment} (hs : s.IsPlaceholder) : (c.split keep.length).HasBranch start s ↔
      ∃ more, start = tail ++ more ∧ c.HasBranch more s := by
  rw [hasBranch_insert (branch_split text), or_iff_right not_hasBranch_bare,
    or_iff_right fun h => hs.ne_literal _ h.1]
  simp only [hasBranch_congr branch_text, Segment.text]

/-- **The placeholders after a way are those before it and those of its segments.** -/
theorem Brought.hasBranch_iff (keeps : KeepsShape visit) {n n' : Node H} {segs : List Segment}
    {a : α} {es : List Event} (h : Brought visit n segs n' a es) {start : Text} {s : Segment}
    (hs : s.IsPlaceholder) :
    n'.HasBranch start s ↔ n.HasBranch start s ∨ Template.StandsIn segs start s := by
  induction h generalizing start with
  | here n =>
      rw [or_iff_left Template.not_standsIn_nil, keeps n]
      exact hasBranch_congr fun s d => branch_routes
  | @fresh n c s₀ rest a free onward ih =>
      have htext := (onward.frame keeps).1
      rw [hasBranch_insert (branch_attach_of_free free htext), Template.standsIn_cons]
      simp only [ih, child, not_hasBranch_bare, false_or]
  | @shared n c c' before after more rest a es among _ onward ih =>
      have htext := (onward.frame keeps).1
      obtain ⟨others, hn, hn'⟩ := branch_exchange_literal among c'
      rw [htext] at hn'
      refine hasBranch_exchange hn hn' Iff.rfl ?_
      simp only [ih, Template.standsIn_literalThen hs, Template.standsIn_literal hs, Segment.text]
      grind
  | @split n c c' before after keep tail more rest a among text _ _ _ onward ih =>
      have htext := (onward.frame keeps).1
      obtain ⟨others, hn, hn'⟩ := branch_exchange_literal among c'
      rw [htext, split_text text] at hn'
      refine hasBranch_exchange hn hn' ?_ ?_
      · exact iff_of_false (hs.ne_literal _) (hs.ne_literal _)
      · simp only [ih, hasBranch_split text hs, Template.standsIn_literalThen hs,
          Template.standsIn_literal hs, Segment.text, text]
        grind
  | @placed n c c' s₀ rest a es place same onward ih =>
      have htext := (onward.frame keeps).1.trans same
      obtain ⟨others, hn, hn'⟩ := branch_exchange_place place same htext
      rw [Template.standsIn_cons]
      by_cases hown : s = s₀ ∧ start = []
      · -- the child was there already
        obtain ⟨rfl, rfl⟩ := hown
        have h : n.HasBranch [] s := ⟨[], n, c, .here n, rfl, branch_of_place place same⟩
        have h' : (n.attach s c').HasBranch [] s :=
          ⟨[], _, c', .here _, rfl, (hn' s c').2 (Or.inr ⟨rfl, rfl⟩)⟩
        exact iff_of_true h' (Or.inl h)
      · rw [or_iff_right hown]
        refine hasBranch_exchange hn hn' Iff.rfl ?_
        simp only [ih]
        grind

/-- A place has one placeholder. -/
theorem hasBranch_unique {n : Node H} (hn : n.Valid) {start : Text} {s s' : Segment}
    (hs : s.IsPlaceholder) (h : n.HasBranch start s) (h' : n.HasBranch start s')
    (rank : s.rank = s'.rank) : s = s' := by
  obtain ⟨segs, d, c, hreach, hspelled, last⟩ := h
  obtain ⟨segs', d', c', hreach', hspelled', last'⟩ := h'
  obtain ⟨_, rfl⟩ := reach_unique hn hreach hreach' (hspelled.trans hspelled'.symm)
  cases last with
  | literal _ => cases hs
  | param h =>
      cases last' with
      | literal h' => cases rank
      | param h' =>
          obtain rfl := Option.some.inj (h.symm.trans h')
          rfl
      | wildcard h' => cases rank
  | wildcard h =>
      cases last' with
      | literal h' => cases rank
      | param h' => cases rank
      | wildcard h' =>
          obtain rfl := Option.some.inj (h.symm.trans h')
          rfl

/-! ### What bars a way -/

/-- An attempt among literal children fails below one that the run begins with. -/
theorem exists_of_insertLiteral_error {template run : Text} {rest : List Segment} {n : Node H}
    {cs : List (Node H)} {e : RouteError}
    (h : (insertLiteral template visit n cs run rest).outcome = .error e) :
    ∃ c ∈ cs, ∃ more, run = c.text ++ more ∧
      (c.insert template visit (Segment.literalThen more rest)).outcome = .error e := by
  induction cs with
  | nil =>
      rw [insertLiteral] at h
      cases h
  | cons c cs ih =>
      have hleft := Text.fork_left c.text run
      have hright := Text.fork_right c.text run
      rw [insertLiteral] at h
      rcases hfork : Text.fork c.text run with ⟨_ | ⟨x, keep⟩, _ | ⟨y, tail⟩, more⟩
      · rw [hfork] at h
        obtain ⟨d, hd, hbelow⟩ := ih h
        exact ⟨d, List.mem_cons_of_mem _ hd, hbelow⟩
      · rw [hfork] at h
        obtain ⟨d, hd, hbelow⟩ := ih h
        exact ⟨d, List.mem_cons_of_mem _ hd, hbelow⟩
      · rw [hfork] at h hleft hright
        rw [List.append_nil] at hleft
        exact ⟨c, List.mem_cons_self, more, by rw [← hleft]; exact hright.symm, h⟩
      · rw [hfork] at h
        cases h

/-- An attempt through the place of a placeholder fails at the child there, or below it. -/
theorem exists_of_insertPlaced_error {template : Text} {s : Segment} {rest : List Segment}
    {n : Node H} {place : Option (Node H)} {e : RouteError}
    (h : (insertPlaced template visit n s place rest).outcome = .error e) :
    ∃ c, place = some c ∧ (c.text ≠ s.text ∧ e = .routeConflict c.path template ∨
      c.text = s.text ∧ (c.insert template visit rest).outcome = .error e) := by
  cases place with
  | none =>
      rw [insertPlaced] at h
      cases h
  | some c =>
      rw [insertPlaced] at h
      refine ⟨c, rfl, ?_⟩
      by_cases same : c.text = s.text
      · rw [if_pos same] at h
        exact Or.inr ⟨same, h⟩
      · rw [if_neg same] at h
        exact Or.inl ⟨same, (Except.error.inj h).symm⟩

/-- The conflict between a placeholder of a row and one below a node. -/
def Conflicts (n : Node H) (segs : List Segment) (start : Text) (old : Segment) : Prop :=
  ∃ s, s.IsPlaceholder ∧ Template.StandsIn segs start s ∧ n.HasBranch start old ∧
    old.rank = s.rank ∧ old.text ≠ s.text

/-- A conflict below a child is one below its parent. -/
theorem Conflicts.of_branch {n c : Node H} {s₀ old : Segment} {segs rest : List Segment}
    {start : Text} (first : n.Branch s₀ c) (h : c.Conflicts rest start old)
    (stands : ∀ s, s.IsPlaceholder → Template.StandsIn rest start s →
      Template.StandsIn segs (s₀.text ++ start) s) : n.Conflicts segs (s₀.text ++ start) old := by
  obtain ⟨s, hs, hstands, hbelow, hrank, hne⟩ := h
  have hbranch := Node.hasBranch_iff.2 (Or.inr ⟨s₀, c, start, first, rfl, hbelow⟩)
  exact ⟨s, hs, stands s hs hstands, hbranch, hrank, hne⟩

/-- **What bars a way is a placeholder with another name** in the place of one of its
placeholders. -/
theorem exists_conflict_of_error {template : Text} {n : Node H} (hn : n.Valid)
    {segs : List Segment} {e : RouteError}
    (h : (n.insert template visit segs).outcome = .error e) :
    ∃ start old, n.Conflicts segs start old ∧
      e = .routeConflict (n.path ++ (start ++ old.text)) template := by
  induction n using Node.induction generalizing segs with
  | step n ih =>
      -- a conflict at a placeholder of the node itself, or below the child in its place
      have hplaced : ∀ s₀ rest, s₀.IsPlaceholder →
          (∀ c, n.place? s₀ = some c → ∃ old, n.Branch old c ∧ old.rank = s₀.rank ∧
            old.text = c.text) →
          (insertPlaced template visit n s₀ (n.place? s₀) rest).outcome = .error e →
          ∃ start old, n.Conflicts (s₀ :: rest) start old ∧
            e = .routeConflict (n.path ++ (start ++ old.text)) template := by
        intro s₀ rest hs₀ hold h
        obtain ⟨c, hplace, ⟨hne, rfl⟩ | ⟨same, h⟩⟩ := exists_of_insertPlaced_error h
        · obtain ⟨old, first, hrank, htext⟩ := hold c hplace
          have hstands : Template.StandsIn (s₀ :: rest) [] s₀ :=
            Template.standsIn_cons.2 (Or.inl ⟨rfl, rfl⟩)
          refine ⟨[], old, ⟨s₀, hs₀, hstands, ?_, hrank, ?_⟩, ?_⟩
          · exact hasBranch_iff.2 (Or.inl ⟨rfl, c, first⟩)
          · rwa [htext]
          · rw [hn.regular.path first, List.nil_append]
        · have first := branch_of_place hplace same
          obtain ⟨start, old, hconflict, rfl⟩ := ih _ c first (hn.branch first) h
          refine ⟨s₀.text ++ start, old, hconflict.of_branch first fun s _ hstands => ?_, ?_⟩
          · exact Template.standsIn_cons.2 (Or.inr ⟨start, rfl, hstands⟩)
          · rw [hn.regular.path first]
            simp only [List.append_assoc]
      cases segs with
      | nil =>
          rw [insert_nil] at h
          cases h
      | cons s₀ rest =>
          cases s₀ with
          | literal run =>
              rw [insert_literal] at h
              obtain ⟨c, hc, more, rfl, hbelow⟩ := exists_of_insertLiteral_error h
              have first : n.Branch (.literal c.text) c := .literal hc
              obtain ⟨start, old, hconflict, rfl⟩ := ih _ c first (hn.branch first) hbelow
              refine ⟨c.text ++ start, old, hconflict.of_branch first fun s hs hstands => ?_, ?_⟩
              · rw [Template.standsIn_literalThen hs] at hstands
                rw [Template.standsIn_literal hs]
                obtain ⟨start, rfl, hstands⟩ := hstands
                exact ⟨start, by simp [Segment.text], hstands⟩
              · rw [hn.regular.path first]
                simp only [List.append_assoc, Segment.text]
          | param name =>
              rw [insert_param] at h
              exact hplaced (.param name) rest rfl
                (fun c hc => ⟨.param c.text, .param hc, rfl, rfl⟩) h
          | wildcard name =>
              rw [insert_wildcard] at h
              exact hplaced (.wildcard name) rest rfl
                (fun c hc => ⟨.wildcard c.text, .wildcard hc, rfl, rfl⟩) h

/-! ### The node at the end of a way -/

/-- A route whose template goes on behind the path of a node is held by the child that takes the
next character. -/
theorem exists_branch_of_holds {n : Node H} (hn : n.Valid) {v : Verb} {r : Route H} {more : Text}
    (h : n.Holds v r) (template : r.template = n.path ++ more) (hne : more ≠ []) :
    ∃ s c, n.Branch s c ∧ c.Holds v r ∧ s.text.head? = more.head? := by
  rcases Node.holds_iff.1 h with hown | ⟨s, c, first, hc⟩
  · have heq := (hn.regular.own hown).1.symm.trans template
    exact absurd (List.self_eq_append_right.1 heq) hne
  · refine ⟨s, c, first, hc, ?_⟩
    obtain ⟨rest, hrest⟩ := template_of_holds (hn.branch first) hc
    rw [hn.regular.path first, template, List.append_assoc, List.append_cancel_left_eq] at hrest
    rw [hrest, List.head?_append_of_ne_nil _ (hn.regular.proper first).ne_nil]

/-- A child that takes the next character of a template holds the routes for it. -/
theorem holds_branch_iff {n c : Node H} (hn : n.Valid) {s : Segment} (first : n.Branch s c)
    {v : Verb} {r : Route H} {more : Text} (hne : more ≠ [])
    (head : s.text.head? = more.head?) :
    n.Holds v r ∧ r.template = n.path ++ more ↔ c.Holds v r ∧ r.template = n.path ++ more := by
  constructor
  · rintro ⟨h, htemplate⟩
    obtain ⟨s', c', first', hc', head'⟩ := exists_branch_of_holds hn h htemplate hne
    obtain ⟨rfl, rfl⟩ := hn.regular.branch_unique first first' (head.trans head'.symm)
    exact ⟨hc', htemplate⟩
  · rintro ⟨h, htemplate⟩
    exact ⟨Node.holds_iff.2 (Or.inr ⟨s, c, first, h⟩), htemplate⟩

/-- A segment that nothing takes differs from all children in its first character. -/
theorem Free.head?_ne {n c : Node H} (hn : n.Valid) {s s' : Segment} (free : n.Free s)
    (proper : s.Proper) (first : n.Branch s' c) : s'.text.head? ≠ s.text.head? := by
  intro head
  have hrank : s'.rank = s.rank := by
    rw [(hn.regular.proper first).rank_eq, proper.rank_eq, head]
  cases first with
  | literal h =>
      cases proper with
      | literal _ _ =>
          have hne := (hn.regular.proper (.literal h)).ne_nil
          exact Text.head?_ne_of_shared_nil (free c h) hne head
      | param _ _ => cases hrank
      | wildcard _ _ => cases hrank
  | param h =>
      cases proper with
      | literal _ _ => cases hrank
      | param _ _ => exact absurd (free.symm.trans h) (by simp)
      | wildcard _ _ => cases hrank
  | wildcard h =>
      cases proper with
      | literal _ _ => cases hrank
      | param _ _ => cases hrank
      | wildcard _ _ => exact absurd (free.symm.trans h) (by simp)

/-- **The visit at the end of a way comes to a node with the routes that are held for its path.** -/
theorem Brought.exists_visited {n n' : Node H} {segs : List Segment} {a : α} {es : List Event}
    (h : Brought visit n segs n' a es) (hn : n.Valid) (hsegs : Template.Linked segs) :
    ∃ d, (visit d).2 = a ∧ ∀ v r, d.routes v = some r ↔
      n.Holds v r ∧ r.template = n.path ++ Template.spelled segs := by
  induction h with
  | here n =>
      refine ⟨n, rfl, fun v r => ⟨fun h => ?_, fun ⟨h, htemplate⟩ => ?_⟩⟩
      · exact ⟨Node.holds_iff.2 (Or.inl h), by simpa using (hn.regular.own h).1⟩
      · obtain ⟨segs, d, hreach, hd⟩ := h
        -- the node has the path that it begins with
        have hpath : n.path = d.path := by
          rw [← ((hn segs d hreach).own hd).1, htemplate, Template.spelled_nil, List.append_nil]
        obtain ⟨_, rfl⟩ := eq_of_path_eq hn (.here n) hreach hpath
        exact hd
  | @fresh n c s rest a free onward ih =>
      obtain ⟨proper, _, hrest⟩ := Template.linked_cons.1 hsegs
      obtain ⟨d, ha, hd⟩ := ih (valid_bare _ _ _) hrest
      refine ⟨d, ha, fun v r => (hd v r).trans (iff_of_false ?_ ?_)⟩
      · exact fun h => not_holds_bare h.1
      · rintro ⟨h, htemplate⟩
        have hne : Template.spelled (s :: rest) ≠ [] := by simp [proper.ne_nil]
        obtain ⟨s', c', first, _, head⟩ := exists_branch_of_holds hn h htemplate hne
        rw [Template.spelled_cons, List.head?_append_of_ne_nil _ proper.ne_nil] at head
        exact free.head?_ne hn proper first head
  | @shared n c c' before after more rest a es among nonempty onward ih =>
      have first : n.Branch (.literal c.text) c := .literal (by simp [among])
      obtain ⟨d, ha, hd⟩ := ih (hn.branch first) hsegs.literalThen
      refine ⟨d, ha, fun v r => (hd v r).trans ?_⟩
      rw [Template.spelled_literalThen, hn.regular.path first, Template.spelled_cons,
        List.append_assoc, Segment.text, Segment.text, List.append_assoc]
      refine (holds_branch_iff hn first (by simp [nonempty]) ?_).symm
      rw [Segment.text, List.head?_append_of_ne_nil _ nonempty]
  | @split n c c' before after keep tail more rest a among text kept cut parts onward ih =>
      have first : n.Branch (.literal c.text) c := .literal (by simp [among])
      have hpath := hn.regular.path first
      have hproper := hn.regular.proper first
      obtain ⟨d, ha, hd⟩ :=
        ih (valid_split (hn.branch first) hproper text cut hpath) hsegs.literalThen
      refine ⟨d, ha, fun v r => (hd v r).trans ?_⟩
      rw [holds_split text hpath, split_eq text hpath, attach_path, Template.spelled_literalThen,
        bare, Template.spelled_cons, Segment.text, List.append_assoc, List.append_assoc]
      refine (holds_branch_iff hn first (by simp [kept]) ?_).symm
      rw [Segment.text, text, List.head?_append_of_ne_nil _ kept,
        List.head?_append_of_ne_nil _ kept]
  | @placed n c c' s rest a es place same onward ih =>
      obtain ⟨proper, _, hrest⟩ := Template.linked_cons.1 hsegs
      have first := branch_of_place place same
      obtain ⟨d, ha, hd⟩ := ih (hn.branch first) hrest
      refine ⟨d, ha, fun v r => (hd v r).trans ?_⟩
      rw [hn.regular.path first, Template.spelled_cons, List.append_assoc]
      refine (holds_branch_iff hn first (by simp [proper.ne_nil]) ?_).symm
      rw [List.head?_append_of_ne_nil _ proper.ne_nil]

end Node

end RouteTree
