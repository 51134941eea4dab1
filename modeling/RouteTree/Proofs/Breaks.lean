/-
**Where the nodes of a tree are.**

The text of a template is broken into nodes at the ends of its segments, and where it parts from
another template of the tree.  Bringing one template into a tree breaks its text, and the texts of
the nodes that are there, in just these places: the paths afterwards are those before it, the ends
of its segments, and the beginnings up to which it goes along with a path.

So the paths in a tree can be told from the admitted templates.  Which of them came first does not
matter, and neither do the calls that failed.

Main definitions:

* `Text.PartAfter` — the longest beginning that two texts have in common;
* `Template.Ends`, `Template.IsBreak` — **where a row has a segment's end, and where some templates
  are broken**;
* `Node.HasPath`, `Node.HasFork` — the paths below a node, and where a text parts from them.

Main results:

* `Node.Brought.hasPath_iff` — **the paths after a way**;
* `Tree.hasPath_run_iff` — the paths in the tree that a history leaves are the breaks of the
  admitted templates.
-/
import RouteTree.Proofs.Verdicts

set_option autoImplicit false
set_option relaxedAutoImplicit false

namespace RouteTree

variable {H α : Type}

/-! ### Where texts part -/

namespace Text

/-- **Two texts part after `p`**: it is the longest beginning that they have in common. -/
structure PartAfter (s t p : Text) : Prop where
  left : p <+: s
  right : p <+: t
  longest : ∀ q, q <+: s → q <+: t → q <+: p

theorem partAfter_fork (s t : Text) : PartAfter s t (fork s t).shared where
  left := ⟨_, fork_left s t⟩
  right := ⟨_, fork_right s t⟩
  longest := by
    rintro q ⟨a, rfl⟩ ⟨b, rfl⟩
    rw [shared_append]
    exact List.prefix_append _ _

/-- Following two texts as long as they agree finds where they part. -/
theorem partAfter_iff {s t p : Text} : PartAfter s t p ↔ (fork s t).shared = p := by
  constructor
  · intro h
    have hfork := partAfter_fork s t
    exact (h.longest _ hfork.left hfork.right).eq_of_length_le
      (hfork.longest _ h.left h.right).length_le
  · rintro rfl
    exact partAfter_fork s t

theorem shared_comm (s t : Text) : (fork s t).shared = (fork t s).shared := by
  have h := partAfter_fork t s
  exact partAfter_iff.1 ⟨h.right, h.left, fun q hs ht => h.longest q ht hs⟩

/-- A text that another one begins with is all that the two share. -/
theorem shared_of_prefix {s t : Text} (h : s <+: t) : (fork s t).shared = s :=
  partAfter_iff.1 ⟨List.prefix_refl s, h, fun _ hq _ => hq⟩

/-- What comes behind the place where texts part does not matter. -/
theorem shared_of_not_prefix {s t : Text} (h : ¬ s <+: t) (more : Text) :
    (fork (s ++ more) t).shared = (fork s t).shared := by
  have hleft := fork_left s t
  have hright := fork_right s t
  have hparts := fork_parts s t
  generalize fork s t = f at *
  obtain ⟨shared, left, right⟩ := f
  obtain rfl : shared ++ left = s := hleft
  obtain rfl : shared ++ right = t := hright
  have hne : left ≠ [] := by
    rintro rfl
    exact h (by simp)
  have hhead : (left ++ more).head? ≠ right.head? := by
    rw [List.head?_append_of_ne_nil _ hne]
    exact hparts.resolve_left hne
  rw [List.append_assoc, fork_append _ _ _ (Or.inr hhead)]

end Text

namespace Template

/-! ### Ends of segments -/

/-- **A text ends a segment of a row**: it is spelled by the segments up to there. -/
def Ends (segs : List Segment) (p : Text) : Prop :=
  ∃ before after, segs = before ++ after ∧ before ≠ [] ∧ spelled before = p

theorem not_ends_nil {p : Text} : ¬ Ends [] p := by
  rintro ⟨before, after, h, hne, _⟩
  exact hne (List.append_eq_nil_iff.1 h.symm).1

theorem ends_cons {s : Segment} {rest : List Segment} {p : Text} :
    Ends (s :: rest) p ↔ p = s.text ∨ ∃ more, p = s.text ++ more ∧ Ends rest more := by
  constructor
  · rintro ⟨before, after, h, hne, rfl⟩
    cases before with
    | nil => exact absurd rfl hne
    | cons s' before =>
        obtain ⟨rfl, rfl⟩ := List.cons.inj h
        by_cases hbefore : before = []
        · exact Or.inl (by simp [hbefore])
        · exact Or.inr ⟨_, by simp, before, after, rfl, hbefore, rfl⟩
  · rintro (rfl | ⟨_, rfl, before, after, rfl, _, rfl⟩)
    · exact ⟨[s], rest, rfl, by simp, by simp⟩
    · exact ⟨s :: before, after, rfl, by simp, by simp⟩

/-- A row with a first run that may be empty. -/
theorem ends_literalThen {run : Text} {rest : List Segment} {p : Text} :
    Ends (Segment.literalThen run rest) p ↔
      (run ≠ [] ∧ p = run) ∨ ∃ more, p = run ++ more ∧ Ends rest more := by
  by_cases h : run = []
  · subst h
    simp
  · rw [Segment.literalThen, if_neg h, ends_cons]
    simp [Segment.text, h]

/-- A row ends with its last segment. -/
theorem ends_spelled {segs : List Segment} (h : segs ≠ []) : Ends segs (spelled segs) :=
  ⟨segs, [], by simp, h, rfl⟩

/-! ### Breaks -/

/-- **Where some templates are broken**: at the end of a segment of one of them, or where two of
them part. -/
def IsBreak (templates : Text → Prop) (p : Text) : Prop :=
  (∃ template segs, templates template ∧ segments template = .ok segs ∧ Ends segs p) ∨
    ∃ template template', templates template ∧ templates template' ∧ template ≠ template' ∧
      Text.PartAfter template template' p

/-- A template goes on, if at all, behind each of its breaks. -/
theorem IsBreak.exists_prefix {templates : Text → Prop} {p : Text} (h : IsBreak templates p) :
    ∃ template, templates template ∧ p <+: template := by
  rcases h with ⟨template, segs, htemplate, hcut, before, after, rfl, _, rfl⟩ |
    ⟨template, _, htemplate, _, _, hpart⟩
  · refine ⟨template, htemplate, ?_⟩
    rw [← spelled_of_segments hcut, spelled, spelled, List.flatMap_append]
    exact List.prefix_append _ _
  · exact ⟨template, htemplate, hpart.left⟩

/-- The breaks of some templates and one more are those without it, the ends of its segments, and
the places where it parts from the others. -/
theorem isBreak_or_iff {templates : Text → Prop} {new : Text} {segs : List Segment}
    (hcut : segments new = .ok segs) {p : Text} :
    IsBreak (fun template => templates template ∨ template = new) p ↔
      IsBreak templates p ∨ Ends segs p ∨
        ∃ template, templates template ∧ template ≠ new ∧ Text.PartAfter template new p := by
  constructor
  · rintro (⟨template, segs', htemplate | rfl, hcut', hends⟩ |
      ⟨template, template', htemplate | rfl, htemplate' | rfl, hne, hpart⟩)
    · exact Or.inl (Or.inl ⟨template, segs', htemplate, hcut', hends⟩)
    · obtain rfl := Except.ok.inj (hcut.symm.trans hcut')
      exact Or.inr (Or.inl hends)
    · exact Or.inl (Or.inr ⟨template, template', htemplate, htemplate', hne, hpart⟩)
    · exact Or.inr (Or.inr ⟨template, htemplate, hne, hpart⟩)
    · refine Or.inr (Or.inr ⟨template', htemplate', hne.symm, ?_⟩)
      rw [Text.partAfter_iff, Text.shared_comm, ← Text.partAfter_iff]
      exact hpart
    · exact absurd rfl hne
  · rintro ((⟨template, segs', htemplate, hcut', hends⟩ |
      ⟨template, template', htemplate, htemplate', hne, hpart⟩) | hends |
      ⟨template, htemplate, hne, hpart⟩)
    · exact Or.inl ⟨template, segs', Or.inl htemplate, hcut', hends⟩
    · exact Or.inr ⟨template, template', Or.inl htemplate, Or.inl htemplate', hne, hpart⟩
    · exact Or.inl ⟨new, segs, Or.inr rfl, hcut, hends⟩
    · exact Or.inr ⟨template, new, Or.inl htemplate, Or.inr rfl, hne, hpart⟩

end Template

namespace Node

/-! ### Paths below a node -/

/-- **A node or one below it continues the path of a node by a text.** -/
def HasPath (n : Node H) (p : Text) : Prop :=
  ∃ segs d, n.Reach segs d ∧ Template.spelled segs = p

/-- **A text parts after `p` from the continuation of a path.** -/
def HasFork (n : Node H) (t p : Text) : Prop := ∃ q, n.HasPath q ∧ (Text.fork q t).shared = p

theorem hasPath_nil (n : Node H) : n.HasPath [] := ⟨[], n, .here n, rfl⟩

theorem hasPath_iff {n : Node H} {p : Text} : n.HasPath p ↔
    p = [] ∨ ∃ s c more, n.Branch s c ∧ p = s.text ++ more ∧ c.HasPath more := by
  constructor
  · rintro ⟨segs, d, hreach, rfl⟩
    cases hreach with
    | here => exact Or.inl rfl
    | step first rest => exact Or.inr ⟨_, _, _, first, by simp, _, d, rest, rfl⟩
  · rintro (rfl | ⟨s, c, _, first, rfl, segs, d, rest, rfl⟩)
    · exact n.hasPath_nil
    · exact ⟨s :: segs, d, .step first rest, by simp⟩

theorem hasPath_bare_iff {text path p : Text} {params : List Text} :
    (bare text path params : Node H).HasPath p ↔ p = [] := by
  rw [hasPath_iff]
  refine or_iff_left ?_
  rintro ⟨_, _, _, first, _⟩
  exact not_branch_bare first

theorem hasPath_congr {n m : Node H} (same : ∀ s c, m.Branch s c ↔ n.Branch s c) {p : Text} :
    m.HasPath p ↔ n.HasPath p := by
  rw [hasPath_iff, hasPath_iff (n := n)]
  simp only [same]

/-- A child more, and the paths below it. -/
theorem hasPath_insert {n m c : Node H} {s₀ : Segment}
    (hm : ∀ s d, m.Branch s d ↔ n.Branch s d ∨ s = s₀ ∧ d = c) {p : Text} :
    m.HasPath p ↔ n.HasPath p ∨ ∃ more, p = s₀.text ++ more ∧ c.HasPath more := by
  rw [hasPath_iff, hasPath_iff (n := n)]
  simp only [hm]
  grind

/-- Another child instead of one, and the paths below it besides. -/
theorem hasPath_exchange {n m c c' : Node H} {s₁ s₂ : Segment}
    {others : Segment → Node H → Prop} {p : Text} {new : Prop}
    (hn : ∀ s d, n.Branch s d ↔ others s d ∨ s = s₁ ∧ d = c)
    (hm : ∀ s d, m.Branch s d ↔ others s d ∨ s = s₂ ∧ d = c')
    (below : p = [] ∨ (∃ more, p = s₂.text ++ more ∧ c'.HasPath more) ↔
      (p = [] ∨ ∃ more, p = s₁.text ++ more ∧ c.HasPath more) ∨ new) :
    m.HasPath p ↔ n.HasPath p ∨ new := by
  rw [hasPath_iff, hasPath_iff (n := n)]
  simp only [hn, hm]
  grind

/-! ### Where a text parts from the paths -/

theorem hasFork_nil (n : Node H) (t : Text) : n.HasFork t [] := ⟨[], n.hasPath_nil, by simp⟩

/-- A text that no child takes parts from all paths at once. -/
theorem hasFork_of_apart {n : Node H} (hn : n.Valid) {t p : Text}
    (apart : ∀ s c, n.Branch s c → s.text.head? ≠ t.head?) : n.HasFork t p ↔ p = [] := by
  constructor
  · rintro ⟨q, hq, rfl⟩
    rcases hasPath_iff.1 hq with rfl | ⟨s, c, more, first, rfl, _⟩
    · simp
    · refine Text.shared_nil_of_head?_ne ?_
      rw [List.head?_append_of_ne_nil _ (hn.regular.proper first).ne_nil]
      exact apart s c first
  · rintro rfl
    exact n.hasFork_nil t

theorem hasFork_bare_iff {text path t p : Text} {params : List Text} :
    (bare text path params : Node H).HasFork t p ↔ p = [] :=
  hasFork_of_apart (valid_bare _ _ _) fun _ _ first => (not_branch_bare first).elim

/-- A text that begins with the segment of a child parts from the paths below the child. -/
theorem hasFork_of_branch {n c : Node H} (hn : n.Valid) {s : Segment} (first : n.Branch s c)
    {more p : Text} : n.HasFork (s.text ++ more) p ↔
      p = [] ∨ ∃ p', p = s.text ++ p' ∧ c.HasFork more p' := by
  have hs := (hn.regular.proper first).ne_nil
  constructor
  · rintro ⟨q, hq, rfl⟩
    rcases hasPath_iff.1 hq with rfl | ⟨s', c', q', first', rfl, hq'⟩
    · exact Or.inl (by simp)
    · by_cases head : s'.text.head? = s.text.head?
      · obtain ⟨rfl, rfl⟩ := hn.regular.branch_unique first' first head
        exact Or.inr ⟨_, Text.shared_append _ _ _, q', hq', rfl⟩
      · refine Or.inl (Text.shared_nil_of_head?_ne ?_)
        rwa [List.head?_append_of_ne_nil _ (hn.regular.proper first').ne_nil,
          List.head?_append_of_ne_nil _ hs]
  · rintro (rfl | ⟨_, rfl, q, hq, rfl⟩)
    · exact n.hasFork_nil _
    · exact ⟨s.text ++ q, hasPath_iff.2 (Or.inr ⟨s, c, q, first, rfl, hq⟩),
        Text.shared_append _ _ _⟩

/-- A text that leaves the segment of a child half way parts from the paths there, or at once. -/
theorem hasFork_of_split {n c : Node H} (hn : n.Valid) {keep tail t : Text}
    (first : n.Branch (.literal (keep ++ tail)) c) (kept : keep ≠ []) (cut : tail ≠ [])
    (parts : tail.head? ≠ t.head?) {p : Text} : n.HasFork (keep ++ t) p ↔ p = [] ∨ p = keep := by
  have hshared : ∀ q, (Text.fork (keep ++ tail ++ q) (keep ++ t)).shared = keep := by
    intro q
    have hhead : (tail ++ q).head? ≠ t.head? := by
      rwa [List.head?_append_of_ne_nil _ cut]
    rw [List.append_assoc, Text.fork_append _ _ _ (Or.inr hhead)]
  constructor
  · rintro ⟨q, hq, rfl⟩
    rcases hasPath_iff.1 hq with rfl | ⟨s, c', q', first', rfl, _⟩
    · exact Or.inl (by simp)
    · by_cases head : s.text.head? = keep.head?
      · have hkeep : (keep ++ tail).head? = keep.head? := List.head?_append_of_ne_nil _ kept
        obtain ⟨rfl, _⟩ := hn.regular.branch_unique first' first (head.trans hkeep.symm)
        exact Or.inr (hshared q')
      · refine Or.inl (Text.shared_nil_of_head?_ne ?_)
        rwa [List.head?_append_of_ne_nil _ (hn.regular.proper first').ne_nil,
          List.head?_append_of_ne_nil _ kept]
  · rintro (rfl | rfl)
    · exact n.hasFork_nil _
    · refine ⟨p ++ tail, hasPath_iff.2 (Or.inr ⟨_, c, [], first, by simp [Segment.text],
        c.hasPath_nil⟩), ?_⟩
      simpa using hshared []

/-! ### Paths after a way -/

/-- A split adds the path of its head. -/
theorem hasPath_split {c : Node H} {keep tail p : Text} (text : c.text = keep ++ tail) :
    (c.split keep.length).HasPath p ↔ p = [] ∨ ∃ more, p = tail ++ more ∧ c.HasPath more := by
  rw [hasPath_insert (branch_split text), hasPath_bare_iff]
  simp only [hasPath_congr branch_text, Segment.text]

/-- Where a run leaves a child half way, the text goes on otherwise than the child does. -/
theorem head?_ne_of_split {c : Node H} {keep tail more : Text} {rest : List Segment}
    (hc : (c.split keep.length).Valid) (text : c.text = keep ++ tail)
    (parts : tail.head? ≠ more.head?)
    (hlinked : Template.Linked (.literal (keep ++ more) :: rest))
    (hparted : Template.Parted (.literal (keep ++ more) :: rest)) {s : Segment} {d : Node H}
    (first : (c.split keep.length).Branch s d) :
    s.text.head? ≠ (more ++ Template.spelled rest).head? := by
  have hfree := free_split text parts (Template.parted_cons.1 hparted).1
  have honward := hlinked.literalThen
  rw [← Template.spelled_literalThen]
  cases hsegs : Segment.literalThen more rest with
  | nil =>
      obtain ⟨x, t, ht⟩ := List.exists_cons_of_ne_nil (hc.regular.proper first).ne_nil
      simp [ht]
  | cons s' segs =>
      rw [hsegs] at hfree honward
      have proper := (Template.linked_cons.1 honward).1
      rw [Template.spelled_cons, List.head?_append_of_ne_nil _ proper.ne_nil]
      exact (hfree s' rfl).head?_ne hc proper first

/-- Where a run leaves a child half way, the text parts there from the paths below the node, and at
once from those below the head of the child. -/
theorem hasFork_split {n c : Node H} {keep tail more : Text} {rest : List Segment} (hn : n.Valid)
    (first : n.Branch (.literal c.text) c) (hsplit : (c.split keep.length).Valid)
    (text : c.text = keep ++ tail) (kept : keep ≠ []) (cut : tail ≠ [])
    (parts : tail.head? ≠ more.head?)
    (hlinked : Template.Linked (.literal (keep ++ more) :: rest))
    (hparted : Template.Parted (.literal (keep ++ more) :: rest)) :
    (∀ p, n.HasFork (Template.spelled (.literal (keep ++ more) :: rest)) p ↔ p = [] ∨ p = keep) ∧
      ∀ p, (c.split keep.length).HasFork (Template.spelled (Segment.literalThen more rest)) p ↔
        p = [] := by
  have hapart : ∀ s d, (c.split keep.length).Branch s d →
      s.text.head? ≠ (more ++ Template.spelled rest).head? := fun _ _ first =>
    head?_ne_of_split hsplit text parts hlinked hparted first
  refine ⟨fun p => ?_, fun p => ?_⟩
  · rw [Template.spelled_cons, Segment.text, List.append_assoc]
    exact hasFork_of_split hn (text ▸ first) kept cut
      (hapart _ _ ((branch_split text _ _).2 (Or.inr ⟨rfl, rfl⟩)))
  · rw [Template.spelled_literalThen]
    exact hasFork_of_apart hsplit hapart

variable {visit : Node H → Node H × α}

/-- **The paths after a way** are those before it, the ends of its segments, and the texts after
which it parts from a path. -/
theorem Brought.hasPath_iff (keeps : KeepsShape visit) {n n' : Node H} {segs : List Segment}
    {a : α} {es : List Event} (h : Brought visit n segs n' a es) (hn : n.Valid)
    (hlinked : Template.Linked segs) (hparted : Template.Parted segs) {p : Text} :
    n'.HasPath p ↔
      n.HasPath p ∨ Template.Ends segs p ∨ n.HasFork (Template.spelled segs) p := by
  induction h generalizing p with
  | here n =>
      rw [keeps n, hasPath_congr fun s d => branch_routes]
      have hfork : n.HasFork (Template.spelled []) p → n.HasPath p := by
        rintro ⟨q, _, rfl⟩
        simpa using n.hasPath_nil
      simpa [Template.not_ends_nil] using hfork
  | @fresh n c s₀ rest a free onward ih =>
      have htext := (onward.frame keeps).1
      obtain ⟨proper, _, hrest⟩ := Template.linked_cons.1 hlinked
      have hbelow := @ih (valid_bare _ _ _) hrest (Template.parted_cons.1 hparted).2
      have hfork : n.HasFork (Template.spelled (s₀ :: rest)) p ↔ p = [] := by
        refine hasFork_of_apart hn fun s c first => ?_
        rw [Template.spelled_cons, List.head?_append_of_ne_nil _ proper.ne_nil]
        exact free.head?_ne hn proper first
      have hchild : ∀ m, c.HasPath m ↔ m = [] ∨ Template.Ends rest m := by
        intro m
        rw [hbelow, child, hasPath_bare_iff, hasFork_bare_iff, or_comm (b := m = []), or_self_left]
      rw [hasPath_insert (branch_attach_of_free free htext), hfork, Template.ends_cons]
      have hnil : p = [] → n.HasPath p := by
        rintro rfl
        exact n.hasPath_nil
      simp only [hchild]
      grind
  | @shared n c c' before after more rest a es among nonempty onward ih =>
      have htext := (onward.frame keeps).1
      have first : n.Branch (.literal c.text) c := .literal (by simp [among])
      obtain ⟨others, hbefore, hafter⟩ := branch_exchange_literal among c'
      rw [htext] at hafter
      have hbelow := @ih (hn.branch first) hlinked.literalThen (hparted.literalThen more)
      have hfork : n.HasFork (Template.spelled (.literal (c.text ++ more) :: rest)) p ↔
          p = [] ∨ ∃ p', p = c.text ++ p' ∧ c.HasFork (more ++ Template.spelled rest) p' := by
        rw [Template.spelled_cons, Segment.text, List.append_assoc]
        exact hasFork_of_branch hn first
      refine hasPath_exchange hbefore hafter ?_
      rw [hfork, Template.ends_cons]
      simp only [hbelow, Template.spelled_literalThen, Template.ends_literalThen, Segment.text]
      have hnil := c.hasPath_nil
      grind
  | @split n c c' before after keep tail more rest a among text kept cut parts onward ih =>
      have htext := (onward.frame keeps).1
      have first : n.Branch (.literal c.text) c := .literal (by simp [among])
      have hproper := hn.regular.proper first
      have hpath := hn.regular.path first
      have hsplit := valid_split (hn.branch first) hproper text cut hpath
      obtain ⟨others, hbefore, hafter⟩ := branch_exchange_literal among c'
      rw [htext, split_text text] at hafter
      have hbelow := @ih hsplit hlinked.literalThen (hparted.literalThen more)
      obtain ⟨hfork, hfork'⟩ := hasFork_split hn first hsplit text kept cut parts hlinked hparted
      refine hasPath_exchange hbefore hafter ?_
      rw [hfork, Template.ends_cons]
      simp only [hbelow, hfork', hasPath_split text, Template.ends_literalThen, Segment.text, text]
      have hnil := c.hasPath_nil
      grind
  | @placed n c c' s₀ rest a es place same onward ih =>
      have htext := (onward.frame keeps).1.trans same
      have first := branch_of_place place same
      obtain ⟨others, hbefore, hafter⟩ := branch_exchange_place place same htext
      have hbelow := @ih (hn.branch first) (Template.linked_cons.1 hlinked).2.2
        (Template.parted_cons.1 hparted).2
      refine hasPath_exchange hbefore hafter ?_
      rw [Template.spelled_cons, hasFork_of_branch hn first, Template.ends_cons]
      simp only [hbelow]
      have hnil := c.hasPath_nil
      grind

/-- If the paths are the breaks of some templates, a text parts from them where it parts from a
template, or at a path. -/
theorem hasPath_or_hasFork_iff {n : Node H} {templates : Text → Prop} {new : Text}
    (paths : ∀ p, n.HasPath p ↔ p = [] ∨ Template.IsBreak templates p)
    (ends : ∀ template, templates template → Template.IsBreak templates template) {p : Text} :
    n.HasPath p ∨ n.HasFork new p ↔
      n.HasPath p ∨ ∃ old, templates old ∧ old ≠ new ∧ Text.PartAfter old new p := by
  constructor
  · rintro (hp | ⟨q, hq, rfl⟩)
    · exact Or.inl hp
    · by_cases hprefix : q <+: new
      · rw [Text.shared_of_prefix hprefix]
        exact Or.inl hq
      · -- some template goes on behind the path, and parts from the text where the path does
        rcases (paths q).1 hq with rfl | hbreak
        · exact absurd List.nil_prefix hprefix
        · obtain ⟨_, hold, more, rfl⟩ := hbreak.exists_prefix
          refine Or.inr ⟨_, hold, ?_, ?_⟩
          · rintro rfl
            exact hprefix (List.prefix_append _ _)
          · rw [Text.partAfter_iff, Text.shared_of_not_prefix hprefix]
  · rintro (hp | ⟨old, hold, _, hpart⟩)
    · exact Or.inl hp
    · exact Or.inr ⟨old, (paths old).2 (Or.inr (ends old hold)), Text.partAfter_iff.1 hpart⟩

end Node

namespace Tree

/-! ### Paths in the tree of a history -/

/-- A registration that succeeds adds the ends of the segments of its template, and the texts after
which the template parts from a path. -/
theorem Placed.hasPath_iff {t : Tree H} (ht : t.Sound) {template : Text} {handler : H}
    {verbs : List Verb} {g : Registration H} (h : t.Placed template handler verbs g)
    {segs : List Segment} (hcut : Template.segments template = .ok segs) {p : Text} :
    g.tree.root.HasPath p ↔
      t.root.HasPath p ∨ Template.Ends segs p ∨ t.root.HasFork template p := by
  obtain ⟨segs', root, params, splits, hcut', hbrought, rfl⟩ := h
  obtain rfl := Except.ok.inj (hcut.symm.trans hcut')
  rw [hbrought.hasPath_iff (Node.keepsShape_register template handler verbs) ht.valid
    (Template.linked_of_segments hcut) (Template.parted_of_segments hcut),
    Template.spelled_of_segments hcut]

/-- An admitted template begins with a slash and can be cut. -/
theorem exists_segments_of_admitted {calls : List (Call H)} {template : Text}
    (h : Admitted calls template) : template.head? = some '/' ∧
      ∃ segs, Template.segments template = .ok segs := by
  obtain ⟨before, call, after, rfl, htemplate, hok⟩ := h
  rcases (empty.run before).serve_cases call with
    hrefused | rfl | ⟨template', _, _, slash, htemplate', _, _, segs, _, _, _, hcut, _⟩
  · obtain ⟨error, warnings, hg, _⟩ := hrefused
    rw [hg] at hok
    cases hok
  · cases htemplate
  · obtain rfl := Option.some.inj (htemplate.symm.trans htemplate')
    exact ⟨slash, segs, hcut⟩

/-- Templates are broken at their ends. -/
theorem isBreak_of_admitted {calls : List (Call H)} {template : Text}
    (h : Admitted calls template) : Template.IsBreak (Admitted calls) template := by
  obtain ⟨slash, segs, hcut⟩ := exists_segments_of_admitted h
  have hspelled := Template.spelled_of_segments hcut
  have hne : segs ≠ [] := by
    rintro rfl
    rw [← hspelled] at slash
    cases slash
  exact Or.inl ⟨template, segs, h, hcut, hspelled ▸ Template.ends_spelled hne⟩

/-- **The paths in the tree that a history leaves are the breaks of the admitted templates**, and
the empty path of the root. -/
theorem hasPath_run_iff {calls : List (Call H)} {p : Text} :
    (empty.run calls).root.HasPath p ↔ p = [] ∨ Template.IsBreak (Admitted calls) p := by
  induction calls using List.reverseRecOn generalizing p with
  | nil =>
      have hno : ¬ Template.IsBreak (Admitted ([] : List (Call H))) p := by
        intro h
        obtain ⟨template, htemplate, _⟩ := h.exists_prefix
        exact not_admitted_nil htemplate
      rw [or_iff_left hno]
      exact Node.hasPath_bare_iff
  | append_singleton calls call ih =>
      rw [run_append, run_cons, run_nil]
      rcases (empty.run calls).serve_cases call with
        hrefused | rfl | ⟨template, _, _, _, htemplate, _, _, hplaced⟩
      · have htree := hrefused.tree_eq
        obtain ⟨error, warnings, hg, _⟩ := hrefused
        have hsame : Admitted (calls ++ [call]) = Admitted calls := by
          funext template
          simp [admitted_concat, hg]
        rw [htree, hsame, ih]
      · have hsame : Admitted (calls ++ [.sealing]) = Admitted calls := by
          funext template
          simp [admitted_concat, Call.template?]
        rw [hsame, ← ih]
        rfl
      · have hmore : Admitted (calls ++ [call]) =
            fun old => Admitted calls old ∨ old = template := by
          funext old
          simp [admitted_concat, htemplate, hplaced.outcome_eq, eq_comm]
        obtain ⟨segs, hcut⟩ : ∃ segs, Template.segments template = .ok segs := by
          obtain ⟨segs, _, _, _, hcut, _⟩ := hplaced
          exact ⟨segs, hcut⟩
        have hforks := @Node.hasPath_or_hasFork_iff _ _ _ template (fun _ => ih)
          (fun _ => isBreak_of_admitted) p
        rw [hplaced.hasPath_iff (run_sound calls) hcut, hmore, Template.isBreak_or_iff hcut,
          or_left_comm, hforks, or_left_comm, ih, or_assoc]

end Tree

end RouteTree
