/-
**What bringing a template into a tree does, one segment at a time.**

Following segments below a node takes one of few steps: a segment for which there is no child
grows a fresh one, a literal run that begins with the text of a child goes on below that child, a
run that leaves a child half way splits it and goes on at its head, and a placeholder goes on at
the child in its place if that has the same name.  `Node.Brought` says what these steps lead to
when the way is free to its end.

The way may be barred below a node that was there before, but never below one that was made on
the way: a fresh node and the head of a split have nothing that could bar it.  So the whole way is
free, or nothing has been changed.  For the same reason a visit can only be refused at a node that
was there before, and to which the segments led without a change.

Main definitions:

* `Node.place?`, `Node.Free` — the place of a placeholder, and that nothing takes a segment yet;
* `Node.Leads` — segments lead from a node to another one through nodes that are there;
* `Node.Brought` — some segments have been followed below a node to a visit;
* `Insertion.Follows` — an attempt that was brought to its end, or left everything as it was.

Main results:

* `Node.insert_follows` — **an insertion is brought to its end or changes nothing**;
* `Node.Brought.answer_of_free` — the visit at the end of a fresh branch finds no routes;
* `Node.Brought.eq_of_refused` — a visit that refuses leaves everything as it was, too, and the
  segments led to it before.
-/
import RouteTree.Proofs.Reach
import RouteTree.Tree.Insertion

set_option autoImplicit false
set_option relaxedAutoImplicit false

namespace RouteTree

/-! ### Where texts part -/

namespace Text

/-- After the shared beginning, two texts go on differently or one of them ends. -/
theorem fork_parts (s t : Text) :
    (fork s t).left = [] ∨ (fork s t).left.head? ≠ (fork s t).right.head? := by
  induction s generalizing t with
  | nil => simp
  | cons a s ih =>
      cases t with
      | nil => simp
      | cons b t =>
          by_cases h : a = b
          · simpa [fork, h] using ih t
          · simp [fork, h]

/-- Texts that share no beginning differ in their first characters. -/
theorem head?_ne_of_shared_nil {s t : Text} (h : (fork s t).shared = []) (hs : s ≠ []) :
    s.head? ≠ t.head? := by
  have hl := fork_left s t
  have hr := fork_right s t
  rw [h, List.nil_append] at hl hr
  have hparts := fork_parts s t
  rw [hl, hr] at hparts
  exact hparts.resolve_left hs

/-- A beginning that two texts are built on is shared by them. -/
theorem shared_append (s t u : Text) :
    (fork (s ++ t) (s ++ u)).shared = s ++ (fork t u).shared := by
  induction s with
  | nil => rfl
  | cons a s ih => simp [fork, ih]

/-- Texts are followed to where they part. -/
theorem fork_append (s t u : Text) (h : t = [] ∨ t.head? ≠ u.head?) :
    fork (s ++ t) (s ++ u) = ⟨s, t, u⟩ := by
  induction s with
  | nil =>
      cases t with
      | nil => simp
      | cons a t =>
          cases u with
          | nil => simp
          | cons b u =>
              have hab : a ≠ b := fun hab => (h.resolve_left (by simp)) (congrArg some hab)
              simp [fork, hab]
  | cons a s ih => simp [fork, ih]

/-- Texts with different first characters share no beginning. -/
theorem shared_nil_of_head?_ne {s t : Text} (h : s.head? ≠ t.head?) : (fork s t).shared = [] :=
  congrArg Fork.shared (fork_append [] s t (Or.inr h))

end Text

namespace Node

variable {H α : Type}

/-! ### Steps -/

/-- The child in the place of a placeholder.  A literal run has no place of its own. -/
def place? (n : Node H) : Segment → Option (Node H)
  | .literal _ => none
  | .param _ => n.param
  | .wildcard _ => n.wildcard

/-- No child takes a segment, or a first part of it. -/
def Free (n : Node H) : Segment → Prop
  | .literal run => ∀ c ∈ n.literals, (Text.fork c.text run).shared = []
  | .param _ => n.param = none
  | .wildcard _ => n.wildcard = none

/-- **Some segments lead from a node to another one**, through nodes that are there. -/
inductive Leads : Node H → List Segment → Node H → Prop
  | here (n : Node H) : Leads n [] n
  | shared {n c d : Node H} {more : Text} {rest : List Segment} (among : c ∈ n.literals)
      (nonempty : c.text ≠ []) (onward : Leads c (Segment.literalThen more rest) d) :
      Leads n (.literal (c.text ++ more) :: rest) d
  | placed {n c d : Node H} {s : Segment} {rest : List Segment} (place : n.place? s = some c)
      (same : c.text = s.text) (onward : Leads c rest d) : Leads n (s :: rest) d

/-- **Segments have been followed below a node up to a visit**: the node as it is afterwards, the
answer of the visit, and the splits on the way. -/
inductive Brought (visit : Node H → Node H × α) :
    Node H → List Segment → Node H → α → List Event → Prop
  /-- The way ends here. -/
  | here (n : Node H) : Brought visit n [] (visit n).1 (visit n).2 []
  /-- A fresh child is made, and the way goes on there. -/
  | fresh {n c : Node H} {s : Segment} {rest : List Segment} {a : α} (free : n.Free s)
      (onward : Brought visit (n.child s) rest c a []) :
      Brought visit n (s :: rest) (n.attach s c) a []
  /-- A run begins with the text of a child, and the way goes on there. -/
  | shared {n c c' : Node H} {before after : List (Node H)} {more : Text} {rest : List Segment}
      {a : α} {es : List Event} (among : n.literals = before ++ c :: after)
      (nonempty : c.text ≠ [])
      (onward : Brought visit c (Segment.literalThen more rest) c' a es) :
      Brought visit n (.literal (c.text ++ more) :: rest)
        { n with literals := before ++ c' :: after } a es
  /-- A run leaves the text of a child half way.  The child is split there, and the way goes on at
  its head. -/
  | split {n c c' : Node H} {before after : List (Node H)} {keep tail more : Text}
      {rest : List Segment} {a : α} (among : n.literals = before ++ c :: after)
      (text : c.text = keep ++ tail) (kept : keep ≠ []) (cut : tail ≠ [])
      (parts : tail.head? ≠ more.head?)
      (onward : Brought visit (c.split keep.length) (Segment.literalThen more rest) c' a []) :
      Brought visit n (.literal (keep ++ more) :: rest)
        { n with literals := before ++ c' :: after } a [.nodeSplit c.path keep tail]
  /-- The place of a placeholder holds a child of its name, and the way goes on there. -/
  | placed {n c c' : Node H} {s : Segment} {rest : List Segment} {a : α} {es : List Event}
      (place : n.place? s = some c) (same : c.text = s.text)
      (onward : Brought visit c rest c' a es) :
      Brought visit n (s :: rest) (n.attach s c') a es

end Node

/-- An attempt that was brought to its end, or that left everything as it was. -/
def Insertion.Follows {H α : Type} (visit : Node H → Node H × α) (n : Node H)
    (segs : List Segment) (i : Insertion (Node H) α) : Prop :=
  match i.outcome with
  | .error _ => i.result = n ∧ i.events = []
  | .ok a => Node.Brought visit n segs i.result a i.events

namespace Node

variable {H α : Type} {visit : Node H → Node H × α}

/-- An attempt below a child is one below its parent, with the child put back. -/
theorem follows_map (put : Node H → Node H) {n c : Node H} {segs segs' : List Segment}
    {i : Insertion (Node H) α} (h : i.Follows visit c segs) (back : put c = n)
    (onward : ∀ c' a es, Brought visit c segs c' a es → Brought visit n segs' (put c') a es) :
    (i.map put).Follows visit n segs' := by
  obtain ⟨result, outcome, events⟩ := i
  cases outcome with
  | error e =>
      obtain ⟨rfl, hevents⟩ := h
      exact ⟨back, hevents⟩
  | ok a => exact onward _ _ _ h

/-- Putting the literal children back changes nothing. -/
theorem with_literals {n : Node H} {cs : List (Node H)} (h : n.literals = cs) :
    { n with literals := cs } = n := by
  subst h
  cases n
  rfl

/-- Putting the child of a placeholder back changes nothing. -/
theorem attach_place {n c : Node H} {s : Segment} (h : n.place? s = some c) :
    n.attach s c = n := by
  cases n
  cases s with
  | literal run => cases h
  | param name => simpa [attach, place?] using h.symm
  | wildcard name => simpa [attach, place?] using h.symm

/-! ### Fresh branches -/

/-- Nothing takes a segment below a fresh child. -/
theorem free_child (n : Node H) (s s' : Segment) : (n.child s).Free s' := by
  cases s' with
  | literal run =>
      intro c hc
      cases hc
  | param name => rfl
  | wildcard name => rfl

/-- Nothing takes a segment below the head of a split where the ways part. -/
theorem free_split {c : Node H} {keep tail more : Text} {rest : List Segment}
    (text : c.text = keep ++ tail) (parts : tail.head? ≠ more.head?)
    (hrest : ∀ s ∈ rest.head?, (Segment.literal (keep ++ more)).Parts s) :
    ∀ s ∈ (Segment.literalThen more rest).head?, (c.split keep.length).Free s := by
  intro s hs
  by_cases hmore : more = []
  · subst hmore
    have hpart := hrest s (by simpa using hs)
    cases s with
    | literal run => exact hpart.elim
    | param name => rfl
    | wildcard name => rfl
  · rw [Segment.literalThen, if_neg hmore] at hs
    obtain rfl := Option.some.inj hs
    intro d hd
    have htail : d.text = tail := by
      simp only [split, List.mem_singleton] at hd
      simp [hd, text]
    exact Text.shared_nil_of_head?_ne (by rwa [htail])

/-- Growing takes the steps for a way on which everything is fresh. -/
theorem brought_grow {n : Node H} {segs : List Segment} (free : ∀ s ∈ segs.head?, n.Free s) :
    Brought visit n segs (grow visit n segs).1 (grow visit n segs).2 [] := by
  induction segs generalizing n with
  | nil => exact .here n
  | cons s rest ih => exact .fresh (free s rfl) (ih fun s' _ => free_child n s s')

/-! ### The whole way -/

/-- Following a run, and then further segments, among the literal children. -/
theorem insertLiteral_follows {template run : Text} {rest : List Segment} {n : Node H}
    (ih : ∀ c ∈ n.literals, ∀ segs, Template.Parted segs →
      (c.insert template visit segs).Follows visit c segs)
    (hsegs : Template.Parted (.literal run :: rest)) (before : List (Node H)) {cs : List (Node H)}
    (among : n.literals = before ++ cs)
    (free : ∀ c ∈ before, (Text.fork c.text run).shared = []) :
    ((insertLiteral template visit n cs run rest).map
      fun cs => { n with literals := before ++ cs }).Follows visit n (.literal run :: rest) := by
  induction cs generalizing before with
  | nil =>
      rw [List.append_nil] at among
      subst among
      rw [insertLiteral]
      exact Brought.fresh (s := .literal run) free
        (brought_grow fun s _ => free_child n (.literal run) s)
  | cons c cs ihcs =>
      have hleft := Text.fork_left c.text run
      have hright := Text.fork_right c.text run
      have hparts := Text.fork_parts c.text run
      have hback := with_literals among
      rw [insertLiteral]
      rcases hfork : Text.fork c.text run with ⟨_ | ⟨x, keep⟩, left, more⟩
      · -- this child has no part in the run
        have hfree : ∀ b ∈ before ++ [c], (Text.fork b.text run).shared = [] := by
          intro b hb
          rcases List.mem_append.1 hb with hb | hb
          · exact free b hb
          · rw [List.mem_singleton.1 hb, hfork]
        have h := ihcs (before ++ [c]) (by simp [among]) hfree
        simpa [Insertion.map] using h
      · rw [hfork] at hleft hright hparts
        cases left with
        | nil =>
            -- the run begins with the text of this child
            have htext : c.text = x :: keep := by simpa using hleft.symm
            obtain rfl : run = c.text ++ more := by rw [htext]; exact hright.symm
            have hc := ih c (by simp [among]) _ (hsegs.literalThen more)
            exact follows_map _ hc hback fun c' a es h =>
              .shared among (by simp [htext]) h
        | cons y tail =>
            -- the run leaves this child half way
            obtain rfl : run = (x :: keep) ++ more := hright.symm
            have hne := hparts.resolve_left (by simp)
            have hfree := free_split hleft.symm hne (Template.parted_cons.1 hsegs).1
            exact Brought.split among hleft.symm (by simp) (by simp) hne (brought_grow hfree)

/-- Following a placeholder, and then further segments, through its place. -/
theorem insertPlaced_follows {template : Text} {n : Node H} {s : Segment} {rest : List Segment}
    {put : Option (Node H) → Node H} (hput : ∀ c, put (some c) = n.attach s c)
    (free : n.place? s = none → n.Free s)
    (ih : ∀ c, n.place? s = some c → (c.insert template visit rest).Follows visit c rest) :
    ((insertPlaced template visit n s (n.place? s) rest).map put).Follows visit n
      (s :: rest) := by
  cases hplace : n.place? s with
  | none =>
      have hgrow : Brought visit (n.child s) rest _ _ [] :=
        brought_grow fun s' _ => free_child n s s'
      have h := Brought.fresh (free hplace) hgrow
      rw [← hput] at h
      rw [insertPlaced]
      exact h
  | some c =>
      have back : put (some c) = n := (hput c).trans (attach_place hplace)
      rw [insertPlaced]
      split
      · rename_i same
        refine follows_map (fun c => put (some c)) (ih c hplace) back fun c' a es h => ?_
        rw [hput]
        exact .placed hplace same h
      · exact ⟨back, rfl⟩

/-- **An insertion is brought to its end or changes nothing.** -/
theorem insert_follows (template : Text) (visit : Node H → Node H × α) (n : Node H)
    {segs : List Segment} (hsegs : Template.Parted segs) :
    (n.insert template visit segs).Follows visit n segs := by
  induction n using Node.induction generalizing segs with
  | step n ih =>
      cases segs with
      | nil =>
          rw [insert_nil]
          exact .here n
      | cons s rest =>
          have hrest := (Template.parted_cons.1 hsegs).2
          cases s with
          | literal run =>
              rw [insert_literal]
              exact insertLiteral_follows (fun c hc segs hs => ih _ c (.literal hc) hs) hsegs []
                rfl (by simp)
          | param name =>
              rw [insert_param]
              exact insertPlaced_follows (s := .param name) (fun _ => rfl) id
                fun c hc => ih _ c (.param hc) hrest
          | wildcard name =>
              rw [insert_wildcard]
              exact insertPlaced_follows (s := .wildcard name) (fun _ => rfl) id
                fun c hc => ih _ c (.wildcard hc) hrest

/-! ### Visits that refuse -/

/-- Where nothing bars the way and no routes are, the visit at its end finds no routes. -/
theorem Brought.answer_of_free {n n' : Node H} {segs : List Segment} {a : α} {es : List Event}
    (h : Brought visit n segs n' a es) (free : ∀ s ∈ segs.head?, n.Free s)
    (bare : n.routes = fun _ => none) : ∃ d, (d.routes = fun _ => none) ∧ (visit d).2 = a := by
  induction h with
  | here n => exact ⟨n, bare, rfl⟩
  | @fresh n _ s _ _ _ _ ih => exact ih (fun s' _ => free_child n s s') rfl
  | @shared _ c _ _ _ more _ _ _ among nonempty _ _ =>
      -- a run that is free shares nothing with any child, so it cannot go on below one
      have hc := free _ rfl c (by simp [among])
      have hshared := Text.shared_append c.text [] more
      rw [List.append_nil, hc] at hshared
      exact absurd (List.append_eq_nil_iff.1 hshared.symm).1 nonempty
  | @split _ c _ _ _ keep tail more _ _ among text kept _ _ _ _ =>
      have hc := free _ rfl c (by simp [among])
      rw [text, Text.shared_append keep tail more] at hc
      exact absurd (List.append_eq_nil_iff.1 hc).1 kept
  | @placed _ _ _ s _ _ _ place _ _ _ =>
      have hs := free _ rfl
      cases s with
      | literal run => cases place
      | param name => exact absurd (hs.symm.trans place) (by simp)
      | wildcard name => exact absurd (hs.symm.trans place) (by simp)

/-- **A visit that refuses leaves the whole tree as it was**, if it changes nothing itself and
never refuses a node without routes: then nothing has been made on the way to it, and the way led
to it already. -/
theorem Brought.eq_of_refused {n n' : Node H} {segs : List Segment} {a : α} {es : List Event}
    (h : Brought visit n segs n' a es) (refusal : α → Prop)
    (fresh : ∀ d, (d.routes = fun _ => none) → ¬ refusal (visit d).2)
    (keeps : ∀ d, refusal (visit d).2 → (visit d).1 = d) (hsegs : Template.Parted segs)
    (refused : refusal a) : n' = n ∧ es = [] ∧ ∃ d, n.Leads segs d ∧ (visit d).2 = a := by
  induction h with
  | here n => exact ⟨keeps n refused, rfl, n, .here n, rfl⟩
  | @fresh n _ s _ _ _ onward _ =>
      -- below a fresh child the way is free to a node without routes, which is not refused
      obtain ⟨d, hd, rfl⟩ := onward.answer_of_free (fun s' _ => free_child n s s') rfl
      exact absurd refused (fresh d hd)
  | shared among nonempty _ ih =>
      obtain ⟨rfl, hes, d, hleads, hd⟩ := ih (hsegs.literalThen _) refused
      exact ⟨with_literals among, hes, d, .shared (by simp [among]) nonempty hleads, hd⟩
  | split among text _ _ parts onward _ =>
      -- the same below the head of a split, because the run parts there from the old text
      have hfree := free_split text parts (Template.parted_cons.1 hsegs).1
      obtain ⟨d, hd, rfl⟩ := onward.answer_of_free hfree rfl
      exact absurd refused (fresh d hd)
  | placed place same _ ih =>
      obtain ⟨rfl, hes, d, hleads, hd⟩ := ih (Template.parted_cons.1 hsegs).2 refused
      exact ⟨attach_place place, hes, d, .placed place same hleads, hd⟩

end Node

end RouteTree
