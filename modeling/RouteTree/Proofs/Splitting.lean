/-
**A split does not show.**

The text of a literal node can be cut between any two of its characters.  A path then goes through
two nodes where it went through one, the routes and the children hang on another node, and a chance
for a slash that was noted at one place is noted at another.  Nothing of this is seen from outside:
every look-up has the answer that it had, with the same values, and the routes are listed as before.

Main definitions:

* `Node.Recut` — **one literal node below a node has been cut in two**;
* `Store.split?` — cutting a cell of a store in two;
* `Store.SplitAs` — what a split leaves of a store.

Main results:

* `Node.lookupLiteral_split` — the two parts of a child answer as the child did;
* `Node.Recut.answer_eq`, `Node.Recut.listing_eq` — a cut changes no answer and no listing;
* `Arena.exists_recut` — a split in an arena cuts a node of the tree that it lays out;
* `Store.exists_run_splits` — **whatever cell is split after a history, the answers stay**.
-/
import RouteTree.Proofs.ArenaOrder
import RouteTree.Proofs.ArenaWalk
import RouteTree.Proofs.Buffers
import RouteTree.Proofs.ByteArena
import RouteTree.Proofs.ByteLookup
import RouteTree.Proofs.Tally

set_option autoImplicit false
set_option relaxedAutoImplicit false

namespace RouteTree

variable {H : Type}

/-- A search that meets nothing leaves the answer to the next one. -/
theorem Lookup.orElse_of_nothing (values : Values) (next : Values → Lookup H × Values) :
    orElse (.miss false, values) next = next values := by
  rcases h : next values with ⟨r | toggled, after⟩ <;> simp [orElse, h]

/-- A search that meets nothing adds nothing to the answer of the one before. -/
theorem Lookup.orElse_nothing (first : Lookup H × Values) :
    orElse first (fun values => (.miss false, values)) = first := by
  rcases first with ⟨r | toggled, after⟩ <;> simp [orElse]

namespace Node

/-! ### Answers of the two parts -/

section Answers

variable {m : Method} {c : Node H} {keep tail rest : Text} {values : Values}

/-- A path is not followed into literal children that begin with other characters. -/
theorem lookupLiteral_of_apart {cs : List (Node H)} (texts : ∀ d ∈ cs, d.text ≠ [])
    (apart : ∀ d ∈ cs, d.text.head? ≠ rest.head?) (hrest : rest ≠ []) :
    lookupLiteral m cs rest values = (.miss false, values) := by
  induction cs with
  | nil => rw [lookupLiteral]
  | cons d cs ih =>
      have hd := texts d List.mem_cons_self
      have hhead := apart d List.mem_cons_self
      have hafter : Text.after? d.text rest = none := by
        refine Option.eq_none_iff_forall_ne_some.2 ?_
        intro more hmore
        rw [Text.after?_eq_some_iff.1 hmore, List.head?_append_of_ne_nil _ hd] at hhead
        exact hhead rfl
      have hslash : d.text ≠ rest ++ ['/'] := by
        intro heq
        rw [heq, List.head?_append_of_ne_nil _ hrest] at hhead
        exact hhead rfl
      rw [lookupLiteral_cons_of_none hafter, if_neg hslash]
      exact ih (fun e he => texts e (List.mem_cons_of_mem _ he))
        fun e he => apart e (List.mem_cons_of_mem _ he)

/-- Children in front of others do not matter for a difference among those. -/
theorem lookupLiteral_congr (before : List (Node H)) {cs cs' : List (Node H)}
    (same : lookupLiteral m cs' rest values = lookupLiteral m cs rest values) :
    lookupLiteral m (before ++ cs') rest values = lookupLiteral m (before ++ cs) rest values := by
  induction before with
  | nil => exact same
  | cons b before ih =>
      rw [List.cons_append, List.cons_append]
      cases hafter : Text.after? b.text rest with
      | some more =>
          obtain rfl := Text.after?_eq_some_iff.1 hafter
          rw [lookupLiteral_cons_append, lookupLiteral_cons_append]
      | none => rw [lookupLiteral_cons_of_none hafter, lookupLiteral_cons_of_none hafter, ih]

/-- Only its text distinguishes the tail of a split from what was split. -/
theorem answer_text (text : Text) (rest : Text) (values : Values) :
    answer m { c with text } rest values = c.answer m rest values := by
  unfold answer
  rw [lookup_eq, lookup_eq m c]
  rfl

/-- The head of a split has no route. -/
theorem route?_split (c : Node H) (k : Nat) (m : Method) : (c.split k).route? m = none := by
  cases h : m.verb? <;> simp [route?, split, bare, h]

/-- A path that ends at the head of a split has no route. -/
theorem endRoute?_split (c : Node H) (k : Nat) (m : Method) : (c.split k).endRoute? m = none := by
  rw [endRoute?, route?_split]
  rfl

theorem routesAtEnd_split (c : Node H) (k : Nat) (m : Method) :
    (c.split k).routesAtEnd m = false := by
  rw [routesAtEnd, endRoute?_split]
  rfl

/-- A path that ends at the head of a split may have a route with a slash, if that is the tail. -/
theorem lookupEnd_split (text : c.text = keep ++ tail) :
    (c.split keep.length).lookupEnd m values =
      (.miss (decide (tail = ['/']) && c.routesAtEnd m), values) := by
  have hslash : (c.split keep.length).routesAfterSlash m =
      (decide (tail = ['/']) && c.routesAtEnd m) := by
    simp only [routesAfterSlash, split, text, List.drop_left, List.any_cons, List.any_nil,
      Bool.or_false]
    rfl
  rw [lookupEnd, endRoute?_split, hslash]

/-- Below the head of a split a path goes on in the tail only. -/
theorem lookup_split (text : c.text = keep ++ tail) :
    (c.split keep.length).lookup m rest values =
      lookupLiteral m [{ c with text := tail }] rest values := by
  have hliterals : (c.split keep.length).literals = [{ c with text := tail }] := by
    simp [split, text]
  have hparam : (c.split keep.length).param = none := rfl
  have hwildcard : (c.split keep.length).wildcard = none := rfl
  rw [lookup_eq, route?_split, hliterals, hparam, hwildcard]
  simp only [Option.isSome_none, Bool.and_false, lookupParam, lookupWildcard,
    Lookup.orElse_of_nothing, Lookup.orElse_nothing]

section Child

variable (text : c.text = keep ++ tail) {after : List (Node H)}

include text

/-- A path that does not go through the head of a split did not go through the child. -/
theorem lookupLiteral_split_beside (cut : tail ≠ []) (hrest : rest ≠ [])
    (beside : Text.after? keep rest = none)
    (others : keep.head? = rest.head? →
      lookupLiteral m after rest values = (.miss false, values)) :
    lookupLiteral m (c.split keep.length :: after) rest values =
      lookupLiteral m (c :: after) rest values := by
  have hsplit : (c.split keep.length).text = keep := split_text text
  have hwhole : Text.after? c.text rest = none := by
    refine Option.eq_none_iff_forall_ne_some.2 fun more hmore => ?_
    have heq := Text.after?_eq_some_iff.1 hmore
    rw [text, List.append_assoc] at heq
    rw [Text.after?_eq_some_iff.2 heq] at beside
    cases beside
  have hslash : c.text ≠ rest ++ ['/'] := by
    intro heq
    obtain ⟨init, x, rfl⟩ := (List.eq_nil_or_concat tail).resolve_left cut
    rw [text, List.concat_eq_append, ← List.append_assoc] at heq
    have hinit := (List.append_inj' heq rfl).1
    rw [Text.after?_eq_some_iff.2 hinit.symm] at beside
    cases beside
  rw [lookupLiteral_cons_of_none (hsplit.symm ▸ beside), lookupLiteral_cons_of_none hwhole,
    if_neg hslash, hsplit]
  by_cases hhead : keep = rest ++ ['/']
  · have hfirst : keep.head? = rest.head? := by rw [hhead, List.head?_append_of_ne_nil _ hrest]
    rw [if_pos hhead, routesAtEnd_split, others hfirst]
  · rw [if_neg hhead]

/-- A path that ends where the child was cut lacks its tail, which is noted if it is a slash. -/
theorem lookupLiteral_split_end (cut : tail ≠ [])
    (others : lookupLiteral m after keep values = (.miss false, values)) :
    (c.split keep.length).lookupEnd m values = lookupLiteral m (c :: after) keep values := by
  have hwhole : Text.after? c.text keep = none := by
    refine Option.eq_none_iff_forall_ne_some.2 fun rest hrest => ?_
    have hlen := congrArg List.length (Text.after?_eq_some_iff.1 hrest)
    have hpos := List.length_pos_iff.2 cut
    rw [text] at hlen
    simp only [List.length_append] at hlen
    omega
  have hslash : c.text = keep ++ ['/'] ↔ tail = ['/'] := by rw [text, List.append_cancel_left_eq]
  rw [lookupEnd_split text, lookupLiteral_cons_of_none hwhole, others]
  by_cases htail : tail = ['/']
  · rw [if_pos (hslash.2 htail)]
    simp [htail]
  · rw [if_neg (mt hslash.1 htail)]
    simp [htail]

/-- A path that goes on behind the head of a split meets the tail, as it met the rest of the
child. -/
theorem lookupLiteral_split_through {more : Text}
    (others : lookupLiteral m after (keep ++ more) values = (.miss false, values)) :
    (c.split keep.length).lookup m more values =
      lookupLiteral m (c :: after) (keep ++ more) values := by
  rw [lookup_split text]
  cases htail : Text.after? tail more with
  | some beyond =>
      obtain rfl := Text.after?_eq_some_iff.1 htail
      have hpart := lookupLiteral_cons_append m { c with text := tail } [] beyond values
      have hwhole := lookupLiteral_cons_append m c after beyond values
      rw [text, List.append_assoc] at hwhole
      rw [hpart, hwhole, answer_text]
  | none =>
      have hwhole : Text.after? c.text (keep ++ more) = none := by
        refine Option.eq_none_iff_forall_ne_some.2 fun beyond hbeyond => ?_
        have heq := Text.after?_eq_some_iff.1 hbeyond
        rw [text, List.append_assoc, List.append_cancel_left_eq] at heq
        rw [Text.after?_eq_some_iff.2 heq] at htail
        cases htail
      have hslash : c.text = keep ++ more ++ ['/'] ↔ tail = more ++ ['/'] := by
        rw [text, List.append_assoc, List.append_cancel_left_eq]
      rw [lookupLiteral_cons_of_none htail, lookupLiteral_cons_of_none hwhole, others,
        lookupLiteral]
      simp only [hslash]
      rfl

/-- **The two parts of a child answer as the child did**, if the children behind it begin with other
characters. -/
theorem lookupLiteral_split (kept : keep ≠ []) (cut : tail ≠ [])
    (texts : ∀ d ∈ after, d.text ≠ []) (apart : ∀ d ∈ after, d.text.head? ≠ c.text.head?)
    (hrest : rest ≠ []) :
    lookupLiteral m (c.split keep.length :: after) rest values =
      lookupLiteral m (c :: after) rest values := by
  have hhead : c.text.head? = keep.head? := by rw [text, List.head?_append_of_ne_nil _ kept]
  -- where the path begins as the child does, it is not followed into the others
  have hothers : keep.head? = rest.head? →
      lookupLiteral m after rest values = (.miss false, values) := by
    intro heq
    refine lookupLiteral_of_apart texts (fun d hd => ?_) hrest
    rw [← heq, ← hhead]
    exact apart d hd
  cases hafter : Text.after? keep rest with
  | none => exact lookupLiteral_split_beside text cut hrest hafter hothers
  | some more =>
      obtain rfl := Text.after?_eq_some_iff.1 hafter
      have hmiss := hothers (List.head?_append_of_ne_nil _ kept).symm
      have hthrough := lookupLiteral_cons_append m (c.split keep.length) after more values
      rw [split_text text] at hthrough
      rw [hthrough, answer]
      by_cases hmore : more = []
      · subst hmore
        rw [List.append_nil] at hmiss ⊢
        rw [if_pos rfl, lookupLiteral_split_end text cut hmiss]
      · rw [if_neg hmore, lookupLiteral_split_through text hmiss]

end Child

end Answers

/-! ### One node cut in two -/

/-- **One literal node below a node has been cut in two**: a child of the node, or a node that is
further down. -/
inductive Recut : Node H → Node H → Prop
  | here {n c : Node H} {before after : List (Node H)} {keep tail : Text}
      (among : n.literals = before ++ c :: after) (text : c.text = keep ++ tail) (kept : keep ≠ [])
      (cut : tail ≠ []) : Recut n { n with literals := before ++ c.split keep.length :: after }
  | literal {n c c' : Node H} {before after : List (Node H)}
      (among : n.literals = before ++ c :: after) (below : Recut c c') :
      Recut n { n with literals := before ++ c' :: after }
  | placed {n c c' : Node H} {s : Segment} (place : n.place? s = some c) (same : c.text = s.text)
      (below : Recut c c') : Recut n (n.attach s c')

namespace Recut

variable {n n' : Node H}

/-- Above a cut a node keeps what it has itself. -/
theorem frame (h : Recut n n') :
    n'.text = n.text ∧ n'.path = n.path ∧ n'.params = n.params ∧ n'.routes = n.routes := by
  cases h with
  | here => exact ⟨rfl, rfl, rfl, rfl⟩
  | literal => exact ⟨rfl, rfl, rfl, rfl⟩
  | placed => simp

/-- What could be in front of the children of a node can be in front of them after a cut. -/
theorem canPrecede {q : Segment} (h : Recut n n') (hn : ∀ s d, n.Branch s d → q.CanPrecede s)
    {s : Segment} {d : Node H} (hd : n'.Branch s d) : q.CanPrecede s := by
  cases h with
  | here among text kept cut =>
      rcases branch_literals among hd with hd | ⟨rfl, _⟩
      · exact hn s d hd
      · rw [split_text text]
        exact Segment.CanPrecede.of_append kept (text ▸ hn _ _ (.literal (by simp [among])))
  | literal among below =>
      rcases branch_literals among hd with hd | ⟨rfl, _⟩
      · exact hn s d hd
      · rw [below.frame.1]
        exact hn _ _ (.literal (by simp [among]))
  | placed place same below =>
      rcases branch_attach (below.frame.1.trans same) hd with hd | ⟨rfl, _⟩
      · exact hn s d hd
      · exact hn _ _ (branch_of_place place same)

/-- **A cut keeps a tree in order.** -/
theorem valid (h : Recut n n') (hn : n.Valid) : n'.Valid := by
  induction h with
  | @here n c before after keep tail among text kept cut =>
      have hmem : c ∈ n.literals := by simp [among]
      have first : n.Branch (.literal c.text) c := .literal hmem
      have hpath : c.path = n.path ++ c.text := hn.regular.path first
      have hproper := hn.regular.proper first
      have hvalid := valid_split (hn.branch first) hproper text cut hpath
      have hkeep : (Segment.literal keep).Proper := .left_of_append kept (text ▸ hproper)
      refine hn.literals hvalid among (by rwa [split_text text]) ?_ ?_ ?_
      · rw [split_text text, text, List.head?_append_of_ne_nil _ kept]
      · rw [split_text text, split_eq text hpath, attach_path]
        rfl
      · have hparams : (c.split keep.length).params = c.params := rfl
        rw [hparams, hn.regular.params_literal hmem]
  | @literal n c c' before after among below ih =>
      have hmem : c ∈ n.literals := by simp [among]
      have first : n.Branch (.literal c.text) c := .literal hmem
      obtain ⟨text, path, params, _⟩ := below.frame
      refine hn.literals (ih (hn.branch first)) among ?_ (by rw [text]) ?_ ?_
      · rw [text]
        exact hn.regular.proper first
      · rw [path, text]
        exact hn.regular.path first
      · exact params.trans (hn.regular.params_literal hmem)
  | @placed n c c' s place same below ih =>
      have first := branch_of_place place same
      obtain ⟨text, path, params, _⟩ := below.frame
      refine hn.attach (ih (hn.branch first)) (hn.regular.proper first) (text.trans same)
        (path.trans (hn.regular.path first)) (params.trans (hn.regular.params first))
        (fun hd => below.canPrecede (fun _ _ => hn.regular.follows first) hd) ?_
      intro run hs
      subst hs
      cases place

/-- **A cut changes nothing that is listed**, and not the order. -/
theorem listing_eq (h : Recut n n') (hn : n.Valid) : n'.listing = n.listing := by
  induction h with
  | @here n c before after keep tail among text kept cut =>
      have hpath := hn.regular.path (.literal (by simp [among]) : n.Branch (.literal c.text) c)
      obtain ⟨earlier, later, hn, hm⟩ := exists_listing_literals among (c.split keep.length)
      rw [hm, hn, listing_split text hpath]
  | @literal n c c' before after among below ih =>
      have first : n.Branch (.literal c.text) c := .literal (by simp [among])
      obtain ⟨earlier, later, hold, hm⟩ := exists_listing_literals among c'
      rw [hm, hold, ih (hn.branch first)]
  | @placed n c c' s place same below ih =>
      have first := branch_of_place place same
      obtain ⟨before, after, hchildren, hm⟩ := children_attach_of_place place
      obtain ⟨earlier, later, hold, hm⟩ :=
        exists_listing_exchange (attach_routes ..) hchildren (hm c')
      rw [hm, hold, ih (hn.branch first)]

end Recut

/-! ### Answers after a cut -/

section Congruence

variable {n n' : Node H} {m : Method} {wildcard wildcard' : Option (Node H)}

/-- What counts of a wildcard: its routes, and the place of its value. -/
def takes (w : Node H) : Slots H × Nat := (w.routes, w.slot)

/-- Two wildcards that are alike are both missing, or have the same route and the same place. -/
theorem cases_of_takes (m : Method) (h : wildcard'.map takes = wildcard.map takes) :
    wildcard' = none ∧ wildcard = none ∨
      ∃ w' w : Node H, wildcard' = some w' ∧ wildcard = some w ∧ w'.route? m = w.route? m ∧
        w'.slot = w.slot := by
  cases wildcard with
  | none => exact Or.inl ⟨Option.map_eq_none_iff.1 h, rfl⟩
  | some w =>
      obtain ⟨w', hw', heq⟩ := Option.map_eq_some_iff.1 h
      obtain ⟨hroutes, hslot⟩ := Prod.mk.inj heq
      exact Or.inr ⟨w', w, hw', rfl, by rw [route?, route?, hroutes], hslot⟩

/-- Wildcards that are alike take the rest of a path alike. -/
theorem lookupWildcard_congr (h : wildcard'.map takes = wildcard.map takes) (rest : Text)
    (values : Values) :
    lookupWildcard m wildcard' rest values = lookupWildcard m wildcard rest values := by
  rcases cases_of_takes m h with ⟨rfl, rfl⟩ | ⟨w', w, rfl, rfl, hroute, hslot⟩
  · rfl
  · simp only [lookupWildcard, hroute, hslot]

/-- A path that ends at a node has the route that it has at one with the same routes. -/
theorem endRoute?_congr (route : n'.route? m = n.route? m)
    (wildcard : n'.wildcard.map takes = n.wildcard.map takes) :
    n'.endRoute? m = n.endRoute? m := by
  unfold endRoute?
  rcases cases_of_takes m wildcard with ⟨h', h⟩ | ⟨w', w, h', h, hroute, _⟩
  · rw [route, h', h]
  · rw [route, h', h, Option.bind_some, Option.bind_some, hroute]

/-- The values are the same, too. -/
theorem endValues_congr (route : n'.route? m = n.route? m)
    (wildcard : n'.wildcard.map takes = n.wildcard.map takes) (values : Values) :
    n'.endValues m values = n.endValues m values := by
  unfold endValues
  rcases cases_of_takes m wildcard with ⟨h', h⟩ | ⟨w', w, h', h, hroute, hslot⟩
  · rw [route, h', h]
  · rw [route, h', h]
    cases n.route? m with
    | some r => rfl
    | none => simp only [hroute, hslot]

/-- **Nodes with the same routes answer alike if their children do.** -/
theorem answer_congr (routes : n'.routes = n.routes)
    (slash : n'.routesAfterSlash m = n.routesAfterSlash m)
    (literals : ∀ rest, rest ≠ [] → ∀ values,
      lookupLiteral m n'.literals rest values = lookupLiteral m n.literals rest values)
    (param : ∀ rest values, lookupParam m n'.param rest values = lookupParam m n.param rest values)
    (wildcard : n'.wildcard.map takes = n.wildcard.map takes) (rest : Text) (values : Values) :
    n'.answer m rest values = n.answer m rest values := by
  have hroute : n'.route? m = n.route? m := by rw [route?, route?, routes]
  unfold answer
  by_cases hrest : rest = []
  · rw [if_pos hrest, if_pos hrest, lookupEnd, lookupEnd, slash, endRoute?_congr hroute wildcard,
      endValues_congr hroute wildcard]
  · rw [if_neg hrest, if_neg hrest, lookup_eq, lookup_eq m n, hroute]
    simp only [literals rest hrest, param rest, lookupWildcard_congr wildcard]

/-- A literal child that answers like another one can stand for it. -/
theorem lookupLiteral_exchange {c c' : Node H} (text : c'.text = c.text)
    (atEnd : c'.routesAtEnd m = c.routesAtEnd m)
    (answers : ∀ rest values, c'.answer m rest values = c.answer m rest values)
    (after : List (Node H)) (rest : Text) (values : Values) :
    lookupLiteral m (c' :: after) rest values = lookupLiteral m (c :: after) rest values := by
  cases hafter : Text.after? c.text rest with
  | some more =>
      obtain rfl := Text.after?_eq_some_iff.1 hafter
      have hthrough := lookupLiteral_cons_append m c' after more values
      rw [text] at hthrough
      rw [hthrough, lookupLiteral_cons_append, answers]
  | none =>
      rw [lookupLiteral_cons_of_none hafter, lookupLiteral_cons_of_none (text.symm ▸ hafter), text,
        atEnd]

end Congruence

namespace Recut

variable {n n' : Node H}

/-- The wildcard of a node keeps what counts. -/
theorem takes_wildcard (h : Recut n n') : n'.wildcard.map takes = n.wildcard.map takes := by
  cases h with
  | here => rfl
  | literal => rfl
  | @placed _ c c' s place same below =>
      obtain ⟨_, _, params, routes⟩ := below.frame
      cases s with
      | literal run => cases place
      | param name => rfl
      | wildcard name =>
          have hplace : n.wildcard = some c := place
          simp [attach, hplace, takes, slot, params, routes]

/-- A path that ends at a node has the routes that it had. -/
theorem routesAtEnd_eq (h : Recut n n') (m : Method) : n'.routesAtEnd m = n.routesAtEnd m := by
  have hroute : n'.route? m = n.route? m := by rw [route?, route?, h.frame.2.2.2]
  rw [routesAtEnd, routesAtEnd, endRoute?_congr hroute h.takes_wildcard]

/-- A slash at the end of a path leads to what it led to: neither part of a cut is a child with that
text and a route. -/
theorem routesAfterSlash_eq (h : Recut n n') (m : Method) :
    n'.routesAfterSlash m = n.routesAfterSlash m := by
  cases h with
  | @here _ c before after keep tail among text kept cut =>
      have hchild : ¬ c.text = ['/'] := by
        intro heq
        have hlen := congrArg List.length (text.symm.trans heq)
        have hkept := List.length_pos_iff.2 kept
        have hcut := List.length_pos_iff.2 cut
        simp only [List.length_append, List.length_singleton] at hlen
        omega
      simp [routesAfterSlash, among, hchild, routesAtEnd_split]
  | literal among below =>
      simp [routesAfterSlash, among, below.frame.1, below.routesAtEnd_eq m]
  | @placed _ c c' s place same below =>
      cases s with
      | literal run => cases place
      | param name => rfl
      | wildcard name => rfl

/-- **A cut changes no answer**: neither the route, nor whether a slash more or less gives one, nor
a value. -/
theorem answer_eq (h : Recut n n') (hn : n.Valid) (m : Method) (rest : Text) (values : Values) :
    n'.answer m rest values = n.answer m rest values := by
  induction h generalizing rest values with
  | @here n c before after keep tail among text kept cut =>
      have h : Recut n _ := .here among text kept cut
      refine answer_congr h.frame.2.2.2 (h.routesAfterSlash_eq m) ?_ (fun _ _ => rfl)
        h.takes_wildcard rest values
      intro rest hrest values
      rw [among]
      refine lookupLiteral_congr before (lookupLiteral_split text kept cut ?_ ?_ hrest)
      · exact fun d hd => text_ne_nil_of_mem hn (by simp [among, hd])
      · exact fun d hd => hn.regular.head?_ne_of_among among (List.mem_append_right _ hd)
  | @literal n c c' before after among below ih =>
      have h : Recut n _ := .literal among below
      have first : n.Branch (.literal c.text) c := .literal (by simp [among])
      refine answer_congr h.frame.2.2.2 (h.routesAfterSlash_eq m) ?_ (fun _ _ => rfl)
        h.takes_wildcard rest values
      intro rest _ values
      rw [among]
      exact lookupLiteral_congr before (lookupLiteral_exchange below.frame.1
        (below.routesAtEnd_eq m) (fun rest values => ih (hn.branch first) rest values) after rest
          values)
  | @placed n c c' s place same below ih =>
      have h : Recut n _ := .placed place same below
      have first := branch_of_place place same
      have hslot : c'.slot = c.slot := by rw [slot, slot, below.frame.2.2.1]
      cases s with
      | literal run => cases place
      | param name =>
          have hplace : n.param = some c := place
          refine answer_congr h.frame.2.2.2 (h.routesAfterSlash_eq m) (fun _ _ _ => rfl) ?_
            h.takes_wildcard rest values
          intro rest values
          rw [hplace, attach, lookupParam_some, lookupParam_some, hslot, ih (hn.branch first)]
      | wildcard name =>
          exact answer_congr h.frame.2.2.2 (h.routesAfterSlash_eq m) (fun _ _ _ => rfl)
            (fun _ _ => rfl) h.takes_wildcard rest values

end Recut

end Node

/-! ### Cutting a cell -/

namespace Arena

/-- A row after a split is longer by one cell. -/
theorem Cut.length_eq {a a' : Arena H} {id : Nat} {c : Cell H} {start : Text} {k : Nat}
    (h : a.Cut id c start k a') (hlt : id < a.length) : a'.length = a.length + 1 := by
  have hend := lt_length_of_getElem? h.tail
  have hnone := h.others (a.length + 1) (by omega) (by omega)
  rw [List.getElem?_eq_none (by omega : a.length ≤ a.length + 1), Option.map_none,
    List.getElem?_eq_none_iff] at hnone
  omega

section

variable {a a' : Arena H} {n p : Node H}

/-- What lies above a node that has been cut shows the cut as well. -/
theorem Shows.recut_of_reach {segs : List Segment} (hreach : n.Reach segs p) (hn : n.Valid)
    {i : Nat} (h : a.Shows i n) {q : Text} (frame : Frame q a a') (behind : p.path <+: q)
    (changed : ∀ j, a.Shows j p → ∃ p', Node.Recut p p' ∧ a'.Shows j p') :
    ∃ n', Node.Recut n n' ∧ a'.Shows i n' := by
  induction hreach generalizing i with
  | here n => exact changed i h
  | @step n d p s segs first rest ih =>
      have hd := hn.branch first
      obtain ⟨c, here, _⟩ := h.exists_cell
      -- the change is behind the path of the child that it is below
      have hframe : Frame (n.path ++ s.text) a a' := by
        refine frame.mono (List.IsPrefix.trans ?_ behind)
        rw [(Node.path_of_reach hd rest).1, hn.regular.path first]
        exact List.prefix_append _ _
      cases first with
      | literal hmem =>
          obtain ⟨before, after, among⟩ := List.append_of_mem hmem
          obtain ⟨lb, j, la, ids, hbefore, hj, hafter⟩ := h.among here among
          obtain ⟨d', hcut, hshow⟩ := ih hd hj behind changed
          have htext := (hn.regular.proper (.literal hmem)).ne_nil
          exact ⟨_, .literal among hcut,
            h.exchange_literal hn here among ids hbefore hafter htext rfl hframe hshow⟩
      | param place =>
          obtain ⟨j, hplace, hj⟩ := h.exists_place here (s := .param d.text) place
          obtain ⟨d', hcut, hshow⟩ := ih hd hj behind changed
          exact ⟨_, .placed (s := .param d.text) place rfl hcut,
            h.exchange_place hn here place rfl hplace hframe hshow⟩
      | wildcard place =>
          obtain ⟨j, hplace, hj⟩ := h.exists_place here (s := .wildcard d.text) place
          obtain ⟨d', hcut, hshow⟩ := ih hd hj behind changed
          exact ⟨_, .placed (s := .wildcard d.text) place rfl hcut,
            h.exchange_place hn here place rfl hplace hframe hshow⟩

section

variable (ha : a.Wired) (hroot : a.Shows 0 n) (hn : n.Valid) {id : Nat} {c : Cell H}
  {keep tail : Text}

include ha hroot hn

/-- What lists a cell that is split shows a node of which a child has been cut. -/
theorem Shows.recut_of_cut {i : Nat} {q : Cell H} (hp : a.Shows i p) (hpvalid : p.Valid)
    (hi : a[i]? = some q) (listed : id ∈ q.literals) (here : a[id]? = some c)
    (text : c.text = keep ++ tail) (kept : keep ≠ []) (cut : tail ≠ [])
    (h' : a.Cut id c q.path keep.length a') (frame : Frame (p.path ++ keep) a a') :
    ∃ p', Node.Recut p p' ∧ a'.Shows i p' := by
  obtain ⟨d, hd, hid⟩ := exists_of_forall₂_left (hp.children hi).2.1 listed
  obtain ⟨before, after, among⟩ := List.append_of_mem hd
  obtain ⟨lb, k, la, ids, hbefore, hk, hafter⟩ := hp.among hi among
  obtain ⟨e, he, fits⟩ := hk.exists_cell
  -- the child is shown by the cell that is split, and by no other one
  have fits' := (hid.children here).1
  obtain rfl := eq_of_path_eq ha hroot hn here he (fits'.path.trans fits.path.symm)
  have first : p.Branch (.literal d.text) d := .literal hd
  have hpath : d.path = q.path ++ d.text := by
    rw [(hp.children hi).1.path]
    exact hpvalid.regular.path first
  have htext : d.text = keep ++ tail := fits'.text ▸ text
  have hsplit := hid.of_cut (hpvalid.branch first) here htext hpath h'
  refine ⟨_, .here among htext kept cut, ?_⟩
  refine hp.exchange_literal hpvalid hi among ids hbefore hafter kept ?_ frame hsplit
  rw [htext, List.head?_append_of_ne_nil _ kept]

/-- **Every literal cell but the root can be cut between two of its characters**, and one node is
cut in the tree that the arena lays out. -/
theorem exists_recut (here : a[id]? = some c) (hne : id ≠ 0) (hk : c.kind = .literal)
    (text : c.text = keep ++ tail) (kept : keep ≠ []) (cut : tail ≠ []) :
    ∃ a' start n', a.split id keep.length = some (a', .nodeSplit c.path keep tail) ∧
      a.Cut id c start keep.length a' ∧ c.path = start ++ c.text ∧ a'.Wired ∧ Node.Recut n n' ∧
        a'.Shows 0 n' := by
  obtain ⟨i, q, k, hi, hlink⟩ := ha.listed here hne
  have hangs := ha.eq_of_links hi hlink here
  obtain rfl : k = .literal := hangs.kind.symm.trans hk
  obtain ⟨a', hsplit, h', hwired, hframe⟩ := ha.exists_cut hi hlink here text kept cut
  obtain ⟨_, p, _, hreach, hp⟩ := exists_shown ha hroot hi
  have hpvalid : p.Valid := fun more e hmore => hn _ e (hreach.append hmore)
  have hstart := (hp.children hi).1.path
  rw [hstart] at hframe
  have hchild : ∀ j, a.Shows j p → ∃ p', Node.Recut p p' ∧ a'.Shows j p' := by
    intro j hj
    -- the node is shown by the parent only
    obtain ⟨e, he, fits⟩ := hj.exists_cell
    obtain rfl := eq_of_path_eq ha hroot hn hi he (hstart.trans fits.path.symm)
    cases hlink with
    | literal listed =>
        exact Shows.recut_of_cut ha hroot hn hj hpvalid hi listed here text kept cut h' hframe
  obtain ⟨n', hcut, hshow⟩ :=
    hroot.recut_of_reach hreach hn hframe (List.prefix_append _ _) hchild
  exact ⟨a', q.path, n', hsplit, h', hangs.path, hwired, hcut, hshow⟩

end

end

end Arena

/-! ### Trees with a cut -/

section Trees

variable {t : Tree H} {root : Node H}

/-- A cut leaves a sound tree. -/
theorem Tree.Sound.of_recut (ht : t.Sound) (h : Node.Recut t.root root) :
    Tree.Sound { t with root } where
  valid := h.valid ht.valid
  path := h.frame.2.1.trans ht.path
  params := h.frame.2.2.1.trans ht.params
  bare := h.frame.2.2.2.trans ht.bare
  opens s d hd := h.canPrecede ht.opens hd
  room v r hr := by
    rw [← Node.mem_listing_iff, h.listing_eq ht.valid, Node.mem_listing_iff] at hr
    exact ht.room v r hr

/-- **After a cut every look-up finds what it found.** -/
theorem Tree.Sound.find_of_recut (ht : t.Sound) (h : Node.Recut t.root root) (m : Method)
    (path : Text) (values : Values) :
    Tree.find { t with root } m path values = t.find m path values := by
  by_cases hpath : path = []
  · rw [hpath]
    rfl
  · rw [Tree.find_of_ne_nil _ m hpath, Tree.find_of_ne_nil t m hpath, h.answer_eq ht.valid]

/-- After a cut the walk comes by the same routes in the same order. -/
theorem Tree.Sound.walk_of_recut (ht : t.Sound) (h : Node.Recut t.root root) :
    Tree.walk { t with root } = t.walk := h.listing_eq ht.valid

end Trees

/-! ### Stores -/

namespace Store

/-- Cut the text of a cell at a byte. -/
def split? (s : Store H) (id cut : Nat) : Option (Store H × Event) :=
  (s.cells.split? id cut).map fun p => ({ s with cells := p.1 }, p.2)

/-- **What cutting the text of the cell `c` at place `id` into two parts leaves of a store.** -/
structure SplitAs (s : Store H) (id : Nat) (c : Cell H) (keep tail : Text) (s' : Store H) :
    Prop where
  /-- A look-up finds the same route or none, says the same of the other spelling, and leaves the
  same values in the buffer. -/
  find : ∀ (m : Method) (path : Text) (values : Values), ∃ found,
    s.find? m path values = some found ∧ s'.find? m path values = some found
  /-- The same routes are listed in the same order. -/
  walk : ∃ listed, s.walk? = some listed ∧ s'.walk? = some listed
  /-- The path of a cell is still that of one, which has the routes and the parameters. -/
  paths : ∀ (j : Nat) (d : Cell H), s.cells[j]? = some d →
    ∃ (j' : Nat) (d' : Cell H), s'.cells[j']? = some d' ∧ d'.path = d.path ∧
      d'.params = d.params ∧ d'.routes = d.routes
  /-- Of the other cells, only the children of `c` change, and of those only the parent. -/
  others : ∀ (j : Nat) (d : Cell H), j ≠ id → s.cells[j]? = some d →
    s'.cells[j]? =
      some { d with parent := if j ∈ c.children then some s.cells.length else d.parent }
  /-- The first part stays where the cell was, with one child. -/
  head : ∃ start, c.path = start ++ tail ∧ s'.cells[id]? = some
    { c with
      text := keep
      path := start
      literals := [s.cells.length]
      param := none
      wildcard := none
      routes := fun _ => none }
  /-- The second part is the one new cell.  It has what the cell had. -/
  last : s'.cells.length = s.cells.length + 1 ∧
    s'.cells[s.cells.length]? = some { c with text := tail, parent := some id }
  /-- The counts stay. -/
  counts : s'.size = s.size ∧ s'.maxParams = s.maxParams ∧ s'.isSealed = s.isSealed
  /-- The arena is one tree in order as before. -/
  inOrder : s'.cells.InOrder

variable {s : Store H} {t : Tree H}

/-- **A split does not show in a store.** -/
theorem Stands.splitAs (hs : s.Stands t) (ht : t.Sound) {id : Nat} {c : Cell H}
    (here : s.cells[id]? = some c) (hne : id ≠ 0) (hk : c.kind = .literal) {cut : Nat}
    {keep tail : Text} (hcut : c.text.cutAtByte? cut = some (keep, tail)) (pos : 0 < cut)
    (less : cut < c.text.size) :
    ∃ s', s.split? id cut = some (s', .nodeSplit c.path keep tail) ∧
      s.SplitAs id c keep tail s' := by
  obtain ⟨text, rfl⟩ := Text.append_of_cutAtByte? hcut
  have kept : keep ≠ [] := by
    intro heq
    subst heq
    exact absurd pos (by simp [Text.bytes])
  have hrest : tail ≠ [] := Text.size_lt_append_iff.1 (text.symm ▸ less)
  obtain ⟨a', start, root, hsplit, h', hpath, hwired, hrecut, hroot⟩ :=
    Arena.exists_recut hs.wired hs.root ht.valid here hne hk text.symm kept hrest
  have hs' : Stands { s with cells := a' } { t with root } :=
    ⟨hwired, hroot, hs.size, hs.maxParams, hs.isSealed⟩
  have ht' := ht.of_recut hrecut
  have hlt := Arena.lt_length_of_getElem? here
  have hothers : ∀ (j : Nat) (d : Cell H), j ≠ id → s.cells[j]? = some d → a'[j]? =
      some { d with parent := if j ∈ c.children then some s.cells.length else d.parent } := by
    intro j d hj hd
    have hjlt := Arena.lt_length_of_getElem? hd
    rw [h'.others j hj (by omega), hd]
    rfl
  refine ⟨{ s with cells := a' }, ?_, ?_, ?_, ?_, hothers, ?_, ?_, ⟨rfl, rfl, rfl⟩,
    hs'.inOrder ht'⟩
  · simp [split?, Arena.split?, here, hcut, hsplit]
  · intro m path values
    refine ⟨_, hs.find?_eq ht m path values, ?_⟩
    rw [hs'.find?_eq ht', ht.find_of_recut hrecut]
  · refine ⟨_, hs.walk?_eq, ?_⟩
    rw [hs'.walk?_eq, ht.walk_of_recut hrecut]
  · intro j d hj
    by_cases hid : j = id
    · -- the second part has the path of the whole
      subst hid
      obtain rfl := Option.some.inj (here.symm.trans hj)
      exact ⟨_, _, h'.tail, rfl, rfl, rfl⟩
    · exact ⟨j, _, hothers j d hid hj, rfl, rfl, rfl⟩
  · refine ⟨start ++ keep, by rw [hpath, ← text, List.append_assoc], ?_⟩
    have h := h'.head
    rw [← text, List.take_left] at h
    simpa [Cell.head, ← text] using h
  · refine ⟨h'.length_eq hlt, ?_⟩
    have h := h'.tail
    simpa [Cell.tail, ← text, ← hk] using h

/-- **Whatever cell is split after a history of calls, and wherever, nothing of it is seen.**  Every
literal cell but the root can be cut between two of its characters, which is reported with the path
of the cell and the two parts, and what is left then finds and lists what was found and listed
before. -/
theorem exists_run_splits (calls : List (Call H)) :
    ∃ s, empty.run calls = some s ∧ s.Stands (Tree.empty.run calls) ∧
      ∀ (id : Nat) (c : Cell H), id ≠ 0 → s.cells[id]? = some c → c.kind = .literal →
        ∀ (cut : Nat) (keep tail : Text), c.text.cutAtByte? cut = some (keep, tail) → 0 < cut →
          cut < c.text.size → ∃ s', s.split? id cut = some (s', .nodeSplit c.path keep tail) ∧
            s.SplitAs id c keep tail s' := by
  obtain ⟨s, hrun, hs⟩ := exists_run calls
  refine ⟨s, hrun, hs, fun id c hne here hk cut keep tail hcut pos less => ?_⟩
  exact hs.splitAs (Tree.run_sound calls) here hne hk hcut pos less

/-- The second byte of `é` is no place for a cut; behind it is one. -/
example : ((empty.run [.add "/é/x".toList 0 [Verb.get.method]]).map fun s => [2, 3].map fun cut =>
      (s.split? 1 cut).map fun p => p.1.cells.map fun c => (String.ofList c.path, c.children)) =
    some [none, some [("", [1]), ("/é", [2]), ("/é/x", [])]] := by
  decide +kernel

end Store

end RouteTree
