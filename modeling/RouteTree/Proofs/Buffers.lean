/-
**A look-up writes to its buffer, and never reads it.**

The values of placeholders go to a buffer that the caller hands in.  A branch that is left again
has written there, too, and a buffer may lack places, so that values are passed over.  None of this
shows in the answer.  The reason is how a look-up is made: it answers, falls back from one branch to
the next, and writes single values that are parts of the path, each to a place that belongs to a
placeholder above the node it stands at.  Nothing else is done with the buffer.

Main definitions:

* `Lookup.WriteOnly` — **a search that is made of these steps**;
* `Values.Touched` — what a search may have done to a buffer;
* `Tree.placeholderCount` — the largest number of placeholders on the path of a node.

Main results:

* `Lookup.WriteOnly.answer_eq` — such a search gives one answer for all buffers;
* `Lookup.WriteOnly.touched` — and leaves of each buffer what it does not have places for;
* `Node.writeOnly_answer` — **looking up below a node is such a search**;
* `Tree.find_buffer` — **the buffer has no influence on what is found after a history**.
-/
import RouteTree.Proofs.Agreement
import RouteTree.Proofs.Listing

set_option autoImplicit false
set_option relaxedAutoImplicit false

namespace RouteTree

variable {H : Type}

/-! ### What happens to a buffer -/

/-- What a search for a path may have done to a buffer, if it has the places below `bound`. -/
structure Values.Touched (bound : Nat) (path : Text) (values after : Values) : Prop where
  /-- The buffer is as long as before. -/
  length : after.length = values.length
  /-- The other places are left alone. -/
  beyond : ∀ i : Nat, bound ≤ i → after[i]? = values[i]?
  /-- Whatever is new is a part of the path. -/
  changed : ∀ i : Nat, after[i]? ≠ values[i]? → ∃ v, after[i]? = some v ∧ v <:+: path

namespace Values.Touched

variable {bound : Nat} {path : Text}

theorem refl (values : Values) : Touched bound path values values :=
  ⟨rfl, fun _ _ => rfl, fun _ h => absurd rfl h⟩

theorem trans {values mid after : Values} (h₁ : Touched bound path values mid)
    (h₂ : Touched bound path mid after) : Touched bound path values after := by
  refine ⟨h₂.length.trans h₁.length, ?_, ?_⟩
  · intro i hi
    exact (h₂.beyond i hi).trans (h₁.beyond i hi)
  · intro i hne
    by_cases hmid : after[i]? = mid[i]?
    · rw [hmid] at hne ⊢
      exact h₁.changed i hne
    · exact h₂.changed i hmid

/-- A part of the path is written to one of the places. -/
theorem of_set {values : Values} {i : Nat} {value : Text} (hi : i < bound)
    (hpart : value <:+: path) : Touched bound path values (values.set i value) := by
  refine ⟨List.length_set, ?_, ?_⟩
  · intro j hj
    exact List.getElem?_set_ne (by omega)
  · intro j hne
    by_cases hij : i = j
    · subst hij
      by_cases hroom : i < values.length
      · exact ⟨value, List.getElem?_set_self hroom, hpart⟩
      · -- a place that the buffer does not have is passed over
        rw [List.set_eq_of_length_le (by omega)] at hne
        exact absurd rfl hne
    · rw [List.getElem?_set_ne hij] at hne
      exact absurd rfl hne

end Values.Touched

/-! ### Searches that only write -/

namespace Lookup

/-- **A search for a path that answers, falls back, and writes parts of the path** to places below
`bound`, and that does nothing else with its buffer. -/
inductive WriteOnly (bound : Nat) (path : Text) : (Values → Lookup H × Values) → Prop
  | hit (r : Route H) : WriteOnly bound path fun values => (.hit r, values)
  | miss (toggled : Bool) : WriteOnly bound path fun values => (.miss toggled, values)
  | write {next : Values → Lookup H × Values} {i : Nat} {value : Text} (place : i < bound)
      (part : value <:+: path) (rest : WriteOnly bound path next) :
      WriteOnly bound path fun values => next (values.set i value)
  | orElse {first next : Values → Lookup H × Values} (tried : WriteOnly bound path first)
      (rest : WriteOnly bound path next) :
      WriteOnly bound path fun values => Lookup.orElse (first values) next

variable {bound : Nat} {path : Text} {search : Values → Lookup H × Values}

/-- Falling back gives one answer if both branches do, whatever they leave in the buffer. -/
theorem orElse_fst_congr {first first' : Lookup H × Values} {next : Values → Lookup H × Values}
    (same : first.1 = first'.1) (blind : ∀ values others, (next values).1 = (next others).1) :
    (Lookup.orElse first next).1 = (Lookup.orElse first' next).1 := by
  obtain ⟨answer, mid⟩ := first
  obtain ⟨answer', mid'⟩ := first'
  obtain rfl : answer = answer' := same
  cases answer with
  | hit r => rfl
  | miss noted =>
      -- both fall back, with different buffers
      have hnext := blind mid mid'
      simp only [Lookup.orElse]
      generalize next mid = second at hnext ⊢
      generalize next mid' = second' at hnext ⊢
      obtain ⟨answer, after⟩ := second
      obtain ⟨answer', after'⟩ := second'
      obtain rfl : answer = answer' := hnext
      cases answer <;> rfl

/-- Falling back leaves what the second branch leaves of what the first one has left. -/
theorem touched_orElse {values : Values} {first : Lookup H × Values}
    {next : Values → Lookup H × Values} (h : Values.Touched bound path values first.2)
    (hnext : ∀ mid, Values.Touched bound path mid (next mid).2) :
    Values.Touched bound path values (Lookup.orElse first next).2 := by
  obtain ⟨answer, mid⟩ := first
  cases answer with
  | hit r => exact h
  | miss noted =>
      have hboth := h.trans (hnext mid)
      simp only [Lookup.orElse]
      generalize next mid = second at hboth ⊢
      obtain ⟨r | toggled, after⟩ := second <;> exact hboth

/-- A search that only writes gives one answer, whatever the buffer. -/
theorem WriteOnly.answer_eq (h : WriteOnly bound path search) (values others : Values) :
    (search values).1 = (search others).1 := by
  induction h generalizing values others with
  | hit r => rfl
  | miss toggled => rfl
  | write place part rest ih => exact ih _ _
  | orElse tried rest ihfirst ihnext => exact orElse_fst_congr (ihfirst values others) ihnext

/-- A search that only writes leaves the places behind its own alone, and writes parts of the
path. -/
theorem WriteOnly.touched (h : WriteOnly bound path search) (values : Values) :
    Values.Touched bound path values (search values).2 := by
  induction h generalizing values with
  | hit r => exact .refl values
  | miss toggled => exact .refl values
  | write place part rest ih => exact (Values.Touched.of_set place part).trans (ih _)
  | orElse tried rest ihfirst ihnext => exact touched_orElse (ihfirst values) ihnext

end Lookup

/-! ### Looking up is such a search -/

namespace Node

open Lookup

variable {m : Method} {bound : Nat} {path : Text}

/-- No node at or below this one has more than `bound` placeholders on its path. -/
def Within (bound : Nat) (n : Node H) : Prop :=
  ∀ segs d, n.Reach segs d → d.params.length ≤ bound

theorem Within.branch {n c : Node H} {s : Segment} (h : n.Within bound) (first : n.Branch s c) :
    c.Within bound := by
  intro segs d rest
  exact h (s :: segs) d (.step first rest)

/-- The place of a placeholder is one of those that the search has. -/
theorem Within.slot_lt {n c : Node H} {s : Segment} {name : Text} (h : n.Within bound)
    (hn : n.Valid) (first : n.Branch s c) (hs : s.name? = some name) : c.slot < bound := by
  obtain ⟨hlength, hslot⟩ := length_params_of_name hn first hs
  have hbound := h [s] c (.step first (.here c))
  omega

theorem writeOnly_lookupEnd {n : Node H} (hn : n.Valid) (h : n.Within bound) :
    WriteOnly bound path (n.lookupEnd m) := by
  cases hown : n.route? m with
  | some r =>
      have hsearch : n.lookupEnd m = fun values => (.hit r, values) := by
        funext values
        simp [lookupEnd, endRoute?, endValues, hown]
      rw [hsearch]
      exact .hit r
  | none =>
      cases hwild : n.wildcard.bind (·.route? m) with
      | some r =>
          obtain ⟨c, hc, hr⟩ := Option.bind_eq_some_iff.1 hwild
          have hsearch : n.lookupEnd m = fun values => (.hit r, values.set c.slot []) := by
            funext values
            simp [lookupEnd, endRoute?, endValues, hown, hc, hr]
          rw [hsearch]
          exact .write (h.slot_lt hn (.wildcard hc) rfl) List.nil_infix (.hit r)
      | none =>
          have hsearch : n.lookupEnd m =
              fun values => (.miss (n.routesAfterSlash m), values) := by
            funext values
            simp [lookupEnd, endRoute?, hown, hwild]
          rw [hsearch]
          exact .miss _

/-- Going through literal children only writes, if each child's search does. -/
theorem writeOnly_lookupLiteral {literals : List (Node H)}
    (ih : ∀ c ∈ literals, ∀ more, more <:+: path → WriteOnly bound path (c.answer m more))
    {rest : Text} (hrest : rest <:+: path) :
    WriteOnly bound path (lookupLiteral m literals rest) := by
  induction literals with
  | nil => exact .miss false
  | cons c cs ihcs =>
      obtain ⟨hc, hcs⟩ := List.forall_mem_cons.1 ih
      cases hafter : Text.after? c.text rest with
      | some more =>
          obtain rfl := Text.after?_eq_some_iff.1 hafter
          have hsearch : lookupLiteral m (c :: cs) (c.text ++ more) = c.answer m more :=
            funext (lookupLiteral_cons_append m c cs more)
          rw [hsearch]
          exact hc more ((List.suffix_append c.text more).isInfix.trans hrest)
      | none =>
          rw [show lookupLiteral m (c :: cs) rest = _ from
            funext (lookupLiteral_cons_of_none hafter cs)]
          by_cases htext : c.text = rest ++ ['/']
          · simp only [if_pos htext]
            exact .miss _
          · simp only [if_neg htext]
            exact ihcs hcs

/-- Going through a parameter writes its value first. -/
theorem writeOnly_lookupParam {param : Option (Node H)} (hslot : ∀ c ∈ param, c.slot < bound)
    (ih : ∀ c ∈ param, ∀ more, more <:+: path → WriteOnly bound path (c.answer m more))
    {rest : Text} (hrest : rest <:+: path) :
    WriteOnly bound path (lookupParam m param rest) := by
  cases param with
  | none => exact .miss false
  | some c =>
      rw [show lookupParam m (some c) rest = _ from funext (lookupParam_some m c rest)]
      by_cases hvalue : rest.takeWhile Template.isWithin = []
      · simp only [if_pos hvalue]
        exact .miss false
      · simp only [if_neg hvalue]
        have hpart := (List.takeWhile_prefix Template.isWithin (l := rest)).isInfix
        have hmore := (List.dropWhile_suffix Template.isWithin (l := rest)).isInfix
        exact .write (hslot c rfl) (hpart.trans hrest) (ih c rfl _ (hmore.trans hrest))

theorem writeOnly_lookupWildcard {wildcard : Option (Node H)}
    (hslot : ∀ c ∈ wildcard, c.slot < bound) {rest : Text} (hrest : rest <:+: path) :
    WriteOnly bound path (lookupWildcard m wildcard rest) := by
  cases wildcard with
  | none => exact .miss false
  | some c =>
      cases hroute : c.route? m with
      | none =>
          have hsearch : lookupWildcard m (some c) rest = fun values => (.miss false, values) := by
            funext values
            simp [lookupWildcard, hroute]
          rw [hsearch]
          exact .miss false
      | some r =>
          have hsearch : lookupWildcard m (some c) rest =
              fun values => (.hit r, values.set c.slot rest) := by
            funext values
            simp [lookupWildcard, hroute]
          rw [hsearch]
          exact .write (hslot c rfl) hrest (.hit r)

/-- **Looking the rest of a path up below a valid node only writes.** -/
theorem writeOnly_answer {n : Node H} (hn : n.Valid) (h : n.Within bound) {rest : Text}
    (hrest : rest <:+: path) : WriteOnly bound path (n.answer m rest) := by
  induction n using Node.induction generalizing rest with
  | step n ih =>
      by_cases hnil : rest = []
      · rw [show n.answer m rest = n.lookupEnd m from funext fun _ => if_pos hnil]
        exact writeOnly_lookupEnd hn h
      · rw [show n.answer m rest = n.lookup m rest from funext fun _ => if_neg hnil,
          show n.lookup m rest = _ from funext (lookup_eq m n rest)]
        -- the parts are tried one after the other, with the buffer that the last one has left
        refine .orElse (.miss _) (.orElse ?_ (.orElse ?_ ?_))
        · refine writeOnly_lookupLiteral (fun c hc more hmore => ?_) hrest
          exact ih _ c (.literal hc) (hn.branch (.literal hc)) (h.branch (.literal hc)) hmore
        · refine writeOnly_lookupParam (fun c hc => h.slot_lt hn (.param hc) rfl)
            (fun c hc more hmore => ?_) hrest
          exact ih _ c (.param hc) (hn.branch (.param hc)) (h.branch (.param hc)) hmore
        · exact writeOnly_lookupWildcard (fun c hc => h.slot_lt hn (.wildcard hc) rfl) hrest

end Node

namespace Tree

/-! ### The places of a tree -/

/-- **The largest number of placeholders on the path of a node**, be there a route or not. -/
def placeholderCount (t : Tree H) : Nat :=
  ((t.root.visits 0).map (·.node.params.length)).foldr max 0

theorem foldr_max_le_iff {counts : List Nat} {bound : Nat} :
    counts.foldr max 0 ≤ bound ↔ ∀ k ∈ counts, k ≤ bound := by
  induction counts with
  | nil => simp
  | cons k counts ih => rw [List.foldr_cons, Nat.max_le, ih, List.forall_mem_cons]

theorem placeholderCount_le_iff_within {t : Tree H} {bound : Nat} :
    t.placeholderCount ≤ bound ↔ t.root.Within bound := by
  rw [placeholderCount, foldr_max_le_iff, List.forall_mem_map]
  constructor
  · intro h segs d hreach
    obtain ⟨visit, hvisit, rfl⟩ := Node.exists_visit_iff.2 ⟨segs, hreach⟩
    exact h visit hvisit
  · intro h visit hvisit
    obtain ⟨segs, hreach⟩ := Node.exists_visit_iff.1 ⟨visit, hvisit, rfl⟩
    exact h segs visit.node hreach

/-- The count is the least bound for the placeholders on the ways from the root. -/
theorem Sound.placeholderCount_le_iff {t : Tree H} (ht : t.Sound) {bound : Nat} :
    t.placeholderCount ≤ bound ↔
      ∀ segs d, t.root.Reach segs d → (Template.paramNames segs).length ≤ bound := by
  rw [placeholderCount_le_iff_within]
  refine forall₃_congr fun segs d hreach => ?_
  rw [(ht.path_of_reach hreach).2]

/-! ### What is found -/

/-- What is found is the answer below the root; the empty path is not followed. -/
theorem find_of_ne_nil (t : Tree H) (m : Method) {path : Text} (hpath : path ≠ [])
    (values : Values) :
    t.find m path values =
      match (t.root.answer m path values).1 with
      | .hit r => ⟨some r, false, (t.root.answer m path values).2⟩
      | .miss toggled => ⟨none, toggled, (t.root.answer m path values).2⟩ := by
  simp only [find, Node.answer, if_neg hpath]
  rcases t.root.lookup m path values with ⟨r | toggled, after⟩ <;> rfl

/-- A look-up in a sound tree gives one answer, whatever the buffer. -/
theorem Sound.find_blind {t : Tree H} (ht : t.Sound) (m : Method) (path : Text)
    (values others : Values) :
    (t.find m path values).route = (t.find m path others).route ∧
      (t.find m path values).toggled = (t.find m path others).toggled := by
  by_cases hpath : path = []
  · subst hpath
    exact ⟨rfl, rfl⟩
  · have hsearch := Node.writeOnly_answer (m := m) ht.valid
      (placeholderCount_le_iff_within.1 le_rfl) (List.infix_refl path)
    rw [find_of_ne_nil t m hpath, find_of_ne_nil t m hpath, hsearch.answer_eq values others]
    cases (t.root.answer m path others).1 <;> exact ⟨rfl, rfl⟩

/-- A look-up in a sound tree leaves places behind its own alone, and writes parts of the path. -/
theorem Sound.find_touched {t : Tree H} (ht : t.Sound) (m : Method) (path : Text)
    (values : Values) :
    Values.Touched t.placeholderCount path values (t.find m path values).values := by
  by_cases hpath : path = []
  · subst hpath
    exact .refl values
  · have hsearch := Node.writeOnly_answer (m := m) ht.valid
      (placeholderCount_le_iff_within.1 le_rfl) (List.infix_refl path)
    have htouched := hsearch.touched values
    rw [find_of_ne_nil t m hpath]
    cases (t.root.answer m path values).1 <;> exact htouched

/-- Values that a search has stored are read back as far as the buffer goes. -/
theorem take_min_of_stores {captured : List Text} {after : Values}
    (h : Values.Stores 0 captured after) :
    after.take (min captured.length after.length) =
      captured.take (min captured.length after.length) := by
  refine List.ext_getElem? fun i => ?_
  rw [List.getElem?_take, List.getElem?_take]
  split
  · rename_i hi
    have hstored := h i (by omega) (by omega)
    rwa [Nat.zero_add] at hstored
  · rfl

/-- **The buffer has no influence on what is found.**  With any two buffers a look-up finds the same
route and sets the same flag.  Of a route that is found, each buffer begins afterwards with the
values of its placeholders, as far as it has places for them.  A buffer keeps its length and all
that stands in places behind those of the tree, and what has changed in it is a part of the
path. -/
theorem find_buffer (calls : List (Call H)) (m : Method) (path : Text) :
    let t := empty.run calls
    (∀ values others : Values,
      (t.find m path values).route = (t.find m path others).route ∧
        (t.find m path values).toggled = (t.find m path others).toggled) ∧
    (∀ values r, (t.find m path values).route = some r →
      ∃ captured, captured.length = r.params.length ∧
        (∀ given, Template.Matches r.template path given ↔ given = captured) ∧
        ∀ buffer : Values,
          (t.find m path buffer).values.take (min r.params.length buffer.length) =
            captured.take (min r.params.length buffer.length)) ∧
    (∀ values, Values.Touched t.placeholderCount path values (t.find m path values).values) ∧
    ∀ bound, t.placeholderCount ≤ bound ↔
      ∀ segs d, t.root.Reach segs d → (Template.paramNames segs).length ≤ bound := by
  intro t
  have ht : t.Sound := run_sound calls
  refine ⟨ht.find_blind m path, ?_, ht.find_touched m path, fun bound =>
    ht.placeholderCount_le_iff⟩
  intro values r hroute
  obtain ⟨captured, hlength, honly, _⟩ := exists_stored_of_route hroute
  refine ⟨captured, hlength, honly, fun buffer => ?_⟩
  -- the other buffer gets the values of the same route, and there is one row of these
  have hsame : (t.find m path buffer).route = some r := by
    rw [(ht.find_blind m path buffer values).1]
    exact hroute
  obtain ⟨captured', _, honly', hstored⟩ := exists_stored_of_route hsame
  obtain rfl : captured' = captured := (honly captured').1 ((honly' captured').2 rfl)
  rw [← hlength, ← (ht.find_touched m path buffer).length]
  exact take_min_of_stores hstored

/-- Of two values a buffer with one place takes the first one, and a buffer with three places keeps
the last one. -/
theorem find_buffer_one_place :
    let t := empty.run [Call.add "/:user/files/*rest".toList 0 [Verb.get.method]]
    let path := "/ann/files/x/y".toList
    (t.find Verb.get.method path ["old".toList]).route =
        (t.find Verb.get.method path [[], [], "old".toList]).route ∧
      (t.find Verb.get.method path ["old".toList]).values.take 1 = ["ann".toList] ∧
      t.placeholderCount ≤ 2 ∧
      (t.find Verb.get.method path [[], [], "old".toList]).values[2]? = some "old".toList := by
  intro t path
  obtain ⟨hblind, hvalues, htouched, _⟩ :=
    find_buffer [Call.add "/:user/files/*rest".toList 0 [Verb.get.method]] Verb.get.method path
  have hroute : (t.find Verb.get.method path ["old".toList]).route =
      some ⟨"/:user/files/*rest".toList, ["user".toList, "rest".toList], 0⟩ := by decide +kernel
  have hcount : t.placeholderCount ≤ 2 := by decide +kernel
  obtain ⟨captured, _, _, htake⟩ := hvalues _ _ hroute
  have hfirst : captured.take 1 = ["ann".toList] :=
    (htake [[]]).symm.trans (by decide +kernel)
  exact ⟨(hblind _ _).1, (htake ["old".toList]).trans hfirst, hcount,
    (htouched [[], [], "old".toList]).beyond 2 hcount⟩

end Tree

end RouteTree
