/-
**A look-up finds what outranks all else.**

The ways below a node are all that the segments of its branches cover.  They are the ways of its
own route and of its three kinds of branches, and the look-up goes through these in the order in
which their routes outrank each other.  So it meets the ways below every node of a valid tree, and
for a sound tree these are the registered templates that match.

Main definitions:

* `Node.ways` — **which routes a path leads to below a node**;
* `Node.waysHere`, `Node.waysLiteral`, `Node.waysParam`, `Node.waysWildcard` — the parts of them;
* `Node.answer` — the answer for the rest of a path, be it empty or not.

Main results:

* `Node.ways_eq` — the ways below a node are those of its parts;
* `Node.meets_answer` — **the answers below a valid node are right for its ways**;
* `Tree.Sound.ways_iff` — the ways of a sound tree are the held routes whose templates match;
* `Tree.Sound.find_cases`, `Tree.Sound.isSome_find_iff` — what a sound tree finds.
-/
import RouteTree.Proofs.History
import RouteTree.Proofs.Search

set_option autoImplicit false
set_option relaxedAutoImplicit false

namespace RouteTree

variable {H : Type}

namespace Node

/-! ### Ways below a node -/

/-- **Which routes a path leads to below a node, and with which values.** -/
def ways (m : Method) (n : Node H) : Ways H := fun path r captured =>
  ∃ segs d, n.Reach segs d ∧ d.route? m = some r ∧ Template.Covers segs path captured

/-- The way of a path that ends at a node. -/
def waysHere (m : Method) (n : Node H) : Ways H := fun path r captured =>
  path = [] ∧ captured = [] ∧ n.route? m = some r

/-- Ways through literal children. -/
def waysLiteral (m : Method) (literals : List (Node H)) : Ways H := fun path r captured =>
  ∃ c ∈ literals, Ways.behind c.text (c.ways m) path r captured

/-- Ways through a parameter. -/
def waysParam (m : Method) (param : Option (Node H)) : Ways H := fun path r captured =>
  ∃ c ∈ param, Ways.captured (c.ways m) path r captured

/-- The way that a wildcard is. -/
def waysWildcard (m : Method) (wildcard : Option (Node H)) : Ways H := fun path r captured =>
  ∃ c ∈ wildcard, c.route? m = some r ∧ captured = [path]

/-- The ways below a node are those of its parts. -/
theorem ways_eq (m : Method) (n : Node H) :
    n.ways m = Ways.either (waysHere m n) (Ways.either (waysLiteral m n.literals)
      (Ways.either (waysParam m n.param) (waysWildcard m n.wildcard))) := by
  funext path r captured
  refine propext ⟨?_, ?_⟩
  · rintro ⟨segs, d, hreach, hroute, hcovers⟩
    cases hreach with
    | here =>
        obtain ⟨rfl, rfl⟩ := Template.covers_nil_iff.1 hcovers
        exact Or.inl ⟨rfl, rfl, hroute⟩
    | step first rest =>
        cases first with
        | literal hc =>
            obtain ⟨more, rfl, hmore⟩ := Template.covers_literal_iff.1 hcovers
            exact Or.inr (Or.inl ⟨_, hc, more, rfl, _, d, rest, hroute, hmore⟩)
        | param hc =>
            obtain ⟨value, more, others, rfl, rfl, hne, hwithin, hmore⟩ :=
              Template.covers_param_iff.1 hcovers
            exact Or.inr (Or.inr (Or.inl ⟨_, hc, value, more, others, rfl, rfl, hne, hwithin,
              _, d, rest, hroute, hmore⟩))
        | wildcard hc =>
            obtain ⟨rfl, rfl⟩ := Template.covers_wildcard_iff.1 hcovers
            obtain rfl := reach_nil_iff.1 rest
            exact Or.inr (Or.inr (Or.inr ⟨_, hc, hroute, rfl⟩))
  · rintro (⟨rfl, rfl, hroute⟩ | ⟨c, hc, more, rfl, segs, d, rest, hroute, hcovers⟩ |
      ⟨c, hc, value, more, others, rfl, rfl, hne, hwithin, segs, d, rest, hroute, hcovers⟩ |
      ⟨c, hc, hroute, rfl⟩)
    · exact ⟨[], n, .here n, hroute, .nil⟩
    · exact ⟨_, d, .step (.literal hc) rest, hroute, .literal c.text hcovers⟩
    · exact ⟨_, d, .step (.param hc) rest, hroute, .param c.text hne hwithin hcovers⟩
    · exact ⟨_, c, .step (.wildcard hc) (.here c), hroute, .wildcard c.text path⟩

theorem route?_eq_some_iff {m : Method} {n : Node H} {r : Route H} :
    n.route? m = some r ↔ ∃ v, m.verb? = some v ∧ n.routes v = some r := by
  simp [route?, Option.bind_eq_some_iff]

/-- A route that a path leads to is held, for the verb of the method. -/
theorem holds_of_ways {m : Method} {n : Node H} {path : Text} {r : Route H}
    {captured : List Text} (h : n.ways m path r captured) : ∃ v, n.Holds v r := by
  obtain ⟨segs, d, hreach, hroute, _⟩ := h
  obtain ⟨v, _, hv⟩ := route?_eq_some_iff.1 hroute
  exact ⟨v, segs, d, hreach, hv⟩

/-- Where only slashes follow, a path is at its end or goes on with a slash. -/
theorem opens_of_ways {m : Method} {n : Node H} {name : Text}
    (follows : ∀ s c, n.Branch s c → (Segment.param name).CanPrecede s) {path : Text}
    (h : (n.ways m).Some path) : ∀ ch ∈ path.head?, ch = '/' := by
  obtain ⟨r, captured, hway⟩ := h
  rw [ways_eq] at hway
  rcases hway with ⟨rfl, _⟩ | ⟨c, hc, more, rfl, _⟩ | ⟨c, hc, _⟩ | ⟨c, hc, _⟩
  · simp
  · have hslash : c.text.head? = some '/' := follows _ _ (.literal hc)
    simp [List.head?_append, hslash]
  · exact (follows _ _ (.param hc)).elim
  · exact (follows _ _ (.wildcard hc)).elim

/-! ### Routes of different branches -/

/-- The template of a route goes on, behind a node's path, with a segment of some rank. -/
def GoesOn (n : Node H) (rank : Nat) (r : Route H) : Prop :=
  ∃ s c more, n.Branch s c ∧ s.rank = rank ∧ r.template = n.path ++ (s.text ++ more)

theorem goesOn_of_branch {n c : Node H} {s : Segment} (hn : n.Valid) (first : n.Branch s c)
    {m : Method} {path : Text} {r : Route H} {captured : List Text}
    (h : c.ways m path r captured) : n.GoesOn s.rank r := by
  obtain ⟨v, hv⟩ := holds_of_ways h
  obtain ⟨more, hmore⟩ := template_of_holds (hn.branch first) hv
  refine ⟨s, c, more, first, rfl, ?_⟩
  rw [hmore, hn.regular.path first, List.append_assoc]

theorem goesOn_of_waysLiteral {n : Node H} (hn : n.Valid) {m : Method} {path : Text}
    {r : Route H} {captured : List Text} (h : waysLiteral m n.literals path r captured) :
    n.GoesOn 0 r := by
  obtain ⟨c, hc, more, _, hway⟩ := h
  exact goesOn_of_branch hn (.literal hc) hway

theorem goesOn_of_waysParam {n : Node H} (hn : n.Valid) {m : Method} {path : Text}
    {r : Route H} {captured : List Text} (h : waysParam m n.param path r captured) :
    n.GoesOn 1 r := by
  obtain ⟨c, hc, value, more, others, _, _, _, _, hway⟩ := h
  exact goesOn_of_branch hn (.param hc) hway

theorem goesOn_of_waysWildcard {n : Node H} (hn : n.Valid) {m : Method} {path : Text}
    {r : Route H} {captured : List Text} (h : waysWildcard m n.wildcard path r captured) :
    n.GoesOn 2 r := by
  obtain ⟨c, hc, hroute, _⟩ := h
  exact goesOn_of_branch hn (.wildcard hc) ⟨[], c, .here c, hroute, .nil⟩

/-- Of the routes of different branches, the ones that are tried first outrank the others. -/
theorem GoesOn.outranks {n : Node H} (hn : n.Valid) {i j : Nat} {r r' : Route H} (hij : i < j)
    (h : n.GoesOn i r) (h' : n.GoesOn j r') : Template.Outranks r.template r'.template := by
  obtain ⟨s, c, more, first, rfl, hr⟩ := h
  obtain ⟨s', c', more', first', rfl, hr'⟩ := h'
  rw [hr, hr', Template.outranks_append_left]
  exact Template.outranks_of_rank (hn.regular.proper first) (hn.regular.proper first') hij _ _

/-! ### The end of a path -/

open Values

theorem text_ne_nil_of_mem {n c : Node H} (hn : n.Valid) (hc : c ∈ n.literals) : c.text ≠ [] :=
  (hn.regular.proper (.literal hc)).ne_nil

theorem length_params_of_name {n c : Node H} {s : Segment} {name : Text} (hn : n.Valid)
    (first : n.Branch s c) (hs : s.name? = some name) :
    c.params.length = n.params.length + 1 ∧ c.slot = n.params.length := by
  have h : c.params.length = n.params.length + 1 := by simp [hn.regular.params first, hs]
  exact ⟨h, by rw [slot, h, Nat.add_sub_cancel]⟩

/-- Behind a literal run or a value there is something. -/
theorem ways_nil_iff {m : Method} {n : Node H} (hn : n.Valid) {r : Route H}
    {captured : List Text} : n.ways m [] r captured ↔
      captured = [] ∧ n.route? m = some r ∨
        ∃ c ∈ n.wildcard, c.route? m = some r ∧ captured = [[]] := by
  rw [ways_eq]
  constructor
  · rintro (⟨_, hway⟩ | ⟨c, hc, more, heq, _⟩ | ⟨c, hc, value, more, _, heq, _, hne, _⟩ | hway)
    · exact Or.inl hway
    · exact absurd (List.append_eq_nil_iff.1 heq.symm).1 (text_ne_nil_of_mem hn hc)
    · exact absurd (List.append_eq_nil_iff.1 heq.symm).1 hne
    · exact Or.inr hway
  · rintro (hway | hway)
    · exact Or.inl ⟨rfl, hway⟩
    · exact Or.inr (Or.inr (Or.inr hway))

/-- A path that ends at a node has a way when the node or its wildcard has a route. -/
theorem routesAtEnd_iff {m : Method} {n : Node H} (hn : n.Valid) :
    n.routesAtEnd m = true ↔ (n.ways m).Some [] := by
  simp only [Ways.Some, ways_nil_iff hn, routesAtEnd, endRoute?]
  cases n.route? m with
  | some r => exact iff_of_true rfl ⟨r, [], Or.inl ⟨rfl, rfl⟩⟩
  | none => cases n.wildcard <;> simp [Option.isSome_iff_exists]

/-- A slash leads on from a node without a wildcard route through a child that is just that. -/
theorem routesAfterSlash_iff {m : Method} {n : Node H} (hn : n.Valid)
    (hno : ∀ c ∈ n.wildcard, c.route? m = none) :
    n.routesAfterSlash m = true ↔ (n.ways m).Some ['/'] := by
  simp only [routesAfterSlash, List.any_eq_true, Bool.and_eq_true, decide_eq_true_eq]
  rw [ways_eq]
  constructor
  · rintro ⟨c, hc, htext, hend⟩
    obtain ⟨r, captured, hway⟩ := (routesAtEnd_iff (hn.branch (.literal hc))).1 hend
    exact ⟨r, captured, Or.inr (Or.inl ⟨c, hc, [], by simp [htext], hway⟩)⟩
  · rintro ⟨r, captured, ⟨heq, _⟩ | ⟨c, hc, more, heq, hway⟩ |
      ⟨c, hc, value, more, others, heq, _, hne, hwithin, _⟩ | ⟨c, hc, hroute, _⟩⟩
    · exact absurd heq (by simp)
    · -- the child's text is all there is
      rcases List.cons_eq_append_iff.1 heq with ⟨hnil, _⟩ | ⟨text, htext, hmore⟩
      · exact absurd hnil (text_ne_nil_of_mem hn hc)
      · obtain ⟨rfl, rfl⟩ := List.nil_eq_append_iff.1 hmore
        exact ⟨c, hc, htext, (routesAtEnd_iff (hn.branch (.literal hc))).2 ⟨r, captured, hway⟩⟩
    · rcases List.cons_eq_append_iff.1 heq with ⟨hnil, _⟩ | ⟨value', rfl, _⟩
      · exact absurd hnil hne
      · exact absurd (hwithin '/' List.mem_cons_self) (by decide)
    · simp [hno c hc] at hroute

/-- The answer at the end of a path is right. -/
theorem meets_end {m : Method} {n : Node H} (hn : n.Valid) (values : Values) :
    Lookup.Meets (n.ways m) n.params.length [] values (n.lookupEnd m values) := by
  -- the node's own route comes first, then the wildcard's, and then a slash is missed
  cases hown : n.route? m with
  | some r =>
      have hanswer : n.lookupEnd m values = (.hit r, values) := by
        simp [lookupEnd, endRoute?, endValues, hown]
      rw [hanswer]
      refine .hit ((ways_nil_iff hn).2 (Or.inl ⟨rfl, hown⟩)) (fun r' captured' hway => ?_)
        (Keeps.refl _ _) (stores_nil _ _)
      rcases (ways_nil_iff hn).1 hway with ⟨rfl, hr'⟩ | hwild
      · exact Or.inl ⟨Option.some.inj (hr'.symm.trans hown), rfl⟩
      · obtain ⟨s, c, more, first, _, hr'⟩ := goesOn_of_waysWildcard hn hwild
        obtain ⟨v, _, hv⟩ := route?_eq_some_iff.1 hown
        rw [hr', ← (hn.regular.own hv).1]
        have hne : s.text ++ more ≠ [] := by simp [(hn.regular.proper first).ne_nil]
        exact Or.inr (Template.outranks_append_right r.template hne)
  | none =>
      cases hwild : n.wildcard.bind (·.route? m) with
      | some r =>
          obtain ⟨c, hc, hr⟩ := Option.bind_eq_some_iff.1 hwild
          have hanswer : n.lookupEnd m values = (.hit r, values.set n.params.length []) := by
            rw [← (length_params_of_name hn (.wildcard hc) rfl).2]
            simp [lookupEnd, endRoute?, endValues, hown, hc, hr]
          rw [hanswer]
          refine .hit ((ways_nil_iff hn).2 (Or.inr ⟨c, hc, hr, rfl⟩)) (fun r' captured' hway => ?_)
            (keeps_set _ _ _) (stores_set _ _ _)
          rcases (ways_nil_iff hn).1 hway with ⟨_, hr'⟩ | ⟨c', hc', hr', rfl⟩
          · simp [hown] at hr'
          · obtain rfl := Option.some.inj (hc.symm.trans hc')
            exact Or.inl ⟨Option.some.inj (hr'.symm.trans hr), rfl⟩
      | none =>
          have hanswer : n.lookupEnd m values = (.miss (n.routesAfterSlash m), values) := by
            simp [lookupEnd, endRoute?, hown, hwild]
          have hno : ∀ c ∈ n.wildcard, c.route? m = none := Option.bind_eq_none_iff.1 hwild
          rw [hanswer]
          refine .miss ?_ ((routesAfterSlash_iff hn hno).trans ?_) (Keeps.refl _ _)
          · rw [← routesAtEnd_iff hn]
            simp [routesAtEnd, endRoute?, hown, hwild]
          · -- the empty path has one other spelling
            constructor
            · exact fun h => ⟨['/'], Or.inl rfl, h⟩
            · rintro ⟨other, rfl | h, hsome⟩
              · exact hsome
              · simp at h

/-! ### The way of a path -/

/-- The answer for the rest of a path below a node, be it empty or not. -/
def answer (m : Method) (n : Node H) (rest : Text) (values : Values) : Lookup H × Values :=
  if rest = [] then n.lookupEnd m values else n.lookup m rest values

theorem lookup_eq (m : Method) (n : Node H) (rest : Text) (values : Values) :
    n.lookup m rest values =
      Lookup.orElse (.miss (rest = ['/'] && (n.route? m).isSome), values) fun values =>
        Lookup.orElse (lookupLiteral m n.literals rest values) fun values =>
          Lookup.orElse (lookupParam m n.param rest values) fun values =>
            lookupWildcard m n.wildcard rest values := by
  cases n
  simp only [lookup]

/-- The first literal child decides if the path goes on through it. -/
theorem lookupLiteral_cons_append (m : Method) (c : Node H) (cs : List (Node H)) (more : Text)
    (values : Values) :
    lookupLiteral m (c :: cs) (c.text ++ more) values = c.answer m more values := by
  simp only [lookupLiteral, Text.after?_append, answer]
  cases more <;> simp

theorem lookupLiteral_cons_of_none {m : Method} {c : Node H} {rest : Text}
    (h : Text.after? c.text rest = none) (cs : List (Node H)) (values : Values) :
    lookupLiteral m (c :: cs) rest values =
      if c.text = rest ++ ['/'] then (.miss (c.routesAtEnd m), values)
      else lookupLiteral m cs rest values := by
  simp [lookupLiteral, h]

theorem lookupParam_some (m : Method) (c : Node H) (rest : Text) (values : Values) :
    lookupParam m (some c) rest values =
      if rest.takeWhile Template.isWithin = [] then (.miss false, values)
      else c.answer m (rest.dropWhile Template.isWithin)
        (values.set c.slot (rest.takeWhile Template.isWithin)) := by
  simp only [lookupParam]
  split <;> simp_all [answer]

theorem meets_here {m : Method} {n : Node H} {k : Nat} {rest : Text} (hrest : rest ≠ [])
    (values : Values) :
    Lookup.Meets (waysHere m n) k rest values
      (.miss (rest = ['/'] && (n.route? m).isSome), values) := by
  refine .miss (fun ⟨_, _, heq, _⟩ => hrest heq) ?_ (Keeps.refl k values)
  simp only [Bool.and_eq_true, decide_eq_true_eq, Option.isSome_iff_exists]
  constructor
  · rintro ⟨rfl, r, hr⟩
    exact ⟨[], Or.inr rfl, r, [], rfl, rfl, hr⟩
  · rintro ⟨other, htoggles, r, captured, rfl, _, hr⟩
    rcases htoggles with h | h
    · simp at h
    · exact ⟨h, r, hr⟩

/-- The first character of a path decides on the literal child. -/
theorem not_some_waysLiteral {m : Method} {literals : List (Node H)} {path : Text}
    (htexts : ∀ c ∈ literals, c.text ≠ []) (h : path = [] ∨ ∀ c ∈ literals,
      c.text.head? ≠ path.head?) : ¬ (waysLiteral m literals).Some path := by
  rintro ⟨r, captured, c, hc, more, rfl, _⟩
  obtain ⟨x, text, htext⟩ := List.exists_cons_of_ne_nil (htexts c hc)
  rcases h with h | h
  · simp [htext] at h
  · exact h c hc (by simp [htext])

/-- A literal run is not the beginning of a path, nor of its other spellings. -/
theorem ne_append_of_after?_eq_none {run rest p : Text} (h : Text.after? run rest = none)
    (hslash : run ≠ rest ++ ['/']) (hp : p = rest ∨ rest.Toggles p) (more : Text) :
    p ≠ run ++ more := by
  have hno : ∀ more, rest ≠ run ++ more := by
    intro more heq
    simp [Text.after?_eq_some_iff.2 heq] at h
  rcases hp with rfl | rfl | rfl
  · exact hno more
  · intro heq
    rcases List.eq_nil_or_concat more with rfl | ⟨more, x, rfl⟩
    · exact hslash (by simpa using heq.symm)
    · rw [List.concat_eq_append, ← List.append_assoc] at heq
      exact hno more (List.append_inj_left' heq rfl)
  · rintro rfl
    exact hno (more ++ ['/']) (List.append_assoc ..)

/-- **The answers through literal children are right** if those of each child are. -/
theorem meets_literal {m : Method} {k : Nat} {rest : Text} (hrest : rest ≠ [])
    {literals : List (Node H)} (hvalid : ∀ c ∈ literals, c.Valid)
    (htexts : ∀ c ∈ literals, c.text ≠ [])
    (apart : (literals.map fun c => c.text.head?).Nodup)
    (ih : ∀ c ∈ literals, ∀ more values,
      Lookup.Meets (c.ways m) k more values (c.answer m more values)) (values : Values) :
    Lookup.Meets (waysLiteral m literals) k rest values
      (lookupLiteral m literals rest values) := by
  induction literals with
  | nil =>
      rw [lookupLiteral]
      exact Lookup.meets_nothing fun p _ ⟨_, _, c, hc, _⟩ => absurd hc List.not_mem_nil
  | cons c cs ihcs =>
      simp only [List.forall_mem_cons, List.map_cons, List.nodup_cons, List.mem_map,
        not_exists, not_and] at hvalid htexts ih apart
      have hways : ∀ p r captured, waysLiteral m (c :: cs) p r captured ↔
          Ways.behind c.text (c.ways m) p r captured ∨ waysLiteral m cs p r captured := by
        simp [waysLiteral]
      -- when the first child begins like the path, no other one has a way
      have honly : c.text.head? = rest.head? → ∀ p, p = rest ∨ rest.Toggles p →
          ¬ (waysLiteral m cs).Some p := by
        intro hhead p hp
        refine not_some_waysLiteral htexts.2 ((Text.head?_of_toggles hrest hp).imp id ?_)
        intro h c' hc' heq
        exact apart.1 c' hc' (heq.trans (h.trans hhead.symm))
      have hfirst : c.text.head? = rest.head? → ∀ answer,
          Lookup.Meets (Ways.behind c.text (c.ways m)) k rest values answer →
          Lookup.Meets (waysLiteral m (c :: cs)) k rest values answer := by
        intro hhead answer h
        refine h.congr fun p hp r captured => (hways p r captured).trans (or_iff_left ?_)
        exact fun hway => honly hhead p hp ⟨r, captured, hway⟩
      -- the path goes on through the first child, or is its text but for the slash, or neither
      cases hafter : Text.after? c.text rest with
      | some more =>
          obtain rfl := Text.after?_eq_some_iff.1 hafter
          rw [lookupLiteral_cons_append]
          refine hfirst ?_ _ ((ih.1 more values).behind c.text)
          rw [List.head?_append_of_ne_nil _ htexts.1]
      | none =>
          rw [lookupLiteral_cons_of_none hafter]
          split
          · -- the child's text is the other spelling
            rename_i htext
            refine hfirst ?_ _ ?_
            · rw [htext, List.head?_append_of_ne_nil _ hrest]
            · rw [htext]
              exact Lookup.meets_toggled (routesAtEnd_iff hvalid.1)
          · rename_i htext
            refine (ihcs hvalid.2 htexts.2 apart.2 ih.2).congr fun p hp r captured => ?_
            refine (hways p r captured).trans (or_iff_right ?_)
            rintro ⟨more, heq, _⟩
            exact ne_append_of_after?_eq_none hafter htext hp more heq

/-- The answer through a parameter is right if the parameter's own answers are, and only slashes
follow it. -/
theorem meets_param {m : Method} {k : Nat} {rest : Text} (hrest : rest ≠ [])
    {param : Option (Node H)} (hslot : ∀ c ∈ param, c.slot = k)
    (opens : ∀ c ∈ param, ∀ p, (c.ways m).Some p → ∀ ch ∈ p.head?, ch = '/')
    (ih : ∀ c ∈ param, ∀ more values,
      Lookup.Meets (c.ways m) (k + 1) more values (c.answer m more values)) (values : Values) :
    Lookup.Meets (waysParam m param) k rest values (lookupParam m param rest values) := by
  cases param with
  | none =>
      rw [lookupParam]
      exact Lookup.meets_nothing fun p _ ⟨_, _, c, hc, _⟩ => by cases hc
  | some c =>
      have hways : ∀ p r captured, waysParam m (some c) p r captured ↔
          Ways.captured (c.ways m) p r captured := by
        simp [waysParam]
      have hsplit : rest.takeWhile Template.isWithin ++ rest.dropWhile Template.isWithin = rest :=
        List.takeWhile_append_dropWhile
      have hwithin := Template.within_of_takeWhile rest
      have hopens := Template.head?_dropWhile_within rest
      rw [lookupParam_some, hslot c rfl]
      generalize rest.takeWhile Template.isWithin = value at hsplit hwithin ⊢
      generalize rest.dropWhile Template.isWithin = more at hsplit hopens ⊢
      subst hsplit
      split
      · -- the path goes on with a slash, so that there is nothing to take
        rename_i hvalue
        subst hvalue
        refine Lookup.meets_nothing fun p hp ⟨r, captured, hway⟩ => ?_
        obtain ⟨value, more', others, rfl, _, hne, hwithin', _⟩ := (hways ..).1 hway
        obtain ⟨x, value, rfl⟩ := List.exists_cons_of_ne_nil hne
        have hx : x ≠ '/' := by simpa [Template.isWithin] using hwithin' x List.mem_cons_self
        rcases Text.head?_of_toggles hrest hp with h | h
        · simp at h
        · exact hx (hopens x h.symm)
      · rename_i hvalue
        refine Lookup.Meets.congr (fun p _ => hways p) ?_
        exact (ih c rfl more _).captured hvalue hwithin hopens (opens c rfl)

/-- The answer of a wildcard is right. -/
theorem meets_wildcard {m : Method} {k : Nat} (rest : Text) {wildcard : Option (Node H)}
    (hslot : ∀ c ∈ wildcard, c.slot = k) (values : Values) :
    Lookup.Meets (waysWildcard m wildcard) k rest values
      (lookupWildcard m wildcard rest values) := by
  cases wildcard with
  | none => exact Lookup.meets_nothing fun p _ ⟨_, _, c, hc, _⟩ => by cases hc
  | some c =>
      have hways : ∀ p r captured, waysWildcard m (some c) p r captured ↔
          c.route? m = some r ∧ captured = [p] := by
        simp [waysWildcard]
      cases hroute : c.route? m with
      | some r =>
          simp only [lookupWildcard, hroute, hslot c rfl]
          refine .hit ((hways ..).2 ⟨hroute, rfl⟩) (fun r' captured' hway => Or.inl ?_)
            (keeps_set _ _ _) (stores_set _ _ _)
          obtain ⟨hr', rfl⟩ := (hways ..).1 hway
          exact ⟨Option.some.inj (hr'.symm.trans hroute), rfl⟩
      | none =>
          simp only [lookupWildcard, hroute]
          refine Lookup.meets_nothing fun p _ ⟨r, captured, hway⟩ => ?_
          simp [hroute] at hways
          exact hways p r captured hway

/-- **The answers below a valid node are right for its ways.** -/
theorem meets_answer (m : Method) {n : Node H} (hn : n.Valid) (rest : Text) (values : Values) :
    Lookup.Meets (n.ways m) n.params.length rest values (n.answer m rest values) := by
  induction n using Node.induction generalizing rest values with
  | step n ih =>
      unfold answer
      split
      · rename_i hrest
        subst hrest
        exact meets_end hn values
      · rename_i hrest
        rw [lookup_eq, ways_eq]
        -- the parts are tried in the order of their rank
        refine Lookup.meets_orElse (meets_here hrest values) (fun values _ => ?_)
          fun _ _ _ _ ⟨heq, _⟩ _ => absurd heq hrest
        refine Lookup.meets_orElse ?_ (fun values _ => Lookup.meets_orElse ?_
          (fun values _ => meets_wildcard rest ?_ values) ?_) ?_
        · refine meets_literal hrest (fun c hc => hn.branch (.literal hc))
            (fun c hc => text_ne_nil_of_mem hn hc) hn.regular.apart (fun c hc more values => ?_)
            values
          rw [← hn.regular.params_literal hc]
          exact ih _ c (.literal hc) (hn.branch (.literal hc)) more values
        · refine meets_param hrest
            (fun c hc => (length_params_of_name hn (.param hc) rfl).2)
            (fun c hc p hp => opens_of_ways (fun s d hd => hn.regular.follows (.param hc) hd) hp)
            (fun c hc more values => ?_) values
          rw [← (length_params_of_name hn (.param hc) rfl).1]
          exact ih _ c (.param hc) (hn.branch (.param hc)) more values
        · exact fun c hc => (length_params_of_name hn (.wildcard hc) rfl).2
        · intro r₁ captured₁ r₂ captured₂ h₁ h₂
          exact (goesOn_of_waysParam hn h₁).outranks hn (by decide) (goesOn_of_waysWildcard hn h₂)
        · rintro r₁ captured₁ r₂ captured₂ h₁ (h₂ | h₂)
          · exact (goesOn_of_waysLiteral hn h₁).outranks hn (by decide) (goesOn_of_waysParam hn h₂)
          · exact (goesOn_of_waysLiteral hn h₁).outranks hn (by decide)
              (goesOn_of_waysWildcard hn h₂)

end Node

namespace Tree

/-! ### Sound trees -/

/-- The ways of a sound tree are the held routes whose templates match. -/
theorem Sound.ways_iff {t : Tree H} (ht : t.Sound) {m : Method} {path : Text} {r : Route H}
    {captured : List Text} : t.root.ways m path r captured ↔
      ∃ v, m.verb? = some v ∧ t.root.Holds v r ∧ Template.Matches r.template path captured := by
  -- cutting the template of a route gives the segments of its way again, but for cut runs
  have hmatch : ∀ segs d v, t.root.Reach segs d → d.routes v = some r →
      (Template.Matches r.template path captured ↔ Template.Covers segs path captured) := by
    intro segs d v hreach hv
    rw [(ht.template_of_reach hreach hv).1]
    exact Template.matches_spelled_iff (Node.linked_of_reach ht.valid hreach)
  constructor
  · rintro ⟨segs, d, hreach, hroute, hcovers⟩
    obtain ⟨v, hverb, hv⟩ := Node.route?_eq_some_iff.1 hroute
    exact ⟨v, hverb, ⟨segs, d, hreach, hv⟩, (hmatch segs d v hreach hv).2 hcovers⟩
  · rintro ⟨v, hverb, ⟨segs, d, hreach, hv⟩, hmatches⟩
    exact ⟨segs, d, hreach, Node.route?_eq_some_iff.2 ⟨v, hverb, hv⟩,
      (hmatch segs d v hreach hv).1 hmatches⟩

/-- The empty path leads nowhere. -/
theorem Sound.not_some_ways_nil {t : Tree H} (ht : t.Sound) (m : Method) :
    ¬ (t.root.ways m).Some [] := by
  rintro ⟨r, captured, hway⟩
  rcases (Node.ways_nil_iff ht.valid).1 hway with ⟨_, hroute⟩ | ⟨c, hc, _⟩
  · simp [Node.route?, ht.bare] at hroute
  · exact ht.opens _ c (.wildcard hc)

/-- What a tree finds is a route that outranks all others, or nothing where there is no way. -/
theorem Sound.find_cases {t : Tree H} (ht : t.Sound) (m : Method) (path : Text)
    (values : Values) :
    (∃ r captured after, t.find m path values = ⟨some r, false, after⟩ ∧
      t.root.ways m path r captured ∧
      (∀ r' captured', t.root.ways m path r' captured' →
        r' = r ∧ captured' = captured ∨ Template.Outranks r.template r'.template) ∧
      Values.Keeps 0 values after ∧ Values.Stores 0 captured after) ∨
    ∃ toggled after, t.find m path values = ⟨none, toggled, after⟩ ∧
      ¬ (t.root.ways m).Some path ∧
      (toggled = true ↔ path ≠ [] ∧ ∃ other, path.Toggles other ∧ (t.root.ways m).Some other) := by
  by_cases hpath : path = []
  · subst hpath
    exact Or.inr ⟨false, values, find_nil t m values, ht.not_some_ways_nil m, by simp⟩
  · have hmeets := Node.meets_answer m ht.valid path values
    rw [ht.params] at hmeets
    simp only [Node.answer, if_neg hpath, List.length_nil] at hmeets
    simp only [find, if_neg hpath]
    generalize t.root.lookup m path values = answer at hmeets
    cases hmeets with
    | hit leads best kept stored => exact Or.inl ⟨_, _, _, rfl, leads, best, kept, stored⟩
    | miss lost chance kept =>
        exact Or.inr ⟨_, _, rfl, lost, chance.trans (and_iff_right hpath).symm⟩

/-- **A sound tree finds a route exactly when the path has a way.** -/
theorem Sound.isSome_find_iff {t : Tree H} (ht : t.Sound) (m : Method) (path : Text)
    (values : Values) :
    (t.find m path values).route.isSome = true ↔ (t.root.ways m).Some path := by
  rcases ht.find_cases m path values with ⟨r, captured, after, hfind, hway, _⟩ |
    ⟨toggled, after, hfind, hlost, _⟩
  · rw [hfind]
    exact iff_of_true rfl ⟨r, captured, hway⟩
  · rw [hfind]
    exact iff_of_false (by simp) hlost

end Tree

end RouteTree
