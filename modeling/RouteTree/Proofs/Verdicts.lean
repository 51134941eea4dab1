/-
**Which registrations are refused, and why.**

What a registration has to answer is said here without a tree: the calls before it are enough.
Each answer has its condition, and is given when none of the conditions before it is met.  Two
templates *clash* when they have placeholders of one kind, but with different texts, right behind
a beginning that they share; a `:name` and a `*name` in one place do not.

Main definitions:

* `Admitted` — a call with a template has succeeded, be it for some methods or for none;
* `Template.ClashAt` — two templates clash behind a common beginning;
* `Verdict` — **the answer to a registration**, read off the history.

Main results:

* `Tree.hasBranch_run_iff` — the placeholders in a tree are those of the admitted templates;
* `clash_unique` — a template clashes in one place only;
* `Tree.add_outcome_iff` — **a registration answers with its verdict**.
-/
import RouteTree.Proofs.Conflicts
import RouteTree.Proofs.History

set_option autoImplicit false
set_option relaxedAutoImplicit false

namespace RouteTree

variable {H : Type}

/-! ### Templates of a history -/

/-- **A call with a template has succeeded.** -/
def Admitted (calls : List (Call H)) (template : Text) : Prop :=
  ∃ before call after, calls = before ++ call :: after ∧ call.template? = some template ∧
    ((Tree.empty.run before).serve call).outcome = .ok ()

theorem not_admitted_nil {template : Text} : ¬ Admitted ([] : List (Call H)) template := by
  rintro ⟨before, call, after, h, _⟩
  simp at h

theorem admitted_concat {calls : List (Call H)} {call : Call H} {template : Text} :
    Admitted (calls ++ [call]) template ↔ Admitted calls template ∨
      call.template? = some template ∧ ((Tree.empty.run calls).serve call).outcome = .ok () :=
  exists_call_concat_iff

namespace Template

/-! ### Clashes -/

/-- A template has a placeholder right behind a text. -/
def HasPlaceholder (template start : Text) (s : Segment) : Prop :=
  s.IsPlaceholder ∧ ∃ segs, segments template = .ok segs ∧ StandsIn segs start s

/-- **Two templates clash behind a text**: right after it, both have a placeholder of one kind,
but with different texts.  The older one has `placeholder`. -/
def ClashAt (old new start placeholder : Text) : Prop :=
  ∃ s s', HasPlaceholder old start s ∧ HasPlaceholder new start s' ∧ s.rank = s'.rank ∧
    s.text ≠ s'.text ∧ placeholder = s.text

/-- A row has its segments in order: one of two that stand in it is first, and is then part of
what the other one stands behind. -/
theorem standsIn_cases {segs : List Segment} {start start' : Text} {s s' : Segment}
    (h : StandsIn segs start s) (h' : StandsIn segs start' s') :
    (start = start' ∧ s = s') ∨
      (∃ before between after, segs = before ++ s :: (between ++ s' :: after) ∧
        spelled before = start ∧ spelled (before ++ s :: between) = start') ∨
      ∃ before between after, segs = before ++ s' :: (between ++ s :: after) ∧
        spelled before = start' ∧ spelled (before ++ s' :: between) = start := by
  obtain ⟨before, after, rfl, rfl⟩ := h
  obtain ⟨before', after', heq, rfl⟩ := h'
  rcases List.append_eq_append_iff.1 heq with ⟨between, rfl, hrest⟩ | ⟨between, rfl, hrest⟩
  · cases between with
    | nil =>
        obtain ⟨rfl, _⟩ := List.cons.inj hrest
        exact Or.inl ⟨by simp, rfl⟩
    | cons x between =>
        obtain ⟨rfl, rfl⟩ := List.cons.inj hrest
        exact Or.inr (Or.inl ⟨before, between, after', rfl, rfl, rfl⟩)
  · cases between with
    | nil =>
        obtain ⟨rfl, _⟩ := List.cons.inj hrest
        exact Or.inl ⟨by simp, rfl⟩
    | cons x between =>
        obtain ⟨rfl, rfl⟩ := List.cons.inj hrest
        exact Or.inr (Or.inr ⟨before', between, after, by simp, rfl, rfl⟩)

/-- A template that has a placeholder behind the same text as another one has all that stands
before it in the other one. -/
theorem HasPlaceholder.of_before {template template' start : Text} {s s' : Segment}
    {segs before between after : List Segment} (h : HasPlaceholder template' start s')
    (hcut : segments template = .ok segs) (hsegs : segs = before ++ s :: (between ++ after))
    (hstart : spelled (before ++ s :: between) = start) (hs : s.IsPlaceholder) :
    HasPlaceholder template' (spelled before) s := by
  obtain ⟨_, segs', hcut', before', after', rfl, hbefore'⟩ := h
  have hsplit : segs = (before ++ s :: between) ++ after := by simp [hsegs]
  -- what stands before the placeholder is spelled by one row only
  have heq : before' = before ++ s :: between :=
    eq_of_spelled_eq (linked_of_segments hcut').left_of_append
      (hsplit ▸ linked_of_segments hcut).left_of_append
      (parted_of_segments hcut').left_of_append
      (hsplit ▸ parted_of_segments hcut).left_of_append (hbefore'.trans hstart.symm)
  subst heq
  exact ⟨hs, _, hcut', before, between ++ s' :: after', by simp, rfl⟩

end Template

namespace Tree

/-! ### Placeholders in a tree -/

/-- A registration that succeeds adds the placeholders of its template. -/
theorem Placed.hasBranch_iff {t : Tree H} {template : Text} {handler : H} {verbs : List Verb}
    {g : Registration H} (h : t.Placed template handler verbs g) {start : Text} {s : Segment}
    (hs : s.IsPlaceholder) : g.tree.root.HasBranch start s ↔
      t.root.HasBranch start s ∨ Template.HasPlaceholder template start s := by
  obtain ⟨segs, root, params, splits, hcut, hbrought, rfl⟩ := h
  rw [hbrought.hasBranch_iff (Node.keepsShape_register template handler verbs) hs]
  simp [Template.HasPlaceholder, hcut, hs]

/-- **The placeholders in the tree that a history leaves are those of the admitted templates.** -/
theorem hasBranch_run_iff {calls : List (Call H)} {start : Text} {s : Segment}
    (hs : s.IsPlaceholder) : (empty.run calls).root.HasBranch start s ↔
      ∃ template, Admitted calls template ∧ Template.HasPlaceholder template start s := by
  induction calls using List.reverseRecOn with
  | nil =>
      have hno : ¬ (empty : Tree H).root.HasBranch start s := Node.not_hasBranch_bare
      simp [hno, not_admitted_nil]
  | append_singleton calls call ih =>
      rw [run_append, run_cons, run_nil]
      simp only [admitted_concat, or_and_right, exists_or, ← ih]
      rcases (empty.run calls).serve_cases call with
        hrefused | rfl | ⟨template, _, _, _, htemplate, _, _, hplaced⟩
      · obtain ⟨error, warnings, hg, _⟩ := hrefused
        simp [hg]
      · simp [Call.template?, Tree.serve]
      · rw [hplaced.hasBranch_iff hs, hplaced.outcome_eq, htemplate]
        simp

/-- A tree is sealed when a call has sealed it. -/
theorem isSealed_run_iff {calls : List (Call H)} :
    (empty.run calls).isSealed = true ↔ Call.sealing ∈ calls := by
  induction calls using List.reverseRecOn with
  | nil => simp [empty]
  | append_singleton calls call ih =>
      rw [run_append, run_cons, run_nil, List.mem_append, ← ih, List.mem_singleton]
      have hadd : ∀ template handler methods,
          ((empty.run calls).add template handler methods).tree.isSealed =
            (empty.run calls).isSealed := by
        intro template handler methods
        rcases (empty.run calls).add_cases template handler methods with hrefused | ⟨_, _, hplaced⟩
        · rw [hrefused.tree_eq]
        · obtain ⟨_, _, _, _, _, _, hg⟩ := hplaced
          rw [hg]
      cases call with
      | add template handler methods => simp [Tree.serve, hadd]
      | addAny template handler => simp [Tree.serve, addAny, hadd]
      | sealing => simp [Tree.serve]

/-- A handler is registered for a verb and a template when the tree holds a route for them. -/
theorem exists_holds_iff {calls : List (Call H)} {v : Verb} {template : Text}
    {segs : List Segment} (hcut : Template.segments template = .ok segs) :
    (∃ r, (empty.run calls).root.Holds v r ∧ r.template = template) ↔
      ∃ handler, Registered calls v.method template handler := by
  constructor
  · rintro ⟨r, hholds, rfl⟩
    exact ⟨r.handler, (holds_run_iff.1 hholds).1⟩
  · rintro ⟨handler, hreg⟩
    exact ⟨⟨template, Template.paramNames segs, handler⟩,
      holds_run_iff.2 ⟨hreg, segs, hcut, rfl⟩, rfl⟩

end Tree

/-- A place in the tree has one placeholder, so admitted templates do not clash. -/
theorem placeholder_unique {calls : List (Call H)} {first second start : Text} {s s' : Segment}
    (hfirst : Admitted calls first) (hsecond : Admitted calls second)
    (h : Template.HasPlaceholder first start s) (h' : Template.HasPlaceholder second start s')
    (rank : s.rank = s'.rank) : s = s' := by
  have hbranch := (Tree.hasBranch_run_iff h.1).2 ⟨first, hfirst, h⟩
  have hbranch' := (Tree.hasBranch_run_iff h'.1).2 ⟨second, hsecond, h'⟩
  exact Node.hasBranch_unique (Tree.run_sound calls).valid h.1 hbranch hbranch' rank

/-- **A template clashes with admitted ones in one place only.** -/
theorem clash_unique {calls : List (Call H)} {template old old' start start' : Text}
    {placeholder placeholder' : Text} (hold : Admitted calls old) (hold' : Admitted calls old')
    (h : Template.ClashAt old template start placeholder)
    (h' : Template.ClashAt old' template start' placeholder') :
    start = start' ∧ placeholder = placeholder' := by
  obtain ⟨s, new, hs, ⟨hnew, segs, hcut, hstands⟩, hrank, hne, rfl⟩ := h
  obtain ⟨s', new', hs', ⟨hnew', segs', hcut', hstands'⟩, hrank', hne', rfl⟩ := h'
  obtain rfl := Except.ok.inj (hcut.symm.trans hcut')
  -- of two places, the first one would be free of a clash, because the template that clashes in
  -- the second one goes through it
  rcases Template.standsIn_cases hstands hstands' with
    ⟨rfl, rfl⟩ | ⟨before, between, after, hsegs, rfl, hstart⟩ |
    ⟨before, between, after, hsegs, rfl, hstart⟩
  · obtain rfl := placeholder_unique hold hold' hs hs' (hrank.trans hrank'.symm)
    exact ⟨rfl, rfl⟩
  · have hthrough := hs'.of_before hcut hsegs hstart hnew
    exact absurd (congrArg Segment.text (placeholder_unique hold hold' hs hthrough hrank)) hne
  · have hthrough := hs.of_before hcut hsegs hstart hnew'
    exact absurd (congrArg Segment.text (placeholder_unique hold' hold hs' hthrough hrank')) hne'

/-! ### Verdicts -/

/-- A registration gets as far as the tree: it is not sealed, the template begins with a slash and
can be cut, and all methods are verbs. -/
structure Considered (calls : List (Call H)) (template : Text) (methods : List Method) : Prop where
  unsealed : Call.sealing ∉ calls
  slash : template.head? = some '/'
  verbs : ∀ m ∈ methods, m.verb? ≠ none
  cut : ∃ segs, Template.segments template = .ok segs

/-- **What a registration has to answer** after some calls. -/
inductive Verdict (calls : List (Call H)) (template : Text) (methods : List Method) :
    Except RouteError Unit → Prop
  /-- The tree has been sealed. -/
  | sealed (closed : Call.sealing ∈ calls) :
      Verdict calls template methods (.error (.sealedTree template))
  /-- The template does not begin with a slash. -/
  | astray (unsealed : Call.sealing ∉ calls) (noSlash : template.head? ≠ some '/') :
      Verdict calls template methods (.error (.invalidPath template))
  /-- The first method that is no verb. -/
  | unsupported (unsealed : Call.sealing ∉ calls) (slash : template.head? = some '/')
      {before after : List Method} {m : Method} (among : methods = before ++ m :: after)
      (first : ∀ m' ∈ before, m'.verb? ≠ none) (extension : m.verb? = none) :
      Verdict calls template methods (.error (.unsupportedMethod m.name))
  /-- The template cannot be cut. -/
  | uncut (unsealed : Call.sealing ∉ calls) (slash : template.head? = some '/')
      (verbs : ∀ m ∈ methods, m.verb? ≠ none) {e : RouteError}
      (malformed : Template.segments template = .error e) :
      Verdict calls template methods (.error e)
  /-- The template clashes with an admitted one, and nowhere nearer to its beginning. -/
  | clash (considered : Considered calls template methods) {old start placeholder : Text}
      (admitted : Admitted calls old) (clashes : Template.ClashAt old template start placeholder)
      (shortest : ∀ old' start' placeholder', Admitted calls old' →
        Template.ClashAt old' template start' placeholder' → start.length ≤ start'.length) :
      Verdict calls template methods (.error (.routeConflict (start ++ placeholder) template))
  /-- A method is registered for the same template. -/
  | taken (considered : Considered calls template methods)
      (noClash : ∀ old start placeholder, Admitted calls old →
        ¬ Template.ClashAt old template start placeholder)
      {m : Method} {handler : H} (wanted : m ∈ methods)
      (registered : Registered calls m template handler) :
      Verdict calls template methods (.error (.routeConflict template template))
  /-- Nothing stands in the way. -/
  | accepted (considered : Considered calls template methods)
      (noClash : ∀ old start placeholder, Admitted calls old →
        ¬ Template.ClashAt old template start placeholder)
      (free : ∀ m ∈ methods, ∀ handler, ¬ Registered calls m template handler) :
      Verdict calls template methods (.ok ())

/-- A node refuses routes because of a verb that is taken. -/
theorem Node.exists_of_register_error {template : Text} {handler : H} {verbs : List Verb}
    {n : Node H} {o : Occupied} (h : (n.register template handler verbs).2 = .error o) :
    ∃ v ∈ verbs, ∃ r, n.routes v = some r ∧ o = ⟨v, r.template⟩ := by
  cases hocc : n.occupied? verbs with
  | none => simp [register, hocc] at h
  | some o' =>
      obtain rfl : o' = o := by simpa [register, hocc] using h
      obtain ⟨v, hv, h⟩ := List.exists_of_findSome?_eq_some hocc
      obtain ⟨r, hr, rfl⟩ := Option.map_eq_some_iff.1 h
      exact ⟨v, hv, r, hr, rfl⟩

namespace Tree

/-- The answer of a template that can be cut: it clashes, or it is taken, or it is admitted. -/
theorem place_outcome_cases (calls : List (Call H)) {template : Text} {segs : List Segment}
    (hcut : Template.segments template = .ok segs) (handler : H) (verbs : List Verb) :
    (∃ old start placeholder, Admitted calls old ∧
      Template.ClashAt old template start placeholder ∧
      ((empty.run calls).place template handler verbs).outcome =
        .error (.routeConflict (start ++ placeholder) template)) ∨
    (∀ old start placeholder, Admitted calls old →
      ¬ Template.ClashAt old template start placeholder) ∧
      ((∃ v ∈ verbs, ∃ other, Registered calls v.method template other) ∧
          ((empty.run calls).place template handler verbs).outcome =
            .error (.routeConflict template template) ∨
        (∀ v ∈ verbs, ∀ other, ¬ Registered calls v.method template other) ∧
          ((empty.run calls).place template handler verbs).outcome = .ok ()) := by
  have ht := run_sound calls
  have hlinked := Template.linked_of_segments hcut
  have hspelled := Template.spelled_of_segments hcut
  have hfollows := Node.insert_follows template (Node.register template handler verbs)
    (empty.run calls).root (Template.parted_of_segments hcut)
  unfold place
  rw [hcut]
  dsimp only
  cases houtcome : ((empty.run calls).root.insert template
      (Node.register template handler verbs) segs).outcome with
  | error e =>
      obtain ⟨start, old, ⟨s, hs, hstands, hbranch, hrank, hne⟩, rfl⟩ :=
        Node.exists_conflict_of_error ht.valid houtcome
      have hold := hs.of_rank_eq hrank
      obtain ⟨template', hadmitted, hplaceholder⟩ := (hasBranch_run_iff hold).1 hbranch
      refine Or.inl ⟨template', start, old.text, hadmitted,
        ⟨old, s, hplaceholder, ⟨hs, segs, hcut, hstands⟩, hrank, hne, rfl⟩, ?_⟩
      rw [ht.path, List.nil_append]
  | ok answer =>
      rw [Insertion.Follows, houtcome] at hfollows
      have hkeeps := Node.keepsShape_register template handler verbs
      have hvalid := ht.valid_of_brought hcut hfollows
      refine Or.inr ⟨?_, ?_⟩
      · -- both placeholders would be in one place of the tree afterwards
        rintro old start _ hadmitted
          ⟨s, s', hplaceholder, ⟨hs', segs', hcut', hstands⟩, hrank, hne, rfl⟩
        obtain rfl := Except.ok.inj (hcut.symm.trans hcut')
        have hs := hplaceholder.1
        have hbranch := (hasBranch_run_iff hs).2 ⟨old, hadmitted, hplaceholder⟩
        have hafter := (hfollows.hasBranch_iff hkeeps hs).2 (Or.inl hbranch)
        have hafter' := (hfollows.hasBranch_iff hkeeps hs').2 (Or.inr hstands)
        exact hne (congrArg Segment.text (Node.hasBranch_unique hvalid hs hafter hafter' hrank))
      · obtain ⟨d, hvisit, hroutes⟩ := hfollows.exists_visited ht.valid hlinked
        simp only [ht.path, List.nil_append, hspelled] at hroutes
        cases answer with
        | error o =>
            -- the verb that is taken has a route for the template
            obtain ⟨v, hv, r, hr, rfl⟩ := Node.exists_of_register_error hvisit
            obtain ⟨hholds, htemplate⟩ := (hroutes v r).1 hr
            refine Or.inl ⟨⟨v, hv, (exists_holds_iff hcut).1 ⟨r, hholds, htemplate⟩⟩, ?_⟩
            rw [htemplate]
        | ok k =>
            refine Or.inr ⟨fun v hv other hreg => ?_, rfl⟩
            obtain ⟨r, hr⟩ := (exists_holds_iff hcut).2 ⟨other, hreg⟩
            have hnone := (Node.register_of_ok hvisit).2.1 v hv
            rw [(hroutes v r).2 hr] at hnone
            cases hnone

theorem not_isSealed {calls : List (Call H)} (h : Call.sealing ∉ calls) :
    (empty.run calls).isSealed ≠ true := mt isSealed_run_iff.1 h

/-- A registration that gets as far as the tree is brought there. -/
theorem add_of_considered {calls : List (Call H)} {template : Text} {methods : List Method}
    (h : Considered calls template methods) (handler : H) :
    (empty.run calls).add template handler methods =
      (empty.run calls).place template handler (requestedVerbs methods) := by
  have hfind : methods.find? (·.verb?.isNone) = none := by
    rw [List.find?_eq_none]
    intro m hm
    simpa using h.verbs m hm
  rw [add, if_neg (not_isSealed h.unsealed), if_neg (not_not_intro h.slash), hfind]

/-- A verb is asked for and registered when one of the methods is. -/
theorem exists_requested_iff {calls : List (Call H)} {template : Text} {methods : List Method} :
    (∃ v ∈ requestedVerbs methods, ∃ other, Registered calls v.method template other) ↔
      ∃ m ∈ methods, ∃ other, Registered calls m template other := by
  constructor
  · rintro ⟨v, hv, hreg⟩
    exact ⟨v.method, mem_requestedVerbs.1 hv, hreg⟩
  · rintro ⟨m, hm, other, hreg⟩
    obtain ⟨v, rfl⟩ := exists_verb_of_registered hreg
    exact ⟨v, mem_requestedVerbs.2 hm, other, hreg⟩

/-- A registration answers with each verdict on it. -/
theorem outcome_eq_of_verdict {calls : List (Call H)} {template : Text} {methods : List Method}
    {outcome : Except RouteError Unit} (h : Verdict calls template methods outcome) (handler : H) :
    ((empty.run calls).add template handler methods).outcome = outcome := by
  cases h with
  | sealed closed => rw [add_of_sealed (isSealed_run_iff.2 closed)]
  | astray unsealed noSlash => rw [add, if_neg (not_isSealed unsealed), if_pos noSlash]
  | @unsupported unsealed slash before after m among first extension =>
      have hfind : methods.find? (·.verb?.isNone) = some m := by
        rw [List.find?_eq_some_iff_append]
        refine ⟨by simp [extension], before, after, among, fun m' hm' => ?_⟩
        simpa [Option.isSome_iff_ne_none] using first m' hm'
      rw [add, if_neg (not_isSealed unsealed), if_neg (not_not_intro slash), hfind]
  | uncut unsealed slash verbs malformed =>
      have hfind : methods.find? (·.verb?.isNone) = none := by
        rw [List.find?_eq_none]
        intro m hm
        simpa using verbs m hm
      rw [add, if_neg (not_isSealed unsealed), if_neg (not_not_intro slash), hfind]
      simp only [place, malformed]
  | clash considered admitted clashes _ =>
      obtain ⟨segs, hcut⟩ := considered.cut
      rw [add_of_considered considered]
      rcases place_outcome_cases calls hcut handler (requestedVerbs methods) with
        ⟨old, start, placeholder, hadmitted, hclashes, houtcome⟩ | ⟨hno, _⟩
      · obtain ⟨rfl, rfl⟩ := clash_unique admitted hadmitted clashes hclashes
        exact houtcome
      · exact absurd clashes (hno _ _ _ admitted)
  | taken considered noClash wanted registered =>
      obtain ⟨segs, hcut⟩ := considered.cut
      rw [add_of_considered considered]
      rcases place_outcome_cases calls hcut handler (requestedVerbs methods) with
        ⟨_, _, _, hadmitted, hclashes, _⟩ | ⟨_, ⟨_, houtcome⟩ | ⟨hfree, _⟩⟩
      · exact absurd hclashes (noClash _ _ _ hadmitted)
      · exact houtcome
      · obtain ⟨v, hv, other, hreg⟩ := exists_requested_iff.2 ⟨_, wanted, _, registered⟩
        exact absurd hreg (hfree v hv other)
  | accepted considered noClash free =>
      obtain ⟨segs, hcut⟩ := considered.cut
      rw [add_of_considered considered]
      rcases place_outcome_cases calls hcut handler (requestedVerbs methods) with
        ⟨_, _, _, hadmitted, hclashes, _⟩ | ⟨_, ⟨htaken, _⟩ | ⟨_, houtcome⟩⟩
      · exact absurd hclashes (noClash _ _ _ hadmitted)
      · obtain ⟨m, hm, other, hreg⟩ := exists_requested_iff.1 htaken
        exact absurd hreg (free m hm other)
      · exact houtcome

/-- There is a verdict on every registration. -/
theorem exists_verdict (calls : List (Call H)) (template : Text) (handler : H)
    (methods : List Method) : ∃ outcome, Verdict calls template methods outcome := by
  by_cases hsealed : Call.sealing ∈ calls
  · exact ⟨_, .sealed hsealed⟩
  by_cases hslash : template.head? = some '/'
  case neg => exact ⟨_, .astray hsealed hslash⟩
  cases hfind : methods.find? (·.verb?.isNone) with
  | some m =>
      obtain ⟨hm, before, after, hamong, hfirst⟩ := List.find?_eq_some_iff_append.1 hfind
      refine ⟨_, .unsupported hsealed hslash hamong (fun m' hm' => ?_) (by simpa using hm)⟩
      simpa [Option.isSome_iff_ne_none] using hfirst m' hm'
  | none =>
      have hverbs : ∀ m ∈ methods, m.verb? ≠ none := by
        intro m hm
        simpa using List.find?_eq_none.1 hfind m hm
      cases hcut : Template.segments template with
      | error e => exact ⟨_, .uncut hsealed hslash hverbs hcut⟩
      | ok segs =>
          have hconsidered : Considered calls template methods :=
            ⟨hsealed, hslash, hverbs, segs, hcut⟩
          rcases place_outcome_cases calls hcut handler (requestedVerbs methods) with
            ⟨old, start, placeholder, hadmitted, hclashes, _⟩ |
            ⟨hno, ⟨htaken, _⟩ | ⟨hfree, _⟩⟩
          · refine ⟨_, .clash hconsidered hadmitted hclashes
              fun old' start' placeholder' h h' => ?_⟩
            rw [(clash_unique hadmitted h hclashes h').1]
          · obtain ⟨m, hm, other, hreg⟩ := exists_requested_iff.1 htaken
            exact ⟨_, .taken hconsidered hno hm hreg⟩
          · refine ⟨_, .accepted hconsidered hno fun m hm other hreg => ?_⟩
            obtain ⟨v, hv, other', hreg'⟩ := exists_requested_iff.2 ⟨m, hm, other, hreg⟩
            exact hfree v hv other' hreg'

/-- **A registration answers with its verdict**, and no other answer is one. -/
theorem add_outcome_iff (calls : List (Call H)) (template : Text) (handler : H)
    (methods : List Method) (outcome : Except RouteError Unit) :
    ((empty.run calls).add template handler methods).outcome = outcome ↔
      Verdict calls template methods outcome := by
  constructor
  · rintro rfl
    obtain ⟨outcome, hverdict⟩ := exists_verdict calls template handler methods
    rwa [outcome_eq_of_verdict hverdict handler]
  · intro h
    exact outcome_eq_of_verdict h handler

/-- A `:name` and a `*name` can be in one place. -/
example : ((empty.run [.add "/a/:x".toList 0 [Verb.get.method]]).add "/a/*y".toList 1
    [Verb.get.method]).outcome = .ok () := by
  decide +kernel

end Tree

end RouteTree
