/-
**What a route table registers.**

An entry of a table may write its methods in many ways: in any letter case, in any order, several
times, and all nine of them as ANY.  What counts is the set of verbs that it denotes.  So it can be
said of a table as it is written whether a tree is built of it, and which routes that tree has.

If none is built, there is a first entry that is rejected, and the failure names it.  The words of
an entry are read before its path: one that is no token is an invalid method, whatever the path.
One that is a token, but no verb, is left to the tree, which looks at the path first.

Main definitions:

* `MethodSpec.verbs`, `MethodSpec.Known` — the verbs that an entry denotes, and whether all of its
  words mean some;
* `RouteEntry.Valid`, `RouteEntry.Conflicts` — what is asked of one entry, and of two;
* `RouteEntry.Alike` — two ways to write an entry;
* `RouteEntry.Rejected` — **why an entry is rejected** on top of others.

Main results:

* `MethodSpec.methods_eq_error_iff`, `MethodSpec.exists_methods` — how the words of an entry are
  read;
* `RouteTable.outcome_eq_error_iff` — a table fails at its first entry that is rejected;
* `RouteTable.buildTree_contents` — **a table is registered completely, or rejected at the right
  entry**.
-/
import RouteTree.Proofs.Grammar
import RouteTree.Proofs.Tables

set_option autoImplicit false
set_option relaxedAutoImplicit false

namespace RouteTree

/-! ### Words for methods -/

/-- A letter in upper case is a letter. -/
theorem isTokenChar_toUpper (c : Char) : isTokenChar c.toUpper = isTokenChar c := by
  have halpha : ∀ c : Char, c.isAlpha = (c.isUpper || c.isLower) := fun _ => rfl
  unfold Char.toUpper
  split
  · rename_i h
    have hlower : c.isLower = true :=
      Bool.and_eq_true_iff.2 ⟨decide_eq_true h.1, decide_eq_true h.2⟩
    have hupper : ∀ valid, Char.isUpper ⟨c.val + ('A'.val - 'a'.val), valid⟩ = true := by
      intro valid
      refine decide_eq_true ?_
      simp only [UInt32.le_iff_toNat_le, UInt32.toNat_add] at h ⊢
      simp only [Char.reduceVal, UInt32.reduceToNat, UInt32.reduceSub] at h ⊢
      omega
    simp only [isTokenChar, Char.isAlphanum, halpha, hlower, hupper, Bool.or_true, Bool.true_or]
  · rfl

/-- A text is a token in any letter case, or in none. -/
theorem isToken_upper {word : Text} : IsToken word.upper ↔ IsToken word := by
  simp [IsToken, Text.upper, isTokenChar_toUpper]

/-- The tokens of verbs are in upper case. -/
theorem Verb.upper_name (v : Verb) : v.name.upper = v.name := by cases v <;> decide

theorem Verb.method_injective : Function.Injective Verb.method := fun _ _ h =>
  Verb.name_injective (congrArg Method.name h)

namespace MethodSpec

/-- **A word means a verb**: it is the verb or ANY, in any letter case. -/
def means (word : Text) (v : Verb) : Bool :=
  word.sameLetters ['A', 'N', 'Y'] || word.sameLetters v.name

/-- **The verbs that an entry denotes**, in the order of the verbs and each once. -/
def verbs (spec : MethodSpec) : List Verb :=
  Verb.all.filter fun v => spec.names.any fun word => means word v

/-- Every word of an entry means some verb. -/
def Known (spec : MethodSpec) : Prop := ∀ word ∈ spec.names, ∃ v, means word v = true

theorem mem_verbs {spec : MethodSpec} {v : Verb} :
    v ∈ spec.verbs ↔ ∃ word ∈ spec.names, means word v = true := by
  simp [verbs, Verb.mem_all]

theorem means_iff {word : Text} {v : Verb} :
    means word v = true ↔ word.upper = ['A', 'N', 'Y'] ∨ word.upper = v.name := by
  have hany : Text.upper ['A', 'N', 'Y'] = ['A', 'N', 'Y'] := by decide
  simp [means, Text.sameLetters, v.upper_name, hany]

/-- A word that means a verb is a token. -/
theorem isToken_of_means {word : Text} {v : Verb} (h : means word v = true) : IsToken word := by
  rw [← isToken_upper]
  rcases means_iff.1 h with h | h
  · rw [h]
    decide
  · rw [h]
    exact v.isToken_name

/-- A word that is no token is an invalid method. -/
theorem methodsOf_of_not_token {word : Text} (h : ¬ IsToken word) :
    methodsOf word = .error (.invalidMethod word) := by
  have hany : ¬ word.sameLetters ['A', 'N', 'Y'] = true := by
    intro hany
    exact h (isToken_of_means (v := .get) (by simp [means, hany]))
  rw [methodsOf, if_neg hany, Method.ofWord, Method.ofText?, dif_neg (mt isToken_upper.1 h)]
  rfl

/-- A token is read as methods: as those verbs that it means, or as one that is no verb. -/
theorem exists_methodsOf {word : Text} (h : IsToken word) :
    ∃ methods, methodsOf word = .ok methods ∧
      (∀ v : Verb, v.method ∈ methods ↔ means word v = true) ∧
      ((∀ m ∈ methods, m.verb? ≠ none) ↔ ∃ v, means word v = true) := by
  by_cases hany : word.sameLetters ['A', 'N', 'Y'] = true
  · refine ⟨Verb.all.map Verb.method, if_pos hany, fun v => ?_, ?_⟩
    · simp [means, hany, Verb.mem_all]
    · simpa [means, hany] using ⟨Verb.get⟩
  · have htoken := isToken_upper.2 h
    have hmeans : ∀ v : Verb, means word v = true ↔ v.method = ⟨word.upper, htoken⟩ := by
      intro v
      have hne : word.upper ≠ ['A', 'N', 'Y'] := by
        have hupper : Text.upper ['A', 'N', 'Y'] = ['A', 'N', 'Y'] := by decide
        simpa [Text.sameLetters, hupper] using hany
      rw [means_iff, or_iff_right hne]
      exact ⟨fun heq => Method.ext_name heq.symm, fun heq => (congrArg Method.name heq).symm⟩
    refine ⟨[⟨word.upper, htoken⟩], ?_, fun v => ?_, ?_⟩
    · rw [methodsOf, if_neg hany, Method.ofWord, Method.ofText?, dif_pos htoken]
      rfl
    · rw [hmeans, List.mem_singleton]
    · rw [List.forall_mem_singleton, Option.ne_none_iff_exists']
      refine exists_congr fun v => ?_
      rw [Method.verb?_eq_some_iff, hmeans, eq_comm]

/-- Tokens are read one after another. -/
theorem exists_mapM_methodsOf {words : List Text} (h : ∀ word ∈ words, IsToken word) :
    ∃ read, words.mapM methodsOf = .ok read ∧
      (∀ v : Verb, v.method ∈ read.flatten ↔ ∃ word ∈ words, means word v = true) ∧
      ((∀ m ∈ read.flatten, m.verb? ≠ none) ↔ ∀ word ∈ words, ∃ v, means word v = true) := by
  induction words with
  | nil => exact ⟨[], rfl, by simp, by simp⟩
  | cons word words ih =>
      obtain ⟨hword, hwords⟩ := List.forall_mem_cons.1 h
      obtain ⟨methods, hmethods, hverbs, hknown⟩ := exists_methodsOf hword
      obtain ⟨read, hread, hverbs', hknown'⟩ := ih hwords
      refine ⟨methods :: read, ?_, fun v => ?_, ?_⟩
      · rw [List.mapM_cons, hmethods, hread]
        rfl
      · rw [List.flatten_cons, List.mem_append, hverbs, hverbs', List.exists_mem_cons_iff]
      · rw [List.flatten_cons, List.forall_mem_append, hknown, hknown', List.forall_mem_cons]

/-- The first word that is no token stops the reading. -/
theorem mapM_methodsOf_of_first {before after : List Text} {word : Text}
    (tokens : ∀ w ∈ before, IsToken w) (first : ¬ IsToken word) :
    (before ++ word :: after).mapM methodsOf = .error (.invalidMethod word) := by
  induction before with
  | nil =>
      rw [List.nil_append, List.mapM_cons, methodsOf_of_not_token first]
      rfl
  | cons w before ih =>
      obtain ⟨hw, hbefore⟩ := List.forall_mem_cons.1 tokens
      obtain ⟨methods, hmethods, _⟩ := exists_methodsOf hw
      rw [List.cons_append, List.mapM_cons, hmethods, ih hbefore]
      rfl

/-- **An entry of tokens is read**: its methods are the verbs that it denotes, and others only if
some word means no verb. -/
theorem exists_methods {spec : MethodSpec} (h : ∀ word ∈ spec.names, IsToken word) :
    ∃ methods, spec.methods = .ok methods ∧
      (∀ v : Verb, v.method ∈ methods ↔ v ∈ spec.verbs) ∧
      ((∀ m ∈ methods, m.verb? ≠ none) ↔ spec.Known) := by
  obtain ⟨read, hread, hverbs, hknown⟩ := exists_mapM_methodsOf h
  refine ⟨read.flatten, ?_, fun v => ?_, hknown⟩
  · rw [methods, hread]
    rfl
  · rw [hverbs, mem_verbs]

/-- The words of an entry are tokens, or there is a first one that is not. -/
theorem tokens_or_first (words : List Text) : (∀ word ∈ words, IsToken word) ∨
    ∃ before word after, words = before ++ word :: after ∧ (∀ w ∈ before, IsToken w) ∧
      ¬ IsToken word := by
  cases hfind : words.find? fun word => !decide (IsToken word) with
  | none => exact Or.inl (by simpa using List.find?_eq_none.1 hfind)
  | some word =>
      obtain ⟨hword, before, after, hwords, hbefore⟩ := List.find?_eq_some_iff_append.1 hfind
      exact Or.inr ⟨before, word, after, hwords, by simpa using hbefore, by simpa using hword⟩

theorem methods_of_first {spec : MethodSpec} {before after : List Text} {word : Text}
    (names : spec.names = before ++ word :: after) (tokens : ∀ w ∈ before, IsToken w)
    (first : ¬ IsToken word) : spec.methods = .error (.invalidMethod word) := by
  rw [methods, names, mapM_methodsOf_of_first tokens first]
  rfl

/-- **An entry is not read because of its first word that is no token.** -/
theorem methods_eq_error_iff {spec : MethodSpec} {cause : Cause} :
    spec.methods = .error cause ↔ ∃ before word after, spec.names = before ++ word :: after ∧
      (∀ w ∈ before, IsToken w) ∧ ¬ IsToken word ∧ cause = .invalidMethod word := by
  constructor
  · intro h
    rcases tokens_or_first spec.names with tokens | ⟨before, word, after, hnames, tokens, first⟩
    · obtain ⟨methods, hmethods, _⟩ := exists_methods tokens
      rw [hmethods] at h
      cases h
    · rw [methods_of_first hnames tokens first] at h
      exact ⟨before, word, after, hnames, tokens, first, (Except.error.inj h).symm⟩
  · rintro ⟨before, word, after, hnames, tokens, first, rfl⟩
    exact methods_of_first hnames tokens first

/-- **What is read of an entry**: the verbs that it denotes, and others only if some word means no
verb. -/
theorem mem_methods {spec : MethodSpec} {methods : List Method} (h : spec.methods = .ok methods) :
    (∀ v : Verb, v.method ∈ methods ↔ v ∈ spec.verbs) ∧
      ((∀ m ∈ methods, m.verb? ≠ none) ↔ spec.Known) := by
  rcases tokens_or_first spec.names with tokens | ⟨before, word, after, hnames, tokens, first⟩
  · obtain ⟨methods', hmethods, hread⟩ := exists_methods tokens
    rw [h] at hmethods
    rwa [← Except.ok.inj hmethods] at hread
  · rw [methods_of_first hnames tokens first] at h
    cases h

/-- An entry is read when its words mean verbs. -/
theorem Known.exists_methods {spec : MethodSpec} (h : spec.Known) :
    ∃ methods, spec.methods = .ok methods := by
  obtain ⟨methods, hmethods, _⟩ := MethodSpec.exists_methods fun word hword =>
    (h word hword).elim fun _ => isToken_of_means
  exact ⟨methods, hmethods⟩

end MethodSpec

/-! ### Entries -/

namespace RouteEntry

/-- **An entry that can be registered by itself**: each of its words is a verb or ANY, in any letter
case, and its path begins with a slash and is a template. -/
structure Valid (entry : RouteEntry) : Prop where
  known : entry.method.Known
  slash : entry.path.head? = some '/'
  cut : ∃ segs, Template.IsCut entry.path segs

/-- **Two entries that cannot both be registered**: their paths clash, or they denote one verb for
one path. -/
def Conflicts (entry entry' : RouteEntry) : Prop :=
  (∃ start placeholder, Template.ClashAt entry.path entry'.path start placeholder) ∨
    entry.path = entry'.path ∧ ∃ v ∈ entry.method.verbs, v ∈ entry'.method.verbs

/-- Two ways to write an entry: they denote the same verbs. -/
structure Alike (entry entry' : RouteEntry) : Prop where
  path : entry.path = entry'.path
  handler : entry.handler = entry'.handler
  known : entry.method.Known
  known' : entry'.method.Known
  verbs : ∀ v, v ∈ entry.method.verbs ↔ v ∈ entry'.method.verbs

/-- **Why an entry is rejected on top of others**, and the failure that tells it. -/
inductive Rejected (before : List RouteEntry) (entry : RouteEntry) : Failure → Prop
  /-- The first word that is no token, whatever the path is. -/
  | unresolved {words others : List Text} {word : Text}
      (names : entry.method.names = words ++ word :: others) (tokens : ∀ w ∈ words, IsToken w)
      (first : ¬ IsToken word) :
      Rejected before entry ⟨[.resolving entry.path entry.handler], .invalidMethod word⟩
  /-- The words are tokens, but the tree that the others have left refuses the path for them. -/
  | refused {methods : List Method} {e : RouteError}
      (read : entry.method.methods = .ok methods)
      (verdict : Verdict (before.map call) entry.path methods (.error e)) :
      Rejected before entry ⟨[.registering entry.path entry.handler], .route e⟩

/-- The call that registers an entry that is read. -/
theorem call_eq {entry : RouteEntry} {methods : List Method}
    (h : entry.method.methods = .ok methods) :
    entry.call = .add entry.path entry.handler methods := by
  simp [call, h, Except.toOption]

/-- An entry can be registered by itself when it is read and its call is well-formed. -/
theorem valid_iff {entry : RouteEntry} :
    entry.Valid ↔ entry.Readable ∧ entry.call.WellFormed := by
  constructor
  · rintro ⟨known, slash, segs, hcut⟩
    obtain ⟨methods, hmethods⟩ := known.exists_methods
    refine ⟨⟨methods, hmethods⟩, ?_⟩
    rw [call_eq hmethods]
    refine ⟨entry.path, rfl, slash, ⟨segs, Template.segments_eq_ok_iff.2 hcut⟩, ?_⟩
    rintro m _ _ ⟨_, _, hm⟩
    exact (MethodSpec.mem_methods hmethods).2.2 known m hm
  · rintro ⟨⟨methods, hmethods⟩, hwell⟩
    rw [call_eq hmethods] at hwell
    obtain ⟨_, htemplate, slash, ⟨segs, hcut⟩, verbs⟩ := hwell
    obtain rfl := Option.some.inj htemplate
    refine ⟨(MethodSpec.mem_methods hmethods).2.1 fun m hm => ?_, slash, segs,
      Template.segments_eq_ok_iff.1 hcut⟩
    exact verbs m _ _ ⟨rfl, rfl, hm⟩

/-- Entries whose words mean verbs conflict when their calls collide. -/
theorem collides_iff {entry entry' : RouteEntry} (h : entry.method.Known)
    (h' : entry'.method.Known) : entry.call.Collides entry'.call ↔ entry.Conflicts entry' := by
  obtain ⟨methods, hmethods⟩ := h.exists_methods
  obtain ⟨methods', hmethods'⟩ := h'.exists_methods
  obtain ⟨hverbs, hknown⟩ := MethodSpec.mem_methods hmethods
  have hverbs' := (MethodSpec.mem_methods hmethods').1
  rw [call_eq hmethods, call_eq hmethods']
  constructor
  · rintro (⟨_, _, htemplate, htemplate', hclash⟩ | ⟨m, _, _, _, ⟨rfl, _, hm⟩, hpath, _, hm'⟩)
    · obtain rfl := Option.some.inj htemplate
      obtain rfl := Option.some.inj htemplate'
      exact Or.inl hclash
    · obtain ⟨v, hv⟩ := Option.ne_none_iff_exists'.1 (hknown.2 h m hm)
      obtain rfl := Method.verb?_eq_some_iff.1 hv
      exact Or.inr ⟨hpath, v, (hverbs v).1 hm, (hverbs' v).1 hm'⟩
  · rintro (hclash | ⟨hpath, v, hv, hv'⟩)
    · exact Or.inl ⟨_, _, rfl, rfl, hclash⟩
    · exact Or.inr ⟨v.method, entry.path, entry.handler, entry'.handler,
        ⟨rfl, rfl, (hverbs v).2 hv⟩, hpath, rfl, (hverbs' v).2 hv'⟩

end RouteEntry

/-! ### Tables -/

/-- A registration depends on the set of its methods only, if they are verbs. -/
theorem Tree.add_congr {H : Type} (t : Tree H) (template : Text) (handler : H)
    {methods methods' : List Method} (verbs : ∀ m ∈ methods, m.verb? ≠ none)
    (verbs' : ∀ m ∈ methods', m.verb? ≠ none)
    (same : ∀ v : Verb, v.method ∈ methods ↔ v.method ∈ methods') :
    t.add template handler methods = t.add template handler methods' := by
  have hnone : ∀ methods : List Method, (∀ m ∈ methods, m.verb? ≠ none) →
      methods.find? (·.verb?.isNone) = none := by
    intro methods h
    rw [List.find?_eq_none]
    intro m hm
    simpa using h m hm
  have hrequested : requestedVerbs methods = requestedVerbs methods' := by
    refine List.filter_congr fun v _ => ?_
    rw [Bool.eq_iff_iff]
    simpa [Method.verb?_eq_some_iff] using same v
  rw [add, add, hnone methods verbs, hnone methods' verbs', hrequested]

namespace RouteTable

/-- **A tree is built when each entry can be registered by itself and no two conflict.** -/
theorem exists_tree_iff {table : RouteTable} :
    (∃ t, table.buildTree.outcome = .ok t) ↔ (∀ entry ∈ table.entries, entry.Valid) ∧
      table.entries.Pairwise fun entry entry' => ¬ entry.Conflicts entry' := by
  have hvalid : (∀ entry ∈ table.entries, entry.Valid) ↔
      (∀ entry ∈ table.entries, entry.Readable) ∧
        ∀ entry ∈ table.entries, entry.call.WellFormed := by
    simp only [RouteEntry.valid_iff, forall₂_and]
  simp only [outcome_eq_ok_iff, exists_and_left, exists_eq, and_true,
    Tree.accepts_iff (sealing_not_mem_calls _), List.forall_mem_map, ← and_assoc, ← hvalid,
    List.pairwise_map]
  refine and_congr_right fun hall => List.Pairwise.iff_of_mem fun {entry entry'} h h' => ?_
  rw [RouteEntry.collides_iff (hall entry h).known (hall entry' h').known]

/-- **The routes that a table asks for**: those of each entry, one for each verb that it denotes. -/
def routes (table : RouteTable) : List (Method × Text × Text) :=
  table.entries.flatMap fun entry =>
    entry.method.verbs.map fun v => (v.method, entry.path, entry.handler)

theorem mem_routes_iff {table : RouteTable} {v : Verb} {path handler : Text} :
    (v.method, path, handler) ∈ table.routes ↔ ∃ entry ∈ table.entries,
      v ∈ entry.method.verbs ∧ entry.path = path ∧ entry.handler = handler := by
  simp only [routes, List.mem_flatMap, List.mem_map, Prod.mk.injEq,
    Verb.method_injective.eq_iff]
  refine exists_congr fun entry => and_congr_right fun _ => ?_
  constructor
  · rintro ⟨_, hv, rfl, hpath, hhandler⟩
    exact ⟨hv, hpath, hhandler⟩
  · rintro ⟨hv, hpath, hhandler⟩
    exact ⟨v, hv, rfl, hpath, hhandler⟩

/-- A table of which a tree is built asks for no route twice. -/
theorem nodup_routes {table : RouteTable}
    (h : table.entries.Pairwise fun entry entry' => ¬ entry.Conflicts entry') :
    table.routes.Nodup := by
  refine List.nodup_flatMap.2 ⟨fun entry _ => ?_, h.imp fun {entry entry'} apart => ?_⟩
  · have hverbs : entry.method.verbs.Nodup := List.Nodup.filter _ (by decide)
    refine hverbs.map fun v v' heq => Verb.method_injective (Prod.mk.inj heq).1
  · refine List.disjoint_left.2 fun p hp hp' => ?_
    obtain ⟨v, hv, rfl⟩ := List.mem_map.1 hp
    obtain ⟨v', hv', heq⟩ := List.mem_map.1 hp'
    simp only [Prod.mk.injEq] at heq
    obtain ⟨hmethod, hpath, _⟩ := heq
    obtain rfl := Verb.method_injective hmethod
    exact apart (Or.inr ⟨hpath.symm, v', hv, hv'⟩)

/-- **The tree of a table gives account of the routes that the table asks for**, and of each
once. -/
theorem account_perm {table : RouteTable} {t : Tree Text} (h : table.buildTree.outcome = .ok t) :
    t.account.Perm table.routes ∧ t.account.Nodup := by
  obtain ⟨_, apart⟩ := exists_tree_iff.1 ⟨t, h⟩
  obtain ⟨readable, taken, rfl⟩ := outcome_eq_ok_iff.1 h
  have honce := List.Nodup.of_map _ (Tree.apart_run (table.entries.map RouteEntry.call))
  refine ⟨(List.perm_ext_iff_of_nodup honce (nodup_routes apart)).2 ?_, honce⟩
  -- what is asked for by the entries is what is asked for by their calls
  have hasks : ∀ (v : Verb) path handler,
      Registered (table.entries.map RouteEntry.call) v.method path handler ↔
        (v.method, path, handler) ∈ table.routes := by
    intro v path handler
    rw [taken.registered_iff, mem_routes_iff]
    simp only [List.mem_map, exists_exists_and_eq_and]
    refine exists_congr fun entry => and_congr_right fun hentry => ?_
    obtain ⟨methods, hmethods⟩ := readable entry hentry
    rw [RouteEntry.call_eq hmethods, ← (MethodSpec.mem_methods hmethods).1 v]
    constructor
    · rintro ⟨rfl, rfl, hm⟩
      exact ⟨hm, rfl, rfl⟩
    · rintro ⟨hm, rfl, rfl⟩
      exact ⟨rfl, rfl, hm⟩
  rintro ⟨m, path, handler⟩
  constructor
  · rw [Tree.mem_account_iff]
    rintro ⟨v, r, hmem, rfl, rfl, rfl⟩
    exact (hasks _ _ _).1 (Tree.mem_walk_run_iff.1 hmem).1
  · intro hmem
    obtain ⟨entry, _, hroute⟩ := List.mem_flatMap.1 hmem
    obtain ⟨v, _, hroute⟩ := List.mem_map.1 hroute
    obtain ⟨rfl, rfl, rfl⟩ : v.method = m ∧ entry.path = path ∧ entry.handler = handler := by
      simpa using hroute
    have hreg := (hasks _ _ _).2 hmem
    obtain ⟨segs, hcut⟩ := Tree.exists_segments_of_registered hreg
    exact Tree.mem_account_iff.2 ⟨v, ⟨entry.path, Template.paramNames segs, entry.handler⟩,
      Tree.mem_walk_run_iff.2 ⟨hreg, segs, hcut, rfl⟩, rfl, rfl, rfl⟩

/-! ### Ways to write a table -/

/-- Entries that are written alike are registered alike. -/
theorem register_congr {entry entry' : RouteEntry} (h : entry.Alike entry') (t : Tree Text) :
    register t entry = register t entry' := by
  obtain ⟨methods, hmethods⟩ := h.known.exists_methods
  obtain ⟨methods', hmethods'⟩ := h.known'.exists_methods
  obtain ⟨hverbs, hknown⟩ := MethodSpec.mem_methods hmethods
  obtain ⟨hverbs', hknown'⟩ := MethodSpec.mem_methods hmethods'
  have hadd := t.add_congr entry'.path entry'.handler (hknown.2 h.known) (hknown'.2 h.known')
    fun v => by rw [hverbs, hverbs', h.verbs]
  simp only [register, hmethods, hmethods', h.path, h.handler, hadd]

theorem registerAll_congr {entries entries' : List RouteEntry}
    (h : List.Forall₂ RouteEntry.Alike entries entries') (t : Tree Text) :
    registerAll t entries = registerAll t entries' := by
  induction h generalizing t with
  | nil => rfl
  | cons hentry _ ih => simp only [registerAll, register_congr hentry, ih]

/-- **Tables that are written alike give the same tree.** -/
theorem buildTree_congr {table table' : RouteTable}
    (h : List.Forall₂ RouteEntry.Alike table.entries table'.entries) :
    table.buildTree = table'.buildTree := by
  rw [buildTree, buildTree, registerAll_congr h, h.length_eq]

/-! ### The first entry that is rejected -/

/-- Some entries fail at the first one that cannot be registered. -/
theorem registerAll_eq_error_iff {t : Tree Text} {entries : List RouteEntry} {f : Failure} :
    (registerAll t entries).outcome = .error f ↔
      ∃ before entry after t', entries = before ++ entry :: after ∧
        (registerAll t before).outcome = .ok t' ∧ (register t' entry).outcome = .error f := by
  induction entries generalizing t with
  | nil => simp [registerAll]
  | cons entry entries ih =>
      cases hfirst : (register t entry).outcome with
      | error f' =>
          constructor
          · intro h
            obtain rfl : f' = f := by simpa [registerAll, hfirst] using h
            exact ⟨[], entry, entries, t, rfl, rfl, hfirst⟩
          · rintro ⟨before, entry', after, t', heq, hbefore, hfails⟩
            cases before with
            | nil =>
                obtain ⟨rfl, rfl⟩ := List.cons.inj heq
                obtain rfl : t = t' := Except.ok.inj hbefore
                rw [hfirst] at hfails
                simpa [registerAll, hfirst] using hfails
            | cons e before =>
                obtain ⟨rfl, rfl⟩ := List.cons.inj heq
                simp [registerAll, hfirst] at hbefore
      | ok t₁ =>
          have hrest : (registerAll t (entry :: entries)).outcome =
              (registerAll t₁ entries).outcome := by
            simp [registerAll, hfirst]
          rw [hrest, ih]
          constructor
          · rintro ⟨before, entry', after, t', rfl, hbefore, hfails⟩
            refine ⟨entry :: before, entry', after, t', rfl, ?_, hfails⟩
            simpa [registerAll, hfirst] using hbefore
          · rintro ⟨before, entry', after, t', heq, hbefore, hfails⟩
            cases before with
            | nil =>
                obtain ⟨rfl, rfl⟩ := List.cons.inj heq
                obtain rfl : t = t' := Except.ok.inj hbefore
                rw [hfirst] at hfails
                cases hfails
            | cons e before =>
                obtain ⟨rfl, rfl⟩ := List.cons.inj heq
                refine ⟨before, entry', after, t', rfl, ?_, hfails⟩
                simpa [registerAll, hfirst] using hbefore

/-- An entry fails on top of others for the reason that it is rejected for. -/
theorem register_eq_error_iff {before : List RouteEntry} {entry : RouteEntry} {f : Failure} :
    (register (Tree.empty.run (before.map RouteEntry.call)) entry).outcome = .error f ↔
      entry.Rejected before f := by
  constructor
  · intro h
    cases hmethods : entry.method.methods with
    | error cause =>
        obtain ⟨words, word, others, hnames, tokens, first, rfl⟩ :=
          MethodSpec.methods_eq_error_iff.1 hmethods
        obtain rfl : _ = f := by simpa [register, hmethods] using h
        exact .unresolved hnames tokens first
    | ok methods =>
        obtain ⟨outcome, hverdict⟩ :=
          Tree.exists_verdict (before.map RouteEntry.call) entry.path entry.handler methods
        have houtcome := Tree.outcome_eq_of_verdict hverdict entry.handler
        cases outcome with
        | ok done => simp [register, hmethods, houtcome] at h
        | error e =>
            obtain rfl : _ = f := by simpa [register, hmethods, houtcome] using h
            exact .refused hmethods hverdict
  · intro h
    cases h with
    | unresolved names tokens first =>
        have hmethods := MethodSpec.methods_of_first names tokens first
        rw [register, hmethods]
        rfl
    | refused read verdict =>
        have houtcome := Tree.outcome_eq_of_verdict verdict entry.handler
        rw [register, read]
        dsimp only
        rw [houtcome]
        rfl

/-- **A table fails at its first entry that is rejected**: a tree is built of the entries before it,
and it is rejected on top of them. -/
theorem outcome_eq_error_iff {table : RouteTable} {f : Failure} :
    table.buildTree.outcome = .error f ↔ ∃ before entry after,
      table.entries = before ++ entry :: after ∧
        (∃ t, (RouteTable.mk before).buildTree.outcome = .ok t) ∧ entry.Rejected before f := by
  have houtcome : table.buildTree.outcome = .error f ↔
      (registerAll .empty table.entries).outcome = .error f := by
    rw [buildTree]
    cases (registerAll .empty table.entries).outcome <;> simp
  have hbuilt : ∀ before t, (RouteTable.mk before).buildTree.outcome = .ok t ↔
      (registerAll .empty before).outcome = .ok t := by
    intro before t
    rw [outcome_eq_ok_iff, registerAll_eq_ok_iff]
  rw [houtcome, registerAll_eq_error_iff]
  simp only [hbuilt]
  constructor
  · rintro ⟨before, entry, after, t, hentries, hbefore, hfails⟩
    refine ⟨before, entry, after, hentries, ⟨t, hbefore⟩, register_eq_error_iff.1 ?_⟩
    obtain ⟨_, _, rfl⟩ := registerAll_eq_ok_iff.1 hbefore
    exact hfails
  · rintro ⟨before, entry, after, hentries, ⟨t, hbefore⟩, hrejected⟩
    refine ⟨before, entry, after, t, hentries, hbefore, ?_⟩
    obtain ⟨_, _, rfl⟩ := registerAll_eq_ok_iff.1 hbefore
    exact register_eq_error_iff.2 hrejected

/-- **A table is registered completely, or rejected at the right entry.**  A tree is built of it
exactly when each entry can be registered by itself and no two conflict.  The tree has the routes
that the table asks for, each once, and it is the same for every way to write the entries.
Otherwise the failure is that of the first entry which is rejected on top of those before it. -/
theorem buildTree_contents (table : RouteTable) :
    ((∃ t, table.buildTree.outcome = .ok t) ↔ (∀ entry ∈ table.entries, entry.Valid) ∧
        table.entries.Pairwise fun entry entry' => ¬ entry.Conflicts entry') ∧
      (∀ t, table.buildTree.outcome = .ok t →
        t.account.Perm table.routes ∧ t.account.Nodup) ∧
      (∀ table' : RouteTable, List.Forall₂ RouteEntry.Alike table.entries table'.entries →
        table.buildTree = table'.buildTree) ∧
      ∀ f, table.buildTree.outcome = .error f ↔ ∃ before entry after,
        table.entries = before ++ entry :: after ∧
          (∃ t, (RouteTable.mk before).buildTree.outcome = .ok t) ∧ entry.Rejected before f :=
  ⟨exists_tree_iff, fun _ => account_perm, fun _ => buildTree_congr, fun _ =>
    outcome_eq_error_iff⟩

/-- A word that is no token is reported, though the path does not begin with a
slash either. -/
example : (RouteTable.mk [⟨.many ["get".toList, "GE T".toList], "pets".toList,
      "list_pets".toList⟩]).buildTree.outcome =
    .error ⟨[.resolving "pets".toList "list_pets".toList], .invalidMethod "GE T".toList⟩ := by
  rfl

end RouteTable

end RouteTree
