/-
**The grammar of templates.**

Which texts are templates can be said without going through them: a template is made of literal
runs and placeholders, each as its kind requires and followed by what may follow it.  The cut of a
template finds these pieces, and there is one way to find them only.

A text that is no template has a first placeholder that is bad, and what is bad about it decides
which error there is.  First means first on the way from left to right, on which the name of a
parameter is passed over up to the next slash: a colon or a star within it opens nothing.

Main definitions:

* `Template.IsCut` — **the pieces that a template is made of**;
* `Template.Passed` — pieces that are passed on the way to a placeholder;
* `Template.Fault` — **the first bad placeholder of a text**, and the error that it is.

Main results:

* `Template.segments_eq_ok_iff`, `Template.IsCut.unique` — a text is cut into the pieces that it is
  made of, and there is one row of them;
* `Template.segments_eq_error_iff` — a text is refused for its first bad placeholder;
* `Template.segments_eq_iff` — **both, for the cut by characters and by bytes**.
-/
import RouteTree.Proofs.ByteCut

set_option autoImplicit false
set_option relaxedAutoImplicit false

namespace RouteTree

namespace Template

/-! ### The pieces of a template -/

/-- A segment stands right behind another one in a row. -/
def Neighbours (segs : List Segment) (s s' : Segment) : Prop :=
  ∃ before after, segs = before ++ s :: s' :: after

/-- **The pieces that a template is made of.** -/
structure IsCut (template : Text) (segs : List Segment) : Prop where
  /-- Their texts make up the template. -/
  spells : segs.flatMap Segment.text = template
  /-- A literal run is not empty and has no markers. -/
  literal : ∀ run, .literal run ∈ segs → run ≠ [] ∧ ':' ∉ run ∧ '*' ∉ run
  /-- A parameter is a colon and at least one character, and no slash. -/
  param : ∀ t, .param t ∈ segs → (∃ name, t = ':' :: name ∧ name ≠ []) ∧ '/' ∉ t
  /-- A wildcard is a star and at least one character, and no slash. -/
  wildcard : ∀ t, .wildcard t ∈ segs → (∃ name, t = '*' :: name ∧ name ≠ []) ∧ '/' ∉ t
  /-- A parameter is last, or followed by a literal run that begins with a slash. -/
  follows : ∀ t s, Neighbours segs (.param t) s → ∃ run, s = .literal ('/' :: run)
  /-- A wildcard is last. -/
  last : ∀ t s, ¬ Neighbours segs (.wildcard t) s
  /-- No two literal runs stand side by side. -/
  apart : ∀ run run', ¬ Neighbours segs (.literal run) (.literal run')

theorem isMarker_eq_false_of_notMem {run : Text} (hcolon : ':' ∉ run) (hstar : '*' ∉ run) :
    ∀ c ∈ run, isMarker c = false := by
  intro c hc
  have hne : c ≠ ':' := fun h => hcolon (h ▸ hc)
  have hne' : c ≠ '*' := fun h => hstar (h ▸ hc)
  simp [isMarker, hne, hne']

theorem isWithin_of_notMem {name : Text} (h : '/' ∉ name) : ∀ c ∈ name, isWithin c = true := by
  intro c hc
  have hne : c ≠ '/' := fun heq => h (heq ▸ hc)
  simp [isWithin, hne]

/-- Each piece of a template is a proper segment. -/
theorem IsCut.proper {template : Text} {segs : List Segment} (h : IsCut template segs) :
    ∀ s ∈ segs, s.Proper := by
  intro s hs
  cases s with
  | literal run =>
      obtain ⟨nonempty, hcolon, hstar⟩ := h.literal run hs
      exact .literal nonempty (isMarker_eq_false_of_notMem hcolon hstar)
  | param t =>
      obtain ⟨⟨name, rfl, named⟩, hslash⟩ := h.param t hs
      exact .param named (isWithin_of_notMem fun hmem => hslash (List.mem_cons_of_mem _ hmem))
  | wildcard t =>
      obtain ⟨⟨name, rfl, named⟩, hslash⟩ := h.wildcard t hs
      exact .wildcard named (isWithin_of_notMem fun hmem => hslash (List.mem_cons_of_mem _ hmem))

/-- **The pieces of a template are a linked and parted row that spells it.** -/
theorem isCut_iff {template : Text} {segs : List Segment} :
    IsCut template segs ↔ Linked segs ∧ Parted segs ∧ spelled segs = template := by
  constructor
  · intro h
    refine ⟨⟨h.proper, ?_⟩, ?_, h.spells⟩
    · refine List.isChain_iff_forall_rel_of_append_cons_cons.2 fun s s' before after heq => ?_
      have hnext : Neighbours segs s s' := ⟨before, after, heq⟩
      cases s with
      | literal run => trivial
      | param t =>
          obtain ⟨run, rfl⟩ := h.follows t s' hnext
          rfl
      | wildcard t => exact (h.last t s' hnext).elim
    · refine List.isChain_iff_forall_rel_of_append_cons_cons.2 fun s s' before after heq => ?_
      have hnext : Neighbours segs s s' := ⟨before, after, heq⟩
      cases s with
      | literal run =>
          cases s' with
          | literal run' => exact (h.apart run run' hnext).elim
          | param t => trivial
          | wildcard t => trivial
      | param t => trivial
      | wildcard t => trivial
  · rintro ⟨⟨proper, linked⟩, parted, spells⟩
    have hlinked : ∀ s s', Neighbours segs s s' → s.CanPrecede s' := by
      rintro s s' ⟨before, after, heq⟩
      exact List.isChain_iff_forall_rel_of_append_cons_cons.1 linked heq
    have hparted : ∀ s s', Neighbours segs s s' → s.Parts s' := by
      rintro s s' ⟨before, after, heq⟩
      exact List.isChain_iff_forall_rel_of_append_cons_cons.1 parted heq
    refine ⟨spells, fun run hs => (proper _ hs).literal_text, fun t hs => (proper _ hs).param_text,
      fun t hs => (proper _ hs).wildcard_text, fun t s hnext => ?_, fun t s => hlinked _ s,
      fun run run' => hparted _ _⟩
    have hfollows := hlinked _ s hnext
    cases s with
    | literal run =>
        obtain ⟨more, rfl⟩ := List.head?_eq_some_iff.1 hfollows
        exact ⟨more, rfl⟩
    | param t' => exact hfollows.elim
    | wildcard t' => exact hfollows.elim

/-- **A text is cut into the pieces that it is made of.** -/
theorem segments_eq_ok_iff {template : Text} {segs : List Segment} :
    segments template = .ok segs ↔ IsCut template segs := by
  rw [isCut_iff]
  constructor
  · exact cut_of_segmentsFrom
  · rintro ⟨linked, parted, rfl⟩
    rw [segments_spelled linked, merged_of_parted parted]

/-- There is one row of pieces only. -/
theorem IsCut.unique {template : Text} {segs segs' : List Segment} (h : IsCut template segs)
    (h' : IsCut template segs') : segs = segs' :=
  Except.ok.inj ((segments_eq_ok_iff.2 h).symm.trans (segments_eq_ok_iff.2 h'))

/-! ### The first bad placeholder -/

/-- **Pieces that are passed on the way to a placeholder**: a beginning of a template that ends in a
literal run, if it is not empty.  Behind a parameter no placeholder could begin, because its name
goes on to the next slash. -/
def Passed (segs : List Segment) : Prop :=
  IsCut (spelled segs) segs ∧ ∀ s ∈ segs.getLast?, ∃ run, s = .literal run

/-- **The first bad placeholder of a text**, and the error that it is. -/
inductive Fault (template : Text) : RouteError → Prop
  /-- A marker is followed by a slash, or by nothing. -/
  | unnamed {passed : List Segment} {marker : Char} {rest : Text} (way : Passed passed)
      (opens : marker = ':' ∨ marker = '*') (bare : rest = [] ∨ rest.head? = some '/')
      (whole : template = spelled passed ++ marker :: rest) :
      Fault template (.emptyParamName template)
  /-- A wildcard with a name is followed by a slash.  The error names the template up to the end of
  the wildcard. -/
  | continued {passed : List Segment} {name rest : Text} (way : Passed passed)
      (named : name ≠ []) (within : '/' ∉ name)
      (whole : template = spelled passed ++ '*' :: (name ++ '/' :: rest)) :
      Fault template (.routeConflict (spelled passed ++ '*' :: name) template)

/-- Pieces that are passed are linked and parted, and end in a literal run. -/
theorem passed_iff {segs : List Segment} :
    Passed segs ↔ Linked segs ∧ Parted segs ∧ ∀ s ∈ segs.getLast?, ∃ run, s = .literal run := by
  simp only [Passed, isCut_iff, and_true, and_assoc]

/-- A run without markers is passed. -/
theorem passed_run {run : Text} (plain : ∀ c ∈ run, isMarker c = false) :
    Passed (Segment.literalThen run []) := by
  have hone : Parted [.literal run] := .singleton _
  refine passed_iff.2 ⟨linked_nil.literal_literalThen plain, hone.literalThen run, fun s hs => ?_⟩
  by_cases hempty : run = []
  · simp [hempty] at hs
  · refine ⟨run, ?_⟩
    simpa [Segment.literalThen, hempty, eq_comm] using hs

/-- A parameter is passed, and what stands before it, if what is passed behind it begins with a
slash. -/
theorem Passed.behind {segs : List Segment} {run name : Text} (h : Passed segs)
    (plain : ∀ c ∈ run, isMarker c = false) (named : name ≠ [])
    (within : ∀ c ∈ name, isWithin c = true) (nonempty : segs ≠ [])
    (opens : ∀ c ∈ (spelled segs).head?, c = '/') :
    Passed (Segment.literalThen run (.param (':' :: name) :: segs)) := by
  obtain ⟨linked, parted, ends⟩ := passed_iff.1 h
  have hparted : Parted (.literal run :: .param (':' :: name) :: segs) :=
    .cons_cons trivial (parted_cons.2 ⟨fun _ _ => trivial, parted⟩)
  refine passed_iff.2 ⟨(linked.param_cons named within opens).literal_literalThen plain,
    hparted.literalThen run, fun s hs => ends s ?_⟩
  rw [Segment.literalThen_eq_append, List.getLast?_append, List.getLast?_cons] at hs
  rw [List.getLast?_eq_some_getLast nonempty] at hs ⊢
  exact hs

/-- The pieces in front of a bad placeholder are cut off, and the error is that of the rest. -/
theorem segmentsFrom_passed (whole : Text) {segs : List Segment} {rest : Text} {e : RouteError}
    (h : Linked segs) (ends : ∀ s ∈ segs.getLast?, ∃ run, s = .literal run)
    (fails : segmentsFrom whole rest = .error e) :
    segmentsFrom whole (spelled segs ++ rest) = .error e := by
  induction segs with
  | nil => exact fails
  | cons s segs ih =>
      obtain ⟨proper, hnext, hsegs⟩ := linked_cons.1 h
      have hends : ∀ s ∈ segs.getLast?, ∃ run, s = .literal run := by
        intro s' hs'
        refine ends s' ?_
        rw [List.getLast?_cons, Option.mem_def.1 hs']
        rfl
      have hrest := ih hsegs hends
      rw [spelled_cons, List.append_assoc]
      cases proper with
      | literal nonempty plain =>
          rw [Segment.text, segmentsFrom_append nonempty plain, hrest]
          rfl
      | @param name named within =>
          -- the parameter is not the last piece, so a slash follows its name
          have hopens : ∀ c ∈ (spelled segs ++ rest).head?, c = '/' := by
            cases segs with
            | nil =>
                obtain ⟨run, hrun⟩ := ends (.param (':' :: name)) rfl
                cases hrun
            | cons s' segs =>
                have hne := (linked_cons.1 hsegs).1.ne_nil
                rw [spelled_cons, List.append_assoc, List.head?_append_of_ne_nil _ hne]
                have hs' := h.opens
                rwa [spelled_cons, List.head?_append_of_ne_nil _ hne] at hs'
          rw [Segment.text, segmentsFrom_param named within hopens, hrest]
          rfl
      | @wildcard name named within =>
          obtain rfl := h.eq_nil_of_wildcard
          obtain ⟨run, hrun⟩ := ends (.wildcard ('*' :: name)) rfl
          cases hrun

/-- A marker without a name is refused. -/
theorem segmentsFrom_unnamed (whole : Text) {marker : Char} {rest : Text}
    (hm : isMarker marker = true) (bare : rest = [] ∨ rest.head? = some '/') :
    segmentsFrom whole (marker :: rest) = .error (.emptyParamName whole) := by
  have h : segmentsFrom whole ([] ++ marker :: rest) = _ := segmentsFrom_marked whole (by simp) hm
  have hname : rest.takeWhile isWithin = [] := by
    rcases bare with rfl | hslash
    · rfl
    · obtain ⟨more, rfl⟩ := List.head?_eq_some_iff.1 hslash
      rfl
  rw [if_pos hname] at h
  exact h

/-- A wildcard that is not the end is refused. -/
theorem segmentsFrom_continued {whole start name rest : Text} (named : name ≠ [])
    (within : '/' ∉ name) (split : whole = start ++ '*' :: (name ++ '/' :: rest)) :
    segmentsFrom whole ('*' :: (name ++ '/' :: rest)) =
      .error (.routeConflict (start ++ '*' :: name) whole) := by
  have h : segmentsFrom whole ([] ++ '*' :: (name ++ '/' :: rest)) = _ :=
    segmentsFrom_marked whole (by simp) rfl
  have hopens : ∀ c ∈ ('/' :: rest).head?, c = '/' := by simp
  obtain ⟨ht, hd⟩ := span_within (isWithin_of_notMem within) hopens
  rw [ht, hd, if_neg named, if_pos rfl, if_neg (by simp), List.nil_append] at h
  have hwhole : whole = (start ++ '*' :: name) ++ '/' :: rest := by simp [split]
  rw [h, take_of_append hwhole]

/-- A text is refused for its first bad placeholder. -/
theorem segments_of_fault {template : Text} {e : RouteError} (h : Fault template e) :
    segments template = .error e := by
  cases h with
  | @unnamed passed marker rest way opens bare whole =>
      obtain ⟨linked, _, ends⟩ := passed_iff.1 way
      have hm : isMarker marker = true := by rcases opens with rfl | rfl <;> rfl
      have hfails := segmentsFrom_unnamed template hm bare
      have hall := segmentsFrom_passed template linked ends hfails
      rwa [← whole] at hall
  | @continued passed name rest way named within whole =>
      obtain ⟨linked, _, ends⟩ := passed_iff.1 way
      have hfails := segmentsFrom_continued named within whole
      have hall := segmentsFrom_passed template linked ends hfails
      rwa [← whole] at hall

/-- What is refused has pieces that are passed, and then a marker where the refusal begins. -/
theorem exists_passed_of_error {whole rest : Text} {e : RouteError}
    (h : segmentsFrom whole rest = .error e) :
    ∃ passed marker after, Passed passed ∧ isMarker marker = true ∧
      rest = spelled passed ++ marker :: after ∧
      (after.takeWhile isWithin = [] ∧ e = .emptyParamName whole ∨
        after.takeWhile isWithin ≠ [] ∧ marker = '*' ∧ after.dropWhile isWithin ≠ [] ∧
          e = .routeConflict (whole.take (whole.length - (after.dropWhile isWithin).length))
            whole) := by
  induction hn : rest.length using Nat.strong_induction_on generalizing rest with
  | _ n ih =>
      rcases plain_or_marked rest with plain | ⟨run, marker, after, rfl, plain, hm⟩
      · rw [segmentsFrom_plain whole plain] at h
        cases h
      · rw [segmentsFrom_marked whole plain hm] at h
        have hspelled : ∀ t, run ++ t = spelled (Segment.literalThen run []) ++ t := by simp
        by_cases named : after.takeWhile isWithin = []
        · -- the refusal begins here: the marker has no name
          obtain rfl : RouteError.emptyParamName whole = e := by simpa [named] using h
          exact ⟨_, marker, after, passed_run plain, hm, hspelled _, Or.inl ⟨named, rfl⟩⟩
        rw [if_neg named] at h
        rcases eq_of_isMarker hm with rfl | rfl
        · -- a parameter is passed, and the refusal begins behind it
          rw [if_neg (by decide)] at h
          cases hmore : segmentsFrom whole (after.dropWhile isWithin) with
          | ok more => simp [hmore, Except.map] at h
          | error e' =>
              obtain rfl : e' = e := by simpa [hmore, Except.map] using h
              have hless : (after.dropWhile isWithin).length < n := by
                have := length_dropWhile_le isWithin after
                rw [← hn]
                simp only [List.length_append, List.length_cons]
                omega
              obtain ⟨passed, marker', after', way, hm', hrest, hfails⟩ := ih _ hless hmore rfl
              have hopens := head?_dropWhile_within after
              rw [hrest] at hopens
              -- the next marker is no slash, so there is a run in front of it
              have hne : passed ≠ [] := by
                rintro rfl
                rw [hopens marker' rfl] at hm'
                cases hm'
              have hslash : ∀ c ∈ (spelled passed).head?, c = '/' := by
                intro c hc
                refine hopens c ?_
                rw [List.head?_append, Option.mem_def.1 hc]
                rfl
              refine ⟨_, marker', after',
                way.behind plain named (within_of_takeWhile after) hne hslash, hm', ?_, hfails⟩
              rw [spelled_literalThen, spelled_cons, Segment.text, List.append_assoc,
                List.append_assoc, ← hrest, List.cons_append, List.takeWhile_append_dropWhile]
        · -- the refusal begins here: the wildcard is not the end
          rw [if_pos rfl] at h
          by_cases hend : after.dropWhile isWithin = []
          · simp [hend] at h
          · rw [if_neg hend] at h
            have he := (Except.error.inj h).symm
            exact ⟨_, '*', after, passed_run plain, rfl, hspelled _, Or.inr ⟨named, rfl, hend, he⟩⟩

/-- What is refused has a first bad placeholder. -/
theorem fault_of_error {template : Text} {e : RouteError} (h : segments template = .error e) :
    Fault template e := by
  obtain ⟨passed, marker, after, way, hm, hwhole, ⟨hname, rfl⟩ | ⟨named, rfl, hbeyond, rfl⟩⟩ :=
    exists_passed_of_error h
  · refine .unnamed way (eq_of_isMarker hm) ?_ hwhole
    cases after with
    | nil => exact Or.inl rfl
    | cons c after =>
        refine Or.inr ?_
        have hc : isWithin c = false := by
          by_contra hc
          simp [hc] at hname
        simpa [isWithin] using hc
  · obtain ⟨c, rest, hrest⟩ := List.exists_cons_of_ne_nil hbeyond
    obtain rfl : c = '/' := head?_dropWhile_within after c (by rw [hrest]; rfl)
    have hafter : after = after.takeWhile isWithin ++ '/' :: rest := by
      rw [← hrest, List.takeWhile_append_dropWhile]
    have hsplit : template =
        (spelled passed ++ '*' :: after.takeWhile isWithin) ++ after.dropWhile isWithin := by
      rw [hwhole, List.append_assoc, List.cons_append, List.takeWhile_append_dropWhile]
    rw [take_of_append hsplit]
    rw [hafter] at hwhole
    exact .continued way named (Segment.slash_notMem (within_of_takeWhile after)) hwhole

/-- **A text is refused for its first bad placeholder.** -/
theorem segments_eq_error_iff {template : Text} {e : RouteError} :
    segments template = .error e ↔ Fault template e := ⟨fault_of_error, segments_of_fault⟩

/-- **A text is cut exactly if it is made of the pieces of a template**, which it is in one way
only, and otherwise it is refused for its first bad placeholder.  A cut by bytes comes to the same
answer. -/
theorem segments_eq_iff (template : Text) :
    segments? template = some (segments template) ∧
      (∀ segs, segments template = .ok segs ↔ IsCut template segs) ∧
      (∀ segs other, IsCut template segs → IsCut template other → other = segs) ∧
      ∀ e, segments template = .error e ↔ Fault template e := by
  refine ⟨segments?_eq template, fun segs => segments_eq_ok_iff, ?_, fun e => segments_eq_error_iff⟩
  intro segs other h hother
  exact hother.unique h

/-- Within a name, markers open nothing, so the first bad placeholder is the star at the end. -/
example : segments "/:a*b/*".toList = .error (.emptyParamName "/:a*b/*".toList) := by
  decide +kernel

end Template

end RouteTree
