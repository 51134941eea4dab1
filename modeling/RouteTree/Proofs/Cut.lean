/-
**Cutting a template, and spelling it again.**

Segments that lie one behind the other on a way through a tree spell a beginning of templates.
Not all rows of segments occur: a placeholder has a name, a `:name` is followed by a slash or by
nothing, and a `*name` is the last.  Rows that meet these conditions are *linked*.  A tree may hold
a literal run in several pieces, a template never does: cutting the text that a linked row spells
gives the row back, except that literal runs which stand side by side have become one.

Main definitions:

* `Segment.Proper`, `Segment.CanPrecede` — the shape of one segment, and of two in a row;
* `Template.Linked`, `Template.Parted` — the shape of a whole row, and of one without literal runs
  side by side;
* `Template.spelled` — the text of a row;
* `Template.merged` — a row with neighbouring literal runs put together.

Main results:

* `Template.linked_of_segments`, `Template.parted_of_segments`, `Template.spelled_of_segments` — a
  cut is linked and parted, and spells its template;
* `Template.segments_spelled` — **cutting the text of a linked row merges the row**;
* `Template.eq_of_spelled_eq` — a text is spelled by one linked and parted row.
-/
import Mathlib.Data.List.Chain
import RouteTree.Template

set_option autoImplicit false
set_option relaxedAutoImplicit false

namespace RouteTree

namespace Segment

/-! ### Single segments and neighbours -/

/-- A segment that a template can have: a literal run is not empty and has no markers, and a
placeholder has a name without slashes. -/
inductive Proper : Segment → Prop
  | literal {run : Text} (nonempty : run ≠ [])
      (plain : ∀ c ∈ run, Template.isMarker c = false) : Proper (.literal run)
  | param {name : Text} (named : name ≠ [])
      (within : ∀ c ∈ name, Template.isWithin c = true) : Proper (.param (':' :: name))
  | wildcard {name : Text} (named : name ≠ [])
      (within : ∀ c ∈ name, Template.isWithin c = true) : Proper (.wildcard ('*' :: name))

/-- Whether a segment can stand right behind another one.  Literal runs may meet, because a node
may hold a part of a run only. -/
def CanPrecede : Segment → Segment → Prop
  | literal _, _ => True
  | param _, literal run => run.head? = some '/'
  | param _, _ => False
  | wildcard _, _ => False

/-- Two segments that are not one literal run cut in two. -/
def Parts : Segment → Segment → Prop
  | literal _, literal _ => False
  | _, _ => True

/-- Put a literal run in front of a row of segments, and join it with the run that is there. -/
def prepend (run : Text) : List Segment → List Segment
  | literal t :: rest => literal (run ++ t) :: rest
  | segs => literal run :: segs

theorem Proper.ne_nil {s : Segment} (h : s.Proper) : s.text ≠ [] := by
  cases h with
  | literal nonempty _ => exact nonempty
  | param _ _ => simp [text]
  | wildcard _ _ => simp [text]

/-- The text of a literal run is not empty and has no markers. -/
theorem Proper.literal_text {t : Text} (h : (Segment.literal t).Proper) :
    t ≠ [] ∧ ':' ∉ t ∧ '*' ∉ t := by
  cases h with
  | literal nonempty plain =>
      refine ⟨nonempty, fun hmem => ?_, fun hmem => ?_⟩
      · exact absurd (plain ':' hmem) (by decide)
      · exact absurd (plain '*' hmem) (by decide)

theorem slash_notMem {name : Text} (within : ∀ c ∈ name, Template.isWithin c = true) :
    '/' ∉ name := fun hmem => absurd (within '/' hmem) (by decide)

/-- The text of a parameter is a colon and a name without slashes. -/
theorem Proper.param_text {t : Text} (h : (Segment.param t).Proper) :
    (∃ name, t = ':' :: name ∧ name ≠ []) ∧ '/' ∉ t := by
  cases h with
  | param named within => exact ⟨⟨_, rfl, named⟩, by simp [slash_notMem within]⟩

/-- The text of a wildcard is a star and a name without slashes. -/
theorem Proper.wildcard_text {t : Text} (h : (Segment.wildcard t).Proper) :
    (∃ name, t = '*' :: name ∧ name ≠ []) ∧ '/' ∉ t := by
  cases h with
  | wildcard named within => exact ⟨⟨_, rfl, named⟩, by simp [slash_notMem within]⟩

theorem prepend_literalThen {run more : Text} {rest : List Segment} (hrun : run ≠ [])
    (hrest : ∀ t segs, rest ≠ literal t :: segs) :
    prepend run (literalThen more rest) = literalThen (run ++ more) rest := by
  by_cases hmore : more = []
  · subst hmore
    match rest, hrest with
    | [], _ => simp [literalThen, prepend, hrun]
    | literal t :: segs, h => exact absurd rfl (h t segs)
    | param t :: segs, _ => simp [literalThen, prepend, hrun]
    | wildcard t :: segs, _ => simp [literalThen, prepend, hrun]
  · simp [literalThen, prepend, hmore]

end Segment

namespace Template

/-! ### Rows of segments -/

/-- Proper segments, each of which can stand behind the one before. -/
def Linked (segs : List Segment) : Prop :=
  (∀ s ∈ segs, s.Proper) ∧ segs.IsChain Segment.CanPrecede

theorem linked_nil : Linked [] := ⟨by simp, .nil⟩

theorem linked_cons {s : Segment} {segs : List Segment} :
    Linked (s :: segs) ↔ s.Proper ∧ (∀ s' ∈ segs.head?, s.CanPrecede s') ∧ Linked segs := by
  simp only [Linked, List.forall_mem_cons, List.isChain_cons]
  tauto

/-- No two literal runs stand side by side. -/
def Parted (segs : List Segment) : Prop := segs.IsChain Segment.Parts

theorem parted_cons {s : Segment} {segs : List Segment} :
    Parted (s :: segs) ↔ (∀ s' ∈ segs.head?, s.Parts s') ∧ Parted segs := List.isChain_cons

theorem Linked.left_of_append {segs rest : List Segment} (h : Linked (segs ++ rest)) :
    Linked segs :=
  ⟨fun s hs => h.1 s (List.mem_append_left _ hs), h.2.left_of_append⟩

theorem Parted.left_of_append {segs rest : List Segment} (h : Parted (segs ++ rest)) :
    Parted segs := List.IsChain.left_of_append h

/-- A wildcard is the last segment of a linked row. -/
theorem Linked.eq_nil_of_wildcard {name : Text} {segs : List Segment}
    (h : Linked (.wildcard name :: segs)) : segs = [] := by
  cases segs with
  | nil => rfl
  | cons s segs => exact ((linked_cons.1 h).2.1 s rfl).elim

/-- The text that some segments spell. -/
def spelled (segs : List Segment) : Text := segs.flatMap Segment.text

@[simp] theorem spelled_nil : spelled [] = [] := rfl

@[simp] theorem spelled_cons (s : Segment) (segs : List Segment) :
    spelled (s :: segs) = s.text ++ spelled segs := rfl

/-- The segments with neighbouring literal runs put together. -/
def merged : List Segment → List Segment
  | [] => []
  | .literal run :: rest => Segment.prepend run (merged rest)
  | s :: rest => s :: merged rest

@[simp] theorem spelled_literalThen (run : Text) (rest : List Segment) :
    spelled (Segment.literalThen run rest) = run ++ spelled rest := by
  by_cases h : run = [] <;> simp [Segment.literalThen, h, Segment.text]

@[simp] theorem paramNames_nil : paramNames [] = [] := rfl

@[simp] theorem paramNames_cons (s : Segment) (segs : List Segment) :
    paramNames (s :: segs) = s.name?.toList ++ paramNames segs := by
  cases h : s.name? <;> simp [paramNames, h]

@[simp] theorem paramNames_literalThen (run : Text) (rest : List Segment) :
    paramNames (Segment.literalThen run rest) = paramNames rest := by
  by_cases h : run = [] <;> simp [Segment.literalThen, h, Segment.name?]

/-- A linked row stays linked when its first run is shortened from the left. -/
theorem Linked.literalThen {run more : Text} {rest : List Segment}
    (h : Linked (.literal (run ++ more) :: rest)) : Linked (Segment.literalThen more rest) := by
  obtain ⟨hp, _, hrest⟩ := linked_cons.1 h
  by_cases hmore : more = []
  · simpa [hmore] using hrest
  · rw [Segment.literalThen, if_neg hmore]
    cases hp with
    | literal _ plain =>
        refine linked_cons.2 ⟨.literal hmore fun c hc => plain c ?_, fun _ _ => trivial, hrest⟩
        exact List.mem_append_right _ hc

/-- A parted row stays parted when its first run is shortened or made longer. -/
theorem Parted.literalThen {run : Text} {rest : List Segment}
    (h : Parted (.literal run :: rest)) (more : Text) : Parted (Segment.literalThen more rest) := by
  obtain ⟨hnext, hrest⟩ := parted_cons.1 h
  by_cases hmore : more = []
  · simpa [hmore] using hrest
  · rw [Segment.literalThen, if_neg hmore]
    refine parted_cons.2 ⟨fun s hs => ?_, hrest⟩
    cases s with
    | literal t => exact (hnext _ hs).elim
    | param t => trivial
    | wildcard t => trivial

/-! ### Cutting step by step -/

/-- Up to where a name reaches: over all that is within, up to a slash or the end. -/
theorem span_within {name rest : Text} (within : ∀ c ∈ name, isWithin c = true)
    (opens : ∀ c ∈ rest.head?, c = '/') :
    (name ++ rest).takeWhile isWithin = name ∧ (name ++ rest).dropWhile isWithin = rest := by
  rw [List.takeWhile_append_of_pos within, List.dropWhile_append_of_pos within]
  cases rest with
  | nil => simp
  | cons c rest =>
      have hc : c = '/' := opens c rfl
      simp [hc, isWithin]

/-- Up to where a literal run reaches: up to the first marker. -/
theorem span_marked {run : Text} {marker : Char} (plain : ∀ c ∈ run, isMarker c = false)
    (hm : isMarker marker = true) (after : Text) :
    (run ++ marker :: after).takeWhile (!isMarker ·) = run ∧
      (run ++ marker :: after).dropWhile (!isMarker ·) = marker :: after := by
  have hp : ∀ c ∈ run, (!isMarker c) = true := by
    intro c hc
    rw [plain c hc]
    rfl
  rw [List.takeWhile_append_of_pos hp, List.dropWhile_append_of_pos hp]
  simp [hm]

/-- A text is free of markers, or it has a first one. -/
theorem plain_or_marked (t : Text) :
    (∀ c ∈ t, isMarker c = false) ∨
      ∃ run marker after, t = run ++ marker :: after ∧ (∀ c ∈ run, isMarker c = false) ∧
        isMarker marker = true := by
  induction t with
  | nil => exact Or.inl (by simp)
  | cons c t ih =>
      cases hc : isMarker c with
      | true => exact Or.inr ⟨[], c, t, rfl, by simp, hc⟩
      | false =>
          rcases ih with h | ⟨run, marker, after, rfl, hrun, hm⟩
          · exact Or.inl (by simpa [hc] using h)
          · exact Or.inr ⟨c :: run, marker, after, rfl, by simpa [hc] using hrun, hm⟩

theorem segmentsFrom_plain (whole : Text) {run : Text} (plain : ∀ c ∈ run, isMarker c = false) :
    segmentsFrom whole run = .ok (Segment.literalThen run []) := by
  have hd : run.dropWhile (!isMarker ·) = [] := dropWhile_of_no_marker plain
  have ht : run.takeWhile (!isMarker ·) = run := takeWhile_of_no_marker plain
  unfold segmentsFrom
  split
  · rw [ht]
  · simp_all

/-- The cut at the first marker. -/
theorem segmentsFrom_marked (whole : Text) {run after : Text} {marker : Char}
    (plain : ∀ c ∈ run, isMarker c = false) (hm : isMarker marker = true) :
    segmentsFrom whole (run ++ marker :: after) =
      if after.takeWhile isWithin = [] then .error (.emptyParamName whole)
      else if marker = '*' then
        if after.dropWhile isWithin = [] then
          .ok (Segment.literalThen run [.wildcard (marker :: after.takeWhile isWithin)])
        else .error (.routeConflict
          (whole.take (whole.length - (after.dropWhile isWithin).length)) whole)
      else (segmentsFrom whole (after.dropWhile isWithin)).map fun more =>
        Segment.literalThen run (.param (marker :: after.takeWhile isWithin) :: more) := by
  obtain ⟨ht, hd⟩ := span_marked plain hm after
  rw [segmentsFrom]
  split
  · simp_all
  · rename_i m rest h
    obtain ⟨rfl, rfl⟩ : marker = m ∧ after = rest := by simpa [hd] using h
    simp only [ht]
    rfl

/-- A literal run is put in front of what the rest is cut into. -/
theorem segmentsFrom_append {whole run rest : Text} (nonempty : run ≠ [])
    (plain : ∀ c ∈ run, isMarker c = false) :
    segmentsFrom whole (run ++ rest) =
      (segmentsFrom whole rest).map (Segment.prepend run) := by
  rcases plain_or_marked rest with h | ⟨more, marker, after, rfl, hmore, hm⟩
  · have hall : ∀ c ∈ run ++ rest, isMarker c = false := by
      intro c hc
      exact (List.mem_append.1 hc).elim (plain c) (h c)
    rw [segmentsFrom_plain whole hall, segmentsFrom_plain whole h]
    exact congrArg _ (Segment.prepend_literalThen nonempty (by simp)).symm
  · have hall : ∀ c ∈ run ++ more, isMarker c = false := by
      intro c hc
      exact (List.mem_append.1 hc).elim (plain c) (hmore c)
    rw [← List.append_assoc, segmentsFrom_marked whole hall hm, segmentsFrom_marked whole hmore hm]
    split
    · rfl
    · split
      · split
        · exact congrArg _ (Segment.prepend_literalThen nonempty (by simp)).symm
        · rfl
      · cases segmentsFrom whole (after.dropWhile isWithin) with
        | error e => rfl
        | ok segs => exact congrArg _ (Segment.prepend_literalThen nonempty (by simp)).symm

/-- A `:name` placeholder is cut off at the next slash. -/
theorem segmentsFrom_param {whole name rest : Text} (named : name ≠ [])
    (within : ∀ c ∈ name, isWithin c = true) (opens : ∀ c ∈ rest.head?, c = '/') :
    segmentsFrom whole (':' :: name ++ rest) =
      (segmentsFrom whole rest).map (.param (':' :: name) :: ·) := by
  have h : segmentsFrom whole ([] ++ ':' :: (name ++ rest)) = _ :=
    segmentsFrom_marked whole (by simp) rfl
  obtain ⟨ht, hd⟩ := span_within within opens
  simpa [ht, hd, named] using h

theorem segmentsFrom_wildcard {whole name : Text} (named : name ≠ [])
    (within : ∀ c ∈ name, isWithin c = true) :
    segmentsFrom whole ('*' :: name) = .ok [.wildcard ('*' :: name)] := by
  have h : segmentsFrom whole ([] ++ '*' :: name) = _ := segmentsFrom_marked whole (by simp) rfl
  have hend : ∀ c ∈ ([] : Text).head?, c = '/' := by simp
  obtain ⟨ht, hd⟩ := span_within within hend
  simp only [List.append_nil] at ht hd
  simpa [ht, hd, named] using h

/-! ### Cutting and spelling -/

/-- What follows a `:name` placeholder in a linked row opens with a slash. -/
theorem Linked.opens {t : Text} {segs : List Segment} (h : Linked (.param t :: segs)) :
    ∀ c ∈ (spelled segs).head?, c = '/' := by
  obtain ⟨_, hnext, hsegs⟩ := linked_cons.1 h
  cases segs with
  | nil => simp
  | cons s segs =>
      have hs := hnext s rfl
      cases s with
      | literal run =>
          have hrun : run.head? = some '/' := hs
          cases run with
          | nil => simp at hrun
          | cons c run => simpa [Segment.text] using hrun
      | param t => exact hs.elim
      | wildcard t => exact hs.elim

/-- **Cutting the text of a linked row puts neighbouring runs together.** -/
theorem segmentsFrom_spelled (whole : Text) {segs : List Segment} (h : Linked segs) :
    segmentsFrom whole (spelled segs) = .ok (merged segs) := by
  induction segs with
  | nil => exact segmentsFrom_plain whole (List.forall_mem_nil _)
  | cons s segs ih =>
      obtain ⟨hp, _, hsegs⟩ := linked_cons.1 h
      have hcut := ih hsegs
      cases hp with
      | literal nonempty plain =>
          rw [spelled_cons, Segment.text, segmentsFrom_append nonempty plain, hcut]
          rfl
      | param named within =>
          rw [spelled_cons, Segment.text, segmentsFrom_param named within h.opens, hcut]
          rfl
      | wildcard named within =>
          obtain rfl := h.eq_nil_of_wildcard
          simpa [Segment.text, merged] using segmentsFrom_wildcard named within

theorem segments_spelled {segs : List Segment} (h : Linked segs) :
    segments (spelled segs) = .ok (merged segs) := segmentsFrom_spelled _ h

theorem Linked.literal_literalThen {run : Text} {rest : List Segment} (h : Linked rest)
    (plain : ∀ c ∈ run, isMarker c = false) : Linked (Segment.literalThen run rest) := by
  by_cases hrun : run = []
  · simpa [hrun] using h
  · rw [Segment.literalThen, if_neg hrun]
    exact linked_cons.2 ⟨.literal hrun plain, fun _ _ => trivial, h⟩

/-- A linked row whose text opens with a slash, if it is not empty, can follow a `:name`. -/
theorem Linked.head_follows {segs : List Segment} (h : Linked segs)
    (opens : ∀ c ∈ (spelled segs).head?, c = '/') (name : Text) :
    ∀ s ∈ segs.head?, (Segment.param name).CanPrecede s := by
  cases segs with
  | nil => simp
  | cons s segs =>
      obtain ⟨hp, _, _⟩ := linked_cons.1 h
      intro s' hs'
      obtain rfl : s = s' := by simpa using hs'
      cases hp with
      | @literal run nonempty _ =>
          cases run with
          | nil => exact absurd rfl nonempty
          | cons c run => simpa [Segment.CanPrecede, Segment.text] using opens
      | param _ _ => exact absurd (opens ':' rfl) (by decide)
      | wildcard _ _ => exact absurd (opens '*' rfl) (by decide)

/-- A `:name` can be put in front of a linked row whose text opens with a slash, if at all. -/
theorem Linked.param_cons {name : Text} {segs : List Segment} (h : Linked segs) (named : name ≠ [])
    (within : ∀ c ∈ name, isWithin c = true) (opens : ∀ c ∈ (spelled segs).head?, c = '/') :
    Linked (.param (':' :: name) :: segs) :=
  linked_cons.2 ⟨.param named within, h.head_follows opens _, h⟩

theorem within_of_takeWhile (t : Text) : ∀ c ∈ t.takeWhile isWithin, isWithin c = true :=
  List.all_eq_true.1 List.all_takeWhile

theorem head?_dropWhile_within (t : Text) : ∀ c ∈ (t.dropWhile isWithin).head?, c = '/' := by
  intro c hc
  have h := List.head?_dropWhile_not isWithin t
  rw [Option.mem_def.1 hc] at h
  simpa [isWithin] using h

theorem eq_of_isMarker {c : Char} (h : isMarker c = true) : c = ':' ∨ c = '*' := by
  simpa [isMarker] using h

/-- **What a text is cut into is linked and parted, and spells the text.** -/
theorem cut_of_segmentsFrom {whole rest : Text} {segs : List Segment}
    (h : segmentsFrom whole rest = .ok segs) :
    Linked segs ∧ Parted segs ∧ spelled segs = rest := by
  induction hn : rest.length using Nat.strong_induction_on generalizing rest segs with
  | _ n ih =>
      rcases plain_or_marked rest with plain | ⟨run, marker, after, rfl, plain, hm⟩
      · rw [segmentsFrom_plain whole plain] at h
        obtain rfl := Except.ok.inj h
        have hone : Parted [.literal rest] := .singleton _
        exact ⟨linked_nil.literal_literalThen plain, hone.literalThen rest, by simp⟩
      · rw [segmentsFrom_marked whole plain hm] at h
        have hafter : after.takeWhile isWithin ++ after.dropWhile isWithin = after :=
          List.takeWhile_append_dropWhile
        have hwithin := within_of_takeWhile after
        generalize hname : after.takeWhile isWithin = name at h hafter hwithin
        generalize hbeyond : after.dropWhile isWithin = beyond at h hafter
        by_cases named : name = []
        · simp [named] at h
        rw [if_neg named] at h
        rcases eq_of_isMarker hm with rfl | rfl
        · -- a parameter: the rest beyond its name is cut by itself
          rw [if_neg (by decide)] at h
          cases hmore : segmentsFrom whole beyond with
          | error e => simp [hmore, Except.map] at h
          | ok more =>
              have hlen : beyond.length < n := by
                rw [← hn, ← hafter]
                simp
                omega
              obtain ⟨hlinked, hparted, hspelled⟩ := ih _ hlen hmore rfl
              have hopens : ∀ c ∈ (spelled more).head?, c = '/' := by
                rw [hspelled, ← hbeyond]
                exact head?_dropWhile_within after
              have hpart : Parted (.literal run :: .param (':' :: name) :: more) :=
                .cons_cons trivial (parted_cons.2 ⟨fun _ _ => trivial, hparted⟩)
              obtain rfl : Segment.literalThen run (.param (':' :: name) :: more) = segs := by
                simpa [hmore, Except.map] using h
              refine ⟨(hlinked.param_cons named hwithin hopens).literal_literalThen plain,
                hpart.literalThen run, ?_⟩
              simp [Segment.text, hspelled, hafter]
        · -- a wildcard: nothing is left beyond its name
          rw [if_pos rfl] at h
          by_cases hend : beyond = []
          · obtain rfl : Segment.literalThen run [.wildcard ('*' :: name)] = segs := by
              simpa [hend] using h
            have hone : Linked [.wildcard ('*' :: name)] :=
              linked_cons.2 ⟨.wildcard named hwithin, by simp, linked_nil⟩
            have hpart : Parted [.literal run, .wildcard ('*' :: name)] :=
              .cons_cons trivial (.singleton _)
            refine ⟨hone.literal_literalThen plain, hpart.literalThen run, ?_⟩
            simpa [Segment.text, hend] using hafter
          · simp [hend] at h

/-- A parted row has no runs to be put together. -/
theorem merged_of_parted {segs : List Segment} (h : Parted segs) : merged segs = segs := by
  induction segs with
  | nil => rfl
  | cons s segs ih =>
      obtain ⟨hnext, hsegs⟩ := parted_cons.1 h
      cases s with
      | literal run =>
          rw [merged, ih hsegs]
          cases segs with
          | nil => rfl
          | cons s' segs =>
              have hs' := hnext s' rfl
              cases s' with
              | literal t => exact hs'.elim
              | param t => rfl
              | wildcard t => rfl
      | param t => simp only [merged, ih hsegs]
      | wildcard t => simp only [merged, ih hsegs]

/-- **A text is spelled by one linked and parted row.** -/
theorem eq_of_spelled_eq {segs segs' : List Segment} (h : Linked segs) (h' : Linked segs')
    (hp : Parted segs) (hp' : Parted segs') (heq : spelled segs = spelled segs') :
    segs = segs' := by
  have hcut := segments_spelled h
  rw [heq, segments_spelled h', merged_of_parted hp, merged_of_parted hp'] at hcut
  exact (Except.ok.inj hcut).symm

theorem linked_of_segments {template : Text} {segs : List Segment}
    (h : segments template = .ok segs) : Linked segs := (cut_of_segmentsFrom h).1

theorem parted_of_segments {template : Text} {segs : List Segment}
    (h : segments template = .ok segs) : Parted segs := (cut_of_segmentsFrom h).2.1

theorem spelled_of_segments {template : Text} {segs : List Segment}
    (h : segments template = .ok segs) : spelled segs = template := (cut_of_segmentsFrom h).2.2

end Template

end RouteTree
