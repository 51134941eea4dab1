/-
**When a template matches a path, and which of two templates comes first.**

A row of segments covers a path when the path is made of its literal runs and of values for its
placeholders, in order: a `:name` takes at least one character and no slash, a `*name` takes
whatever is left.  A template matches a path when its segments cover the path.  Several templates
may match one path; the first difference between two of them says which one is preferred.

Main definitions:

* `Template.Covers` — a row of segments covers a path, with the values of its placeholders;
* `Template.Matches` — a template matches a path;
* `Template.Precedes`, `Template.Outranks` — a template is preferred to another one;
* `Segment.rank` — the order in which segments are preferred.

Main results:

* `Template.covers_merged` — putting neighbouring runs together changes nothing that is covered;
* `Template.length_of_covers` — there is one value for each placeholder;
* `Template.precedes_append_left` — a common beginning does not count;
* `Template.not_precedes_of_precedes` — two different templates never precede each other;
* `Template.outranks_of_rank` — the segments where two templates part decide which is preferred.
-/
import RouteTree.Proofs.Cut

set_option autoImplicit false
set_option relaxedAutoImplicit false

namespace RouteTree

namespace Template

/-! ### Covering -/

/-- **Segments cover a path**, and their placeholders take the given values. -/
inductive Covers : List Segment → Text → List Text → Prop
  | nil : Covers [] [] []
  | literal (run : Text) {segs : List Segment} {path : Text} {values : List Text}
      (rest : Covers segs path values) : Covers (.literal run :: segs) (run ++ path) values
  | param (name : Text) {value : Text} {segs : List Segment} {path : Text} {values : List Text}
      (nonempty : value ≠ []) (within : ∀ c ∈ value, isWithin c = true)
      (rest : Covers segs path values) :
      Covers (.param name :: segs) (value ++ path) (value :: values)
  | wildcard (name value : Text) : Covers [.wildcard name] value [value]

@[simp] theorem covers_nil_iff {path : Text} {values : List Text} :
    Covers [] path values ↔ path = [] ∧ values = [] := by
  constructor
  · intro h; cases h; exact ⟨rfl, rfl⟩
  · rintro ⟨rfl, rfl⟩; exact .nil

theorem covers_literal_iff {run : Text} {segs : List Segment} {path : Text} {values : List Text} :
    Covers (.literal run :: segs) path values ↔
      ∃ more, path = run ++ more ∧ Covers segs more values := by
  constructor
  · intro h
    cases h with
    | literal _ rest => exact ⟨_, rfl, rest⟩
  · rintro ⟨more, rfl, h⟩
    exact .literal run h

theorem covers_param_iff {name : Text} {segs : List Segment} {path : Text} {values : List Text} :
    Covers (.param name :: segs) path values ↔
      ∃ value more others, path = value ++ more ∧ values = value :: others ∧ value ≠ [] ∧
        (∀ c ∈ value, isWithin c = true) ∧ Covers segs more others := by
  constructor
  · intro h
    cases h with
    | param _ nonempty within rest => exact ⟨_, _, _, rfl, rfl, nonempty, within, rest⟩
  · rintro ⟨value, more, others, rfl, rfl, nonempty, within, h⟩
    exact .param name nonempty within h

theorem covers_wildcard_iff {name : Text} {segs : List Segment} {path : Text}
    {values : List Text} :
    Covers (.wildcard name :: segs) path values ↔ segs = [] ∧ values = [path] := by
  constructor
  · intro h; cases h; exact ⟨rfl, rfl⟩
  · rintro ⟨rfl, rfl⟩; exact .wildcard name path

theorem covers_prepend_iff {run : Text} {segs : List Segment} {path : Text}
    {values : List Text} :
    Covers (Segment.prepend run segs) path values ↔
      ∃ more, path = run ++ more ∧ Covers segs more values := by
  unfold Segment.prepend
  split
  · simp only [covers_literal_iff]
    constructor
    · rintro ⟨more, rfl, h⟩
      exact ⟨_, List.append_assoc .., more, rfl, h⟩
    · rintro ⟨_, rfl, more, rfl, h⟩
      exact ⟨more, (List.append_assoc ..).symm, h⟩
  · exact covers_literal_iff

/-- Putting neighbouring literal runs together changes nothing that is covered. -/
theorem covers_merged {segs : List Segment} {path : Text} {values : List Text} :
    Covers (merged segs) path values ↔ Covers segs path values := by
  induction segs generalizing path values with
  | nil => rfl
  | cons s segs ih =>
      cases s with
      | literal run => simp only [merged, covers_prepend_iff, covers_literal_iff, ih]
      | param name => simp only [merged, covers_param_iff, ih]
      | wildcard name =>
          have hnil : merged segs = [] ↔ segs = [] := by
            cases segs with
            | nil => simp [merged]
            | cons s segs =>
                cases s with
                | literal run => simp only [merged, Segment.prepend]; split <;> simp
                | param t => simp [merged]
                | wildcard t => simp [merged]
          simp only [merged, covers_wildcard_iff, hnil]

/-- There is one value for each placeholder. -/
theorem length_of_covers {segs : List Segment} {path : Text} {values : List Text}
    (h : Covers segs path values) : values.length = (paramNames segs).length := by
  induction h with
  | nil => rfl
  | literal run _ ih => simpa [Segment.name?] using ih
  | param name _ _ _ ih => simpa [Segment.name?] using ih
  | wildcard name value => simp [Segment.name?]

/-- **A template matches a path**, and its placeholders take the given values. -/
def Matches (template path : Text) (values : List Text) : Prop :=
  ∃ segs, segments template = .ok segs ∧ Covers segs path values

/-- The text of a linked row matches exactly what the row covers. -/
theorem matches_spelled_iff {segs : List Segment} (h : Linked segs) {path : Text}
    {values : List Text} : Matches (spelled segs) path values ↔ Covers segs path values := by
  simp only [Matches, segments_spelled h, Except.ok.injEq, exists_eq_left', covers_merged]

/-! ### Precedence -/

/-- **A template precedes another one** when, right after their longest common beginning, it ends,
or goes on with a literal character where the other one has a placeholder, or with a `:name` where
the other one has a `*name`. -/
def Precedes (first second : Text) : Prop :=
  match (Text.fork first second).left, (Text.fork first second).right with
  | [], _ => True
  | _ :: _, [] => False
  | a :: _, b :: _ => isMarker b = true ∧ (isMarker a = false ∨ a = ':' ∧ b = '*')

/-- A common beginning does not count. -/
theorem precedes_append_left (start first second : Text) :
    Precedes (start ++ first) (start ++ second) ↔ Precedes first second := by
  induction start with
  | nil => rfl
  | cons c start ih => simpa [Precedes, Text.fork] using ih

/-- A template precedes all that begin with it. -/
theorem precedes_append_right (template more : Text) : Precedes template (template ++ more) := by
  have h := (precedes_append_left template [] more).2 (by simp [Precedes])
  rwa [List.append_nil] at h

theorem ne_of_marker {a b : Char} (hb : isMarker b = true)
    (h : isMarker a = false ∨ a = ':' ∧ b = '*') : a ≠ b := by
  rintro rfl
  rcases h with h | ⟨rfl, h⟩
  · simp [hb] at h
  · exact absurd h (by decide)

/-- A literal character precedes a placeholder, and a `:name` precedes a `*name`. -/
theorem precedes_cons {a b : Char} {first second : Text} (hb : isMarker b = true)
    (h : isMarker a = false ∨ a = ':' ∧ b = '*') : Precedes (a :: first) (b :: second) := by
  simp [Precedes, Text.fork, ne_of_marker hb h, hb, h]

/-- Two different templates never precede each other. -/
theorem not_precedes_of_precedes {first second : Text} (hne : first ≠ second)
    (h : Precedes first second) : ¬ Precedes second first := by
  induction first generalizing second with
  | nil =>
      cases second with
      | nil => exact absurd rfl hne
      | cons b second => simp [Precedes]
  | cons a first ih =>
      cases second with
      | nil => simp [Precedes] at h
      | cons b second =>
          by_cases hab : a = b
          · subst hab
            have h' := (precedes_append_left [a] first second).1 h
            intro hback
            exact ih (by simpa using hne) h' ((precedes_append_left [a] second first).1 hback)
          · simp only [Precedes, Text.fork, if_neg hab, if_neg (Ne.symm hab)] at h ⊢
            rintro ⟨ha, hback⟩
            rcases h.2 with hlit | ⟨rfl, rfl⟩
            · simp [ha] at hlit
            · rcases hback with hback | ⟨hback, _⟩
              · exact absurd hback (by decide)
              · exact absurd hback (by decide)

/-- A template is preferred to another, different one. -/
def Outranks (first second : Text) : Prop := first ≠ second ∧ Precedes first second

theorem outranks_append_left (start first second : Text) :
    Outranks (start ++ first) (start ++ second) ↔ Outranks first second := by
  rw [Outranks, Outranks, precedes_append_left, Ne, List.append_right_inj]

/-- A template outranks the longer ones that begin with it. -/
theorem outranks_append_right (template : Text) {more : Text} (h : more ≠ []) :
    Outranks template (template ++ more) :=
  ⟨fun heq => h (List.self_eq_append_right.1 heq), precedes_append_right template more⟩

theorem outranks_cons {a b : Char} {first second : Text} (hb : isMarker b = true)
    (h : isMarker a = false ∨ a = ':' ∧ b = '*') : Outranks (a :: first) (b :: second) := by
  exact ⟨fun heq => ne_of_marker hb h (List.cons.inj heq).1, precedes_cons hb h⟩

end Template

/-- Literal runs are preferred to parameters, and these to wildcards. -/
def Segment.rank : Segment → Nat
  | .literal _ => 0
  | .param _ => 1
  | .wildcard _ => 2

/-- The segments where two templates part decide which one is preferred. -/
theorem Template.outranks_of_rank {s s' : Segment} (hs : s.Proper) (hs' : s'.Proper)
    (h : s.rank < s'.rank) (more more' : Text) :
    Outranks (s.text ++ more) (s'.text ++ more') := by
  cases hs' with
  | literal _ _ => exact absurd h (Nat.not_lt_zero _)
  | param _ _ =>
      cases hs with
      | @literal run nonempty plain =>
          cases run with
          | nil => exact absurd rfl nonempty
          | cons a run => exact outranks_cons rfl (Or.inl (plain a List.mem_cons_self))
      | param _ _ => exact absurd h (lt_irrefl _)
      | wildcard _ _ => simp [Segment.rank] at h
  | wildcard _ _ =>
      cases hs with
      | @literal run nonempty plain =>
          cases run with
          | nil => exact absurd rfl nonempty
          | cons a run => exact outranks_cons rfl (Or.inl (plain a List.mem_cons_self))
      | param _ _ => exact outranks_cons rfl (Or.inr ⟨rfl, rfl⟩)
      | wildcard _ _ => exact absurd h (lt_irrefl _)

end RouteTree
