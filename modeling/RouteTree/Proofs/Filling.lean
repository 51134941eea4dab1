/-
**Filling a template in, and reading it back.**

Filling a template in goes through its text and stops at the markers; cutting it into segments does
the same on another occasion.  Here the two are brought together: the text of a linked row is
filled in segment by segment, each placeholder with its own value.  So the paths that a row covers
are those that it is filled in to, and the values with which it covers a path are those that it
was filled in with, provided that each value is one that its placeholder can take.

Main definitions:

* `Segment.Takes` — a value that can stand for a placeholder;
* `Template.placeholders` — the placeholders among some segments;
* `Route.Accepts` — one fitting value for each placeholder of a route.

Main results:

* `Template.fill_run`, `Template.fill_param`, `Template.fill_wildcard` — filling in step by step;
* `Template.covers_iff_fill` — **a row covers a path exactly when it is filled in to that path with
  values that its placeholders take**.
-/
import RouteTree.Proofs.Matching
import RouteTree.Route

set_option autoImplicit false
set_option relaxedAutoImplicit false

namespace RouteTree

/-! ### Values for placeholders -/

/-- A value can stand for a placeholder: a `:name` takes at least one character and no slash, a
`*name` takes anything.  A literal run takes no value. -/
def Segment.Takes : Segment → Text → Prop
  | .literal _, _ => False
  | .param _, value => value ≠ [] ∧ ∀ c ∈ value, Template.isWithin c = true
  | .wildcard _, _ => True

namespace Template

/-- The placeholders among some segments, in order. -/
def placeholders (segs : List Segment) : List Segment := segs.filter fun s => s.name?.isSome

@[simp] theorem placeholders_nil : placeholders [] = [] := rfl

@[simp] theorem placeholders_literal (run : Text) (segs : List Segment) :
    placeholders (.literal run :: segs) = placeholders segs := rfl

@[simp] theorem placeholders_param (name : Text) (segs : List Segment) :
    placeholders (.param name :: segs) = .param name :: placeholders segs := rfl

@[simp] theorem placeholders_wildcard (name : Text) (segs : List Segment) :
    placeholders (.wildcard name :: segs) = .wildcard name :: placeholders segs := rfl

/-! ### Filling in step by step -/

theorem fill_marked {run after : Text} {marker : Char} (plain : ∀ c ∈ run, isMarker c = false)
    (hm : isMarker marker = true) (values : List Text) :
    fill (run ++ marker :: after) values =
      run ++ values.headD [] ++
        if marker = '*' then [] else fill (after.dropWhile isWithin) values.tail := by
  obtain ⟨ht, hd⟩ := span_marked plain hm after
  rw [fill]
  split
  · rename_i h
    rw [hd] at h
    cases h
  · rename_i m rest h
    rw [hd] at h
    obtain ⟨rfl, rfl⟩ := List.cons.inj h
    rw [ht]

/-- A literal run is copied. -/
theorem fill_run {run : Text} (plain : ∀ c ∈ run, isMarker c = false) (rest : Text)
    (values : List Text) : fill (run ++ rest) values = run ++ fill rest values := by
  rcases plain_or_marked rest with h | ⟨more, marker, after, rfl, hmore, hm⟩
  · have hall : ∀ c ∈ run ++ rest, isMarker c = false := by
      intro c hc
      exact (List.mem_append.1 hc).elim (plain c) (h c)
    rw [fill_of_no_marker hall, fill_of_no_marker h]
  · have hall : ∀ c ∈ run ++ more, isMarker c = false := by
      intro c hc
      exact (List.mem_append.1 hc).elim (plain c) (hmore c)
    rw [← List.append_assoc, fill_marked hall hm, fill_marked hmore hm]
    simp only [List.append_assoc]

/-- A `:name` placeholder is replaced by its value, and filling in goes on behind its name. -/
theorem fill_param {name rest : Text} (within : ∀ c ∈ name, isWithin c = true)
    (opens : ∀ c ∈ rest.head?, c = '/') (value : Text) (values : List Text) :
    fill (':' :: name ++ rest) (value :: values) = value ++ fill rest values := by
  have h : fill ([] ++ ':' :: (name ++ rest)) (value :: values) = _ :=
    fill_marked (by simp) rfl (value :: values)
  rw [(span_within within opens).2] at h
  simpa using h

/-- A `*name` placeholder is replaced by its value, and nothing follows. -/
theorem fill_wildcard (name value : Text) (values : List Text) :
    fill ('*' :: name) (value :: values) = value := by
  have h : fill ([] ++ '*' :: name) (value :: values) = _ :=
    fill_marked (by simp) rfl (value :: values)
  simpa using h

/-! ### Filling in and covering -/

/-- **A linked row covers a path exactly when it is filled in to that path**, with values that its
placeholders take. -/
theorem covers_iff_fill {segs : List Segment} (h : Linked segs) {path : Text}
    {values : List Text} : Covers segs path values ↔
      List.Forall₂ Segment.Takes (placeholders segs) values ∧
        fill (spelled segs) values = path := by
  induction segs generalizing path values with
  | nil =>
      rw [covers_nil_iff, placeholders_nil, List.forall₂_nil_left_iff, spelled_nil,
        fill_of_no_marker (by simp), and_comm, eq_comm (a := path)]
  | cons s segs ih =>
      obtain ⟨hp, _, hsegs⟩ := linked_cons.1 h
      cases hp with
      | literal _ plain =>
          rw [covers_literal_iff, placeholders_literal, spelled_cons, Segment.text, fill_run plain]
          constructor
          · rintro ⟨more, rfl, hmore⟩
            obtain ⟨htakes, hfill⟩ := (ih hsegs).1 hmore
            exact ⟨htakes, by rw [hfill]⟩
          · rintro ⟨htakes, rfl⟩
            exact ⟨_, rfl, (ih hsegs).2 ⟨htakes, rfl⟩⟩
      | param _ within =>
          rw [covers_param_iff, placeholders_param, spelled_cons, Segment.text,
            List.forall₂_cons_left_iff]
          constructor
          · rintro ⟨value, more, others, rfl, rfl, hne, hwithin, hmore⟩
            obtain ⟨htakes, hfill⟩ := (ih hsegs).1 hmore
            refine ⟨⟨value, others, ⟨hne, hwithin⟩, htakes, rfl⟩, ?_⟩
            rw [fill_param within h.opens, hfill]
          · rintro ⟨⟨value, others, ⟨hne, hwithin⟩, htakes, rfl⟩, rfl⟩
            rw [fill_param within h.opens]
            exact ⟨value, _, others, rfl, rfl, hne, hwithin, (ih hsegs).2 ⟨htakes, rfl⟩⟩
      | wildcard _ _ =>
          obtain rfl := h.eq_nil_of_wildcard
          rw [covers_wildcard_iff, placeholders_wildcard, spelled_cons, Segment.text, spelled_nil,
            List.append_nil, placeholders_nil, List.forall₂_cons_left_iff]
          constructor
          · rintro ⟨_, rfl⟩
            exact ⟨⟨path, [], trivial, .nil, rfl⟩, fill_wildcard _ _ _⟩
          · rintro ⟨⟨value, others, _, hothers, rfl⟩, rfl⟩
            rw [List.forall₂_nil_left_iff.1 hothers, fill_wildcard]
            exact ⟨rfl, rfl⟩

/-- There are as many placeholders as names. -/
theorem length_placeholders (segs : List Segment) :
    (placeholders segs).length = (paramNames segs).length := by
  induction segs with
  | nil => rfl
  | cons s segs ih =>
      cases s with
      | literal run => simpa [Segment.name?] using ih
      | param name => simpa [Segment.name?] using ih
      | wildcard name => simpa [Segment.name?] using ih

end Template

/-! ### Values for a route -/

namespace Route

variable {H : Type}

/-- **One value for each placeholder of a route**, and one that the placeholder takes. -/
def Accepts (r : Route H) (values : List Text) : Prop :=
  ∃ segs, Template.segments r.template = .ok segs ∧
    List.Forall₂ Segment.Takes (Template.placeholders segs) values

/-- A route whose names are those of its template makes a URL of as many values. -/
theorem url_eq_ok {r : Route H} {segs : List Segment} {values : List Text}
    (params : r.params = Template.paramNames segs)
    (takes : List.Forall₂ Segment.Takes (Template.placeholders segs) values) :
    r.url values = .ok (Template.fill r.template values) := by
  have hlen : values.length = r.params.length := by
    rw [params, ← Template.length_placeholders, takes.length_eq]
  rw [url, if_neg (not_not_intro hlen)]

/-- **The values with which a template matches a path give the path back.** -/
theorem url_of_matches {r : Route H} {segs : List Segment} {path : Text} {values : List Text}
    (cut : Template.segments r.template = .ok segs) (params : r.params = Template.paramNames segs)
    (h : Template.Matches r.template path values) : r.url values = .ok path := by
  obtain ⟨segs', hcut, hcovers⟩ := h
  obtain rfl := Except.ok.inj (cut.symm.trans hcut)
  have hlinked := Template.linked_of_segments cut
  obtain ⟨htakes, hfill⟩ := (Template.covers_iff_fill hlinked).1 hcovers
  rw [Template.spelled_of_segments cut] at hfill
  rw [url_eq_ok params htakes, hfill]

/-- **A route matches what it was filled in to**, with the same values. -/
theorem matches_of_accepts {r : Route H} {segs : List Segment} {values : List Text}
    (cut : Template.segments r.template = .ok segs) (params : r.params = Template.paramNames segs)
    (h : r.Accepts values) :
    ∃ path, r.url values = .ok path ∧ Template.Matches r.template path values := by
  obtain ⟨segs', hcut, htakes⟩ := h
  obtain rfl := Except.ok.inj (cut.symm.trans hcut)
  have hlinked := Template.linked_of_segments cut
  refine ⟨_, url_eq_ok params htakes, segs, cut, ?_⟩
  rw [Template.covers_iff_fill hlinked, Template.spelled_of_segments cut]
  exact ⟨htakes, rfl⟩

end Route

end RouteTree
