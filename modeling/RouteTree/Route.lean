/-
**Routes, and the URLs they stand for.**

A route keeps the template it was registered with, the names of its parameters from left to right,
and its handler.  Filling a template in goes through it from left to right and puts one value in
the place of each placeholder; the values themselves are never read as templates.

Main definitions:

* `Route` — a template, its parameter names and a handler;
* `Route.paramIndex?` — where a parameter of some name stands; the last one of that name counts;
* `Template.fill` — a template with values in the places of its placeholders;
* `Route.url` — the same for a route, after the number of values has been checked.

Main results:

* `Template.fill_of_no_marker` — a template without placeholders is its own URL.
-/
import RouteTree.Template

set_option autoImplicit false
set_option relaxedAutoImplicit false

namespace RouteTree

/-- A registered route. -/
structure Route (H : Type) where
  template : Text
  params : List Text
  handler : H
  deriving DecidableEq

/-! ### Filling a template in -/

namespace Template

/-- The template with each placeholder replaced by the next value.  A placeholder for which no
value is left is replaced by nothing. -/
def fill (template : Text) (values : List Text) : Text :=
  let run := template.takeWhile (!isMarker ·)
  match _unread : template.dropWhile (!isMarker ·) with
  | [] => run
  | marker :: after =>
      run ++ values.headD [] ++
        if marker = '*' then [] else fill (after.dropWhile isWithin) values.tail
termination_by template.length
decreasing_by
  have h₁ := length_dropWhile_le (!isMarker ·) template
  have h₂ := length_dropWhile_le isWithin after
  simp only [_unread, List.length_cons] at h₁
  omega

/-- A template without placeholders is its own URL. -/
theorem fill_of_no_marker {t : Text} (h : ∀ c ∈ t, isMarker c = false) (values : List Text) :
    fill t values = t := by
  have hd : t.dropWhile (!isMarker ·) = [] := dropWhile_of_no_marker h
  have ht : t.takeWhile (!isMarker ·) = t := takeWhile_of_no_marker h
  unfold fill
  split
  · simp [ht]
  · simp_all

end Template

/-! ### Asking a route -/

namespace Route

variable {H : Type}

/-- The place of the last parameter called `name`. -/
def paramIndex? (r : Route H) (name : Text) : Option Nat :=
  (r.params.reverse.idxOf? name).map (r.params.length - 1 - ·)

/-- **The URL that a route makes of some values**, one for each of its parameters. -/
def url (r : Route H) (values : List Text) : Except RouteError Text :=
  if values.length ≠ r.params.length then
    .error (.paramCountMismatch r.params.length values.length)
  else .ok (Template.fill r.template values)

end Route

end RouteTree
