/-
**Route templates and their segments.**

A template is cut from left to right into literal runs, `:name` placeholders that stand for one
path component, and `*name` placeholders that stand for all the rest.  A marker takes everything
up to the next slash as its name, markers included, so `:a*b` is one placeholder.

Main definitions:

* `Segment` — one piece of a template;
* `Template.isMarker` — the characters that open a placeholder;
* `Template.segments` — the cut, or the reason why there is none.
-/
import RouteTree.RouteError

set_option autoImplicit false
set_option relaxedAutoImplicit false

namespace RouteTree

/-- One piece of a template.  A placeholder's text includes its marker. -/
inductive Segment where
  | literal (text : Text)
  | param (text : Text)
  | wildcard (text : Text)
  deriving DecidableEq, Repr

namespace Segment

/-- The part of the template that a segment covers. -/
def text : Segment → Text
  | literal t => t
  | param t => t
  | wildcard t => t

/-- The name that a segment gives to what it captures; a literal captures nothing. -/
def name? : Segment → Option Text
  | literal _ => none
  | param t => some t.tail
  | wildcard t => some t.tail

/-- What is left of a literal run, before further segments; an empty run is no segment. -/
def literalThen (run : Text) (rest : List Segment) : List Segment :=
  if run = [] then rest else literal run :: rest

@[simp] theorem literalThen_nil (rest : List Segment) : literalThen [] rest = rest := rfl

end Segment

namespace Template

/-- A colon or a star opens a placeholder. -/
def isMarker (c : Char) : Bool := c = ':' || c = '*'

/-- A character that a slash does not end. -/
def isWithin (c : Char) : Bool := c ≠ '/'

/-! ### Cutting a template -/

theorem length_dropWhile_le (p : Char → Bool) (t : Text) : (t.dropWhile p).length ≤ t.length :=
  (List.dropWhile_sublist p).length_le

/-- Cut `rest`, the part of the template `whole` that has not been read yet. -/
def segmentsFrom (whole rest : Text) : Except RouteError (List Segment) :=
  let run := rest.takeWhile (!isMarker ·)
  match _unread : rest.dropWhile (!isMarker ·) with
  | [] => .ok (Segment.literalThen run [])
  | marker :: after =>
      let name := after.takeWhile isWithin
      let beyond := after.dropWhile isWithin
      if name = [] then .error (.emptyParamName whole)
      else if marker = '*' then
        if beyond = [] then .ok (Segment.literalThen run [.wildcard (marker :: name)])
        else .error (.routeConflict (whole.take (whole.length - beyond.length)) whole)
      else do
        let more ← segmentsFrom whole beyond
        .ok (Segment.literalThen run (.param (marker :: name) :: more))
termination_by rest.length
decreasing_by
  have h₁ := length_dropWhile_le (!isMarker ·) rest
  have h₂ := length_dropWhile_le isWithin after
  simp only [_unread, List.length_cons] at h₁
  omega

/-- **The segments of a template.** -/
def segments (template : Text) : Except RouteError (List Segment) := segmentsFrom template template

theorem dropWhile_of_no_marker {t : Text} (h : ∀ c ∈ t, isMarker c = false) :
    t.dropWhile (!isMarker ·) = [] := by
  induction t with
  | nil => rfl
  | cons c t ih => simp_all

theorem takeWhile_of_no_marker {t : Text} (h : ∀ c ∈ t, isMarker c = false) :
    t.takeWhile (!isMarker ·) = t := by
  induction t with
  | nil => rfl
  | cons c t ih => simp_all

/-! ### Names -/

/-- The names of the placeholders among some segments, in order. -/
def paramNames (segs : List Segment) : List Text := segs.filterMap Segment.name?

end Template

end RouteTree
