/-
**Texts, and how two of them overlap.**

Templates, request paths, parameter names and captured values are all texts: lists of characters.
Two questions are asked of them throughout.  Does one text begin with another, and what is left
then?  And where do two texts part?

Main definitions:

* `Text` — a list of characters;
* `Text.after?` — what follows a given beginning;
* `Text.fork` — the longest common beginning of two texts, and what each has left.

Main results:

* `Text.after?_eq_some_iff` — `after?` finds exactly the beginnings;
* `Text.fork_left`, `Text.fork_right` — the parts of a fork make up the two texts again.
-/

set_option autoImplicit false
set_option relaxedAutoImplicit false

namespace RouteTree

/-- A run of characters. -/
abbrev Text := List Char

namespace Text

/-! ### Beginnings -/

/-- What `t` has left after `start`, if `t` begins with `start`. -/
def after? : (start t : Text) → Option Text
  | [], t => some t
  | _ :: _, [] => none
  | a :: s, b :: t => if a = b then after? s t else none

@[simp] theorem after?_nil (t : Text) : after? [] t = some t := by cases t <;> rfl

@[simp] theorem after?_append (s t : Text) : after? s (s ++ t) = some t := by
  induction s with
  | nil => simp
  | cons a s ih => simpa [after?] using ih

/-- **A text begins with `s` and goes on with `r` exactly when it is `s` followed by `r`.** -/
theorem after?_eq_some_iff {s t r : Text} : after? s t = some r ↔ t = s ++ r := by
  induction s generalizing t with
  | nil => simp
  | cons a s ih =>
      cases t with
      | nil => simp [after?]
      | cons b t =>
          by_cases h : a = b
          · simp [after?, h, ih]
          · simp [after?, h, Ne.symm h]

/-! ### Where two texts part -/

/-- The longest common beginning of two texts, and what each of them has left after it. -/
structure Fork where
  shared : Text
  left : Text
  right : Text
  deriving DecidableEq, Repr

/-- Follow two texts as long as they agree. -/
def fork : (s t : Text) → Fork
  | a :: s, b :: t =>
      if a = b then
        let f := fork s t
        { f with shared := a :: f.shared }
      else ⟨[], a :: s, b :: t⟩
  | s, t => ⟨[], s, t⟩

@[simp] theorem fork_nil_left (t : Text) : fork [] t = ⟨[], [], t⟩ := by
  cases t <;> simp [fork]

@[simp] theorem fork_nil_right (s : Text) : fork s [] = ⟨[], s, []⟩ := by
  cases s <;> simp [fork]

/-- The left text is what is shared, then what is left of it. -/
theorem fork_left (s t : Text) : (fork s t).shared ++ (fork s t).left = s := by
  induction s generalizing t with
  | nil => simp
  | cons a s ih =>
      cases t with
      | nil => simp
      | cons b t =>
          by_cases h : a = b
          · simp [fork, h, ih t]
          · simp [fork, h]

/-- The right text is what is shared, then what is left of it. -/
theorem fork_right (s t : Text) : (fork s t).shared ++ (fork s t).right = t := by
  induction s generalizing t with
  | nil => simp
  | cons a s ih =>
      cases t with
      | nil => simp
      | cons b t =>
          by_cases h : a = b
          · simp [fork, h, ih t]
          · simp [fork, h]

end Text

end RouteTree
