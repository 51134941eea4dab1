/-
**Request methods.**

A method is a token: a non-empty text over a fixed alphabet, compared letter for letter.  Nine of
them are the verbs that a route can be registered under; all others are extension methods, which
requests may carry but routes may not.

Main definitions:

* `Verb` — the nine verbs, and `Verb.all`, their order in every table and listing;
* `Method` — a token, with `Method.verb?`, the verb it spells if it is one;
* `Method.ofText?` — reading a method.
-/
import RouteTree.Text.Basic

set_option autoImplicit false
set_option relaxedAutoImplicit false

namespace RouteTree

/-! ### Verbs -/

/-- A method that routes are registered under. -/
inductive Verb where
  | get
  | head
  | post
  | put
  | delete
  | connect
  | options
  | trace
  | patch
  deriving DecidableEq, Repr

namespace Verb

/-- The nine verbs, in the order in which every table and listing holds them. -/
def all : List Verb := [get, head, post, put, delete, connect, options, trace, patch]

theorem mem_all (v : Verb) : v ∈ all := by cases v <;> decide

/-- The token that a verb is written as. -/
def name : Verb → Text
  | get => ['G', 'E', 'T']
  | head => ['H', 'E', 'A', 'D']
  | post => ['P', 'O', 'S', 'T']
  | put => ['P', 'U', 'T']
  | delete => ['D', 'E', 'L', 'E', 'T', 'E']
  | connect => ['C', 'O', 'N', 'N', 'E', 'C', 'T']
  | options => ['O', 'P', 'T', 'I', 'O', 'N', 'S']
  | trace => ['T', 'R', 'A', 'C', 'E']
  | patch => ['P', 'A', 'T', 'C', 'H']

theorem name_injective {v w : Verb} (h : v.name = w.name) : v = w := by
  revert h
  cases v <;> cases w <;> decide

/-- The place of a verb among the nine, counted from zero. -/
def index (v : Verb) : Nat := all.idxOf v

/-- The verb that is written as `t`. -/
def ofName? (t : Text) : Option Verb := all.find? fun v => v.name = t

@[simp] theorem ofName?_name (v : Verb) : ofName? v.name = some v := by cases v <;> decide

theorem ofName?_eq_some_iff {t : Text} {v : Verb} : ofName? t = some v ↔ t = v.name := by
  constructor
  · intro h
    have := List.find?_some h
    simpa [eq_comm] using this
  · rintro rfl
    simp

end Verb

/-! ### Tokens -/

/-- The marks that may stand in a token. -/
def tokenMarks : List Char :=
  ['!', '#', '$', '%', '&', '\'', '*', '+', '-', '.', '^', '_', '\x60', '|', '~']

/-- Letters, digits and the marks may stand in a token. -/
def isTokenChar (c : Char) : Bool := c.isAlphanum || c ∈ tokenMarks

/-- A token is a non-empty text of token characters. -/
def IsToken (t : Text) : Prop := t ≠ [] ∧ ∀ c ∈ t, isTokenChar c = true

instance (t : Text) : Decidable (IsToken t) :=
  decidable_of_iff (t ≠ [] ∧ t.all isTokenChar = true) (by simp [IsToken])

/-! ### Methods -/

/-- A request method, known by its token alone. -/
structure Method where
  name : Text
  isToken : IsToken name

namespace Method

theorem ext_name {m n : Method} (h : m.name = n.name) : m = n := by
  cases m; cases n; cases h; rfl

instance : DecidableEq Method := fun m n =>
  if h : m.name = n.name then isTrue (ext_name h) else isFalse fun e => h (congrArg name e)

/-- Read a method; letter case is kept. -/
def ofText? (t : Text) : Option Method := if h : IsToken t then some ⟨t, h⟩ else none

/-- The verb that a method spells; an extension method spells none. -/
def verb? (m : Method) : Option Verb := Verb.ofName? m.name

end Method

theorem Verb.isToken_name (v : Verb) : IsToken v.name := by cases v <;> decide

/-- A verb as a method. -/
def Verb.method (v : Verb) : Method := ⟨v.name, v.isToken_name⟩

@[simp] theorem Verb.verb?_method (v : Verb) : v.method.verb? = some v := Verb.ofName?_name v

end RouteTree
