/-
**What a plain scalar stands for.**

A plain scalar without a tag stands for nothing, a truth value or a number if it is written like
one; else it stands for itself.  A tag of the core schema decides otherwise.

Main definitions:

* `Yaml.isNull`, `Yaml.isBool`, `Yaml.isInteger`, `Yaml.isReal` — how those are written;
* `Yaml.scalarText?` — the text that a scalar stands for, if it stands for a text.
-/
import RouteTree.Text.Decimal
import RouteTree.Yaml.Node

set_option autoImplicit false
set_option relaxedAutoImplicit false

namespace RouteTree

namespace Yaml

/-! ### Constants -/

/-- The ways to write that there is nothing. -/
def isNull (t : Text) : Bool := t = [] || t ∈ ["null", "Null", "NULL", "~"].map String.toList

/-- The ways to write a truth value. -/
def isBool (t : Text) : Bool :=
  t ∈ ["true", "True", "TRUE", "false", "False", "FALSE"].map String.toList

/-! ### Numbers -/

/-- Digits that begin with a superfluous zero are no number. -/
def isPaddedDigits (t : Text) : Bool :=
  match Text.withoutSign ['-', '+'] t with
  | '0' :: c :: rest => (c :: rest).all Char.isDigit
  | _ => false

/-- An integer of at most 128 bits in some base. -/
def fits (isNegative : Bool) (base : Nat) (digits : Text) : Bool :=
  (Text.digits? base digits).any fun n =>
    if isNegative then n ≤ Nat.pow 2 127 else n < Nat.pow 2 128

/-- Integers are decimal, or hexadecimal, octal or binary behind `0x`, `0o` or `0b`. -/
def isInteger (t : Text) : Bool :=
  let isNegative := t.head? = some '-'
  let body := Text.withoutSign ['-', '+'] t
  let based := match body with
    | '0' :: 'x' :: digits => fits isNegative 16 digits
    | '0' :: 'o' :: digits => fits isNegative 8 digits
    | '0' :: 'b' :: digits => fits isNegative 2 digits
    | _ => false
  based || (!isPaddedDigits t && fits isNegative 10 body)

/-- Numbers with a point or an exponent, and the infinite and undefined ones. -/
def isReal (t : Text) : Bool :=
  let positive := Text.withoutSign ['+'] t
  if positive.length < t.length && positive.head?.any (· ∈ ['+', '-']) then false
  else
    positive ∈ [".inf", ".Inf", ".INF"].map String.toList ||
      t ∈ ["-.inf", "-.Inf", "-.INF", ".nan", ".NaN", ".NAN"].map String.toList ||
      (Decimal.ofText? (Text.withoutSign ['-', '+'] positive)).any Decimal.isFinite

/-! ### Texts -/

/-- Whether a plain scalar stands for itself. -/
def isText (t : Text) : Bool :=
  !(isNull t || isBool t || isInteger t || (!isPaddedDigits t && isReal t))

/-- **The text that a scalar stands for**, if it stands for a text.  A tag of the document's own is
as good as none unless it names a variant; any other tag makes it a text, but for those that say
otherwise. -/
def scalarText? (tag : Option Tag) (isPlain : Bool) (value : Text) : Option Text :=
  let isLiteral := match tag with
    | none => !isPlain
    | some tag => !isPlain || !tag.isOwn
  if tag.any fun tag => tag.isValue || tag.isVariant then none
  else if isLiteral || isText value then some value
  else none

end Yaml

end RouteTree
