/-
**Numbers.**

A number is a run of digits, or a decimal number: digits, a point among or beside them, and an
exponent.

Main definitions:

* `Text.digits?` — the number that a run of digits stands for;
* `Text.word64?` — the same with an optional plus sign, if it fits in 64 bits;
* `Text.withoutSign` — a text without the sign in front;
* `Decimal`, `Decimal.ofText?` — a decimal number, and reading one;
* `Decimal.isFinite` — whether a double-precision number comes near it.
-/
import RouteTree.Text.Basic

set_option autoImplicit false
set_option relaxedAutoImplicit false

namespace RouteTree

namespace Text

/-! ### Runs of digits -/

/-- The value of a digit in some base up to 16. -/
def digit? (base : Nat) (c : Char) : Option Nat :=
  let value? :=
    if c.isDigit then some (c.toNat - '0'.toNat)
    else if 'a' ≤ c ∧ c ≤ 'f' then some (c.toNat - 'a'.toNat + 10)
    else if 'A' ≤ c ∧ c ≤ 'F' then some (c.toNat - 'A'.toNat + 10)
    else none
  value?.filter (· < base)

/-- The number that a non-empty run of digits stands for in some base. -/
def digits? (base : Nat) (t : Text) : Option Nat :=
  if t = [] then none
  else t.foldlM (fun n c => (digit? base c).map (base * n + ·)) 0

/-- A number in decimal that fits in 64 bits, with or without a plus sign. -/
def word64? (t : Text) : Option Nat :=
  (digits? 10 ((after? ['+'] t).getD t)).filter (· < UInt64.size)

/-- What follows a sign at the beginning; the whole text without one. -/
def withoutSign (signs : List Char) : Text → Text
  | c :: rest => if signs.contains c then rest else c :: rest
  | [] => []

end Text

/-! ### Decimal numbers -/

/-- A decimal number without a sign: an integer, given by its digits, times a power of ten. -/
structure Decimal where
  digits : Text
  exponent : Int

namespace Decimal

/-- Read a decimal number: digits with at most one point among them, and an exponent. -/
def ofText? (t : Text) : Option Decimal := do
  let whole := t.takeWhile Char.isDigit
  let rest := t.drop whole.length
  let (part, rest) := match rest with
    | '.' :: rest => (rest.takeWhile Char.isDigit, rest.dropWhile Char.isDigit)
    | rest => ([], rest)
  if whole ++ part = [] then none
  let exponent ← match rest with
    | [] => some (0 : Int)
    | e :: rest =>
        if e = 'e' || e = 'E' then
          (Text.digits? 10 (Text.withoutSign ['-', '+'] rest)).map fun n =>
            if rest.head? = some '-' then -(n : Int) else n
        else none
  some ⟨whole ++ part, exponent - part.length⟩

/-- The least number that is too large for a double-precision number, half a step above the
largest one. -/
def overflow : Nat := (Nat.pow 2 54 - 1) * Nat.pow 2 970

/-- Whether a decimal number is in the range of double-precision numbers. -/
def isFinite (d : Decimal) : Bool :=
  let digits := d.digits.dropWhile (· = '0')
  let magnitude : Int := digits.length + d.exponent
  if digits = [] || magnitude ≤ 308 then true
  else if magnitude > 310 then false
  else
    let n := (Text.digits? 10 digits).getD 0
    if d.exponent ≥ 0 then n * Nat.pow 10 d.exponent.toNat < overflow
    else n < overflow * Nat.pow 10 (-d.exponent).toNat

end Decimal

end RouteTree
