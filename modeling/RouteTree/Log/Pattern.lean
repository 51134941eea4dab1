/-
**Patterns for the values of fields.**

A directive may ask for the value of a field by a regular expression.  The expression is not run
here, as it only matters inside of spans; but a directive with one that is malformed cannot be read.

Letter case, boundaries of words and the classes `\d`, `\s` and `\w` are only understood where a
flag confines them to ASCII.  There, in turn, nothing may match a character beyond ASCII that is not
written out.

Main definitions:

* `Pattern.Flags` — the flags that decide what is understood;
* `Pattern.escape?` — what follows a backslash;
* `Pattern.class?` — what follows an opening bracket;
* `Pattern.openGroup?` — what follows an opening parenthesis;
* `Pattern.isWellFormed` — whether a text is a pattern;
* `Pattern.isValue` — whether a text is a number or a pattern.
-/
import RouteTree.Log.Nesting
import RouteTree.Text.Characters
import RouteTree.Text.Decimal

set_option autoImplicit false
set_option relaxedAutoImplicit false

namespace RouteTree

namespace Pattern

/-! ### Flags and blanks -/

/-- The flags that decide what is understood. -/
structure Flags where
  /-- Letters stand for both cases. -/
  ignoresCase : Bool
  /-- Characters are not confined to ASCII. -/
  isUnicode : Bool
  /-- Blanks and comments between the parts of a pattern mean nothing. -/
  isSpaced : Bool
  deriving DecidableEq, Repr

namespace Flags

/-- The flags at the beginning of a pattern. -/
def initial : Flags := ⟨false, true, false⟩

/-- The letters of all flags. -/
def letters : List Char := ['i', 'm', 's', 'U', 'u', 'R', 'x']

/-- The flags after one of them has been switched. -/
def switch (f : Flags) (letter : Char) (on : Bool) : Flags :=
  if letter = 'i' then { f with ignoresCase := on }
  else if letter = 'u' then { f with isUnicode := on }
  else if letter = 'x' then { f with isSpaced := on }
  else f

end Flags

/-- Skip blanks and comments; a comment goes from a number sign to the end of the line. -/
def skipSpace : (inComment : Bool) → Text → Text
  | _, [] => []
  | true, c :: rest => skipSpace (c ≠ '\n') rest
  | false, c :: rest =>
      if Text.isBlank c then skipSpace false rest
      else if c = '#' then skipSpace true rest
      else c :: rest

/-- Skip what means nothing between the parts of a pattern. -/
def gap (f : Flags) (t : Text) : Text := if f.isSpaced then skipSpace false t else t

/-- The same, where the pattern must go on. -/
def gapInside? (f : Flags) (t : Text) : Option Text :=
  match gap f t with
  | [] => none
  | c :: rest => some (c :: rest)

/-! ### Backslashes -/

/-- A part of a pattern that stands for one place in a text. -/
inductive Item where
  /-- A character; it may be given as a byte. -/
  | literal (c : Char) (isByte : Bool)
  /-- A class of characters. -/
  | family
  /-- A place between characters. -/
  | position
  deriving DecidableEq, Repr

/-- Read some hexadecimal digits. -/
def hexDigits? (f : Flags) : (count number : Nat) → Text → Option (Nat × Text)
  | 0, number, t => some (number, t)
  | count + 1, number, t =>
      match gap f t with
      | [] => none
      | c :: rest => do hexDigits? f count (16 * number + (← Text.digit? 16 c)) rest

/-- How many hexadecimal digits follow a letter behind a backslash. -/
def hexLength? : Char → Option Nat
  | 'x' => some 2
  | 'u' => some 4
  | 'U' => some 8
  | _ => none

/-- The control character that a letter behind a backslash stands for. -/
def control? : Char → Option Char
  | 'a' => some '\x07'
  | 't' => some '\t'
  | 'n' => some '\n'
  | 'v' => some '\x0b'
  | 'f' => some '\x0c'
  | 'r' => some '\r'
  | _ => none

/-- The marks that stand for themselves behind a backslash: those of ASCII without the two that
are kept for boundaries of words. -/
def isMark (c : Char) : Bool := c.toNat < 128 && !c.isAlphanum && c ≠ '<' && c ≠ '>'

/-- **What follows a backslash.**  Properties of characters are not understood at all. -/
def escape? (f : Flags) : Text → Option (Item × Text)
  | [] => none
  | c :: rest =>
      match hexLength? c with
      | some count => do
          let (number, rest) ← hexDigits? f count 0 rest
          if number.isValidChar then some (.literal (Char.ofNat number) (c = 'x'), rest) else none
      | none =>
          if isMark c then some (.literal c false, rest)
          else if let some c := control? c then some (.literal c false, rest)
          else if c = 'A' || c = 'z' then some (.position, rest)
          else if f.isUnicode then none
          else if ['b', 'B', '<', '>'].contains c then some (.position, rest)
          else if ['d', 's', 'w'].contains c then some (.family, rest)
          else none

/-- Whether a character is understood outside of a class. -/
def allowsLiteral (f : Flags) (c : Char) (isByte : Bool) : Bool :=
  if f.isUnicode then !f.ignoresCase else !isByte || c.toNat < 128

/-- Whether a character is understood in a class. -/
def allowsMember (f : Flags) (c : Char) : Bool := f.isUnicode || c.toNat < 128

/-! ### Brackets -/

/-- The names of the classes that are written between two colons. -/
def classNames : List Text :=
  ["alnum", "alpha", "ascii", "blank", "cntrl", "digit", "graph", "lower", "print", "punct",
    "space", "upper", "word", "xdigit"].map String.toList

/-- A named class behind its bracket: whether it is negated, and what follows it. -/
def namedClass? (t : Text) : Option (Bool × Text) := do
  let t ← Text.after? [':'] t
  let isNegated := t.head? = some '^'
  let t := if isNegated then t.tail else t
  let name : Text := t.takeWhile (· ≠ ':')
  let rest ← Text.after? [':', ']'] (t.drop name.length)
  if classNames.contains name then some (isNegated, rest) else none

/-- Read hyphens in front of the members of a class, and count them. -/
def leadingHyphens? (f : Flags) : (seen : Nat) → Text → Option (Nat × Text)
  | _, [] => none
  | seen, c :: rest =>
      if c = '-' then leadingHyphens? f (seen + 1) rest
      else if seen = 0 then some (0, c :: rest)
      else (gapInside? f (c :: rest)).map (seen, ·)

/-- Read the beginning of a class behind its bracket: a sign for its complement, and hyphens or a
bracket that stand for themselves. -/
def openClass? (f : Flags) (t : Text) : Option (Combination × Text) := do
  if f.isUnicode && f.ignoresCase then none
  let t ← gapInside? f t
  let isNegated := t.head? = some '^'
  if isNegated && !f.isUnicode then none
  let t ← if isNegated then gapInside? f t.tail else some t
  let (hyphens, t) ← leadingHyphens? f 0 t
  if hyphens = 0 && t.head? = some ']' then some (.flat 1, ← gapInside? f t.tail)
  else some (.flat hyphens, t)

/-- Read a member of a class. -/
def member? (f : Flags) : Text → Option (Item × Text)
  | [] => none
  | c :: rest => do
      let (item, rest) ← if c = '\\' then escape? f rest else some (.literal c false, rest)
      match item with
      | .literal c _ => if allowsMember f c then some (item, rest) else none
      | .family => some (item, rest)
      | .position => none

/-- Read a member of a class, or a range from one character to another. -/
def range? (f : Flags) (t : Text) : Option Text := do
  let (first, t) ← member? f t
  let t ← gapInside? f t
  let next := (gap f t.tail).head?
  if t.head? ≠ some '-' || next = some ']' || next = some '-' then some t
  else
    let (last, t) ← member? f (← gapInside? f t.tail)
    match first, last with
    | .literal low _, .literal high _ => if low ≤ high then some t else none
    | _, _ => none

/-- The sign for a combination of classes at the beginning of a text, and what follows it. -/
def combination? : Text → Option Text
  | '&' :: '&' :: rest => some rest
  | '-' :: '-' :: rest => some rest
  | '~' :: '~' :: rest => some rest
  | _ => none

/-- **What follows an opening bracket**, behind the beginning of the class, and how deep the class
is.  Classes may stand in classes: those around this one are still open. -/
def classBody? (f : Flags) : (fuel : Nat) → (around : List Combination) → Combination → Text →
    Option (Nat × Text)
  | 0, _, _, _ => none
  | fuel + 1, around, here, t =>
      match gap f t with
      | [] => none
      | ']' :: rest =>
          match around with
          | [] => some (here.depth + 1, rest)
          | outer :: around => classBody? f fuel around (outer.push (here.depth + 1)) rest
      | '[' :: rest =>
          match namedClass? rest with
          | some (isNegated, rest) =>
              if isNegated && !f.isUnicode then none
              else classBody? f fuel around (here.push 0) rest
          | none => do
              let (inner, rest) ← openClass? f rest
              classBody? f fuel (here :: around) inner rest
      | t =>
          match combination? t with
          | some rest => classBody? f fuel around here.next rest
          | none => do classBody? f fuel around (here.push 0) (← range? f t)

/-- A class behind its bracket: how deep it is, and what follows it. -/
def class? (f : Flags) (t : Text) : Option (Nat × Text) := do
  let (here, rest) ← openClass? f t
  classBody? f (rest.length + 1) [] here rest

/-! ### Parentheses -/

/-- What has been read of a pattern, and what is left. -/
structure Progress where
  rest : Text
  flags : Flags
  /-- The alternatives of the innermost group. -/
  here : Alternatives
  /-- The flags outside of each open group, and the alternatives that it stands in. -/
  outer : List (Flags × Alternatives)
  /-- The names of the groups so far. -/
  names : List Text
  /-- Whether something has been read that can be repeated. -/
  canRepeat : Bool

namespace Progress

/-- Go on behind a part of some depth, which can be repeated. -/
def pastPart (p : Progress) (depth : Nat) (rest : Text) : Progress :=
  { p with rest, here := p.here.push depth, canRepeat := true }

/-- Go on inside of a group with some flags. -/
def enter (p : Progress) (flags : Flags) (rest : Text) : Progress :=
  { p with rest, flags, here := .empty, outer := (p.flags, p.here) :: p.outer, canRepeat := false }

/-- Go on behind the innermost group. -/
def leave? (p : Progress) (rest : Text) : Option Progress :=
  match p.outer with
  | [] => none
  | (flags, here) :: outer =>
      some { p with
        rest, flags, here := here.push (p.here.depth + 1), outer, canRepeat := true }

end Progress

/-- Flags that are switched in a group. -/
structure Switched where
  flags : Flags
  /-- Which flags are named. -/
  named : List Char
  /-- Whether flags are being switched off. -/
  isOff : Bool
  /-- Whether a flag to be switched off has to follow. -/
  isDangling : Bool

/-- Switch flags up to a colon or a closing parenthesis. -/
def switchFlags? (s : Switched) : Text → Option (Switched × Char × Text)
  | [] => none
  | c :: rest =>
      if c = ':' || c = ')' then if s.isDangling then none else some (s, c, rest)
      else if c = '-' then
        if s.isOff then none else switchFlags? { s with isOff := true, isDangling := true } rest
      else if Flags.letters.contains c && !s.named.contains c then
        switchFlags? ⟨s.flags.switch c (!s.isOff), c :: s.named, s.isOff, false⟩ rest
      else none

/-- Whether a text may be the name of a group. -/
def isGroupName : Text → Bool
  | [] => false
  | c :: rest =>
      (c = '_' || Text.isAlphabetic c) &&
        rest.all fun c => ['_', '.', '[', ']'].contains c || Text.isAlphanumeric c

/-- Open a group with a name. -/
def openNamedGroup? (p : Progress) (t : Text) : Option Progress :=
  let name : Text := t.takeWhile (· ≠ '>')
  match t.drop name.length with
  | [] => none
  | _ :: rest =>
      if isGroupName name && !p.names.contains name then
        some { p.enter p.flags rest with names := name :: p.names }
      else none

/-- **What follows an opening parenthesis**: a name, flags for the group or for what follows in the
group around, or nothing special. -/
def openGroup? (p : Progress) (t : Text) : Option Progress :=
  match gap p.flags t with
  | '?' :: 'P' :: '<' :: rest => openNamedGroup? p rest
  | '?' :: '<' :: rest => openNamedGroup? p rest
  | '?' :: rest => do
      let (s, mark, rest) ← switchFlags? ⟨p.flags, [], false, false⟩ rest
      if mark = ':' then some (p.enter s.flags rest)
      else if s.named = [] then none
      else some { p.pastPart 0 rest with flags := s.flags, canRepeat := false }
  | rest => some (p.enter p.flags rest)

/-! ### Patterns -/

/-- Read on in a pattern that goes on with `c`.  No number of repetitions can be given. -/
def step? (p : Progress) (c : Char) (rest : Text) : Option Progress :=
  if c = '(' then openGroup? p rest
  else if c = ')' then p.leave? rest
  else if c = '|' then some { p with rest, here := p.here.next, canRepeat := false }
  else if c = '[' then do
    let (depth, rest) ← class? p.flags rest
    some (p.pastPart depth rest)
  else if c = '?' || c = '*' || c = '+' then
    if p.canRepeat then
      some { p with rest := (Text.after? ['?'] rest).getD rest, here := p.here.wrapLast }
    else none
  else if c = '\x7b' then none
  else if c = '.' then if p.flags.isUnicode then some (p.pastPart 0 rest) else none
  else if c = '^' || c = '$' then some (p.pastPart 0 rest)
  else do
    let (item, rest) ← if c = '\\' then escape? p.flags rest else some (.literal c false, rest)
    match item with
    | .literal c isByte =>
        if allowsLiteral p.flags c isByte then some (p.pastPart 0 rest) else none
    | _ => some (p.pastPart 0 rest)

/-- How deep the parts of a pattern may be nested. -/
def depthLimit : Nat := 250

/-- Whether a pattern can be read to its end. -/
def readsToEnd : (fuel : Nat) → Progress → Bool
  | 0, _ => false
  | fuel + 1, p =>
      match gap p.flags p.rest with
      | [] => p.outer.isEmpty && p.here.depth ≤ depthLimit
      | c :: rest =>
          match step? p c rest with
          | some p => readsToEnd fuel p
          | none => false

/-- **Whether a text is a pattern.** -/
def isWellFormed (t : Text) : Bool :=
  readsToEnd (t.length + 1) ⟨t, .initial, .empty, [], [], false⟩

/-! ### Values -/

/-- Whether a text is a number with or without a sign, an infinite or an undefined one among
them. -/
def isNumber (t : Text) : Bool :=
  let t := Text.withoutSign ['-', '+'] t
  (Decimal.ofText? t).isSome || ["inf", "infinity", "nan"].any (Text.sameLetters t ·.toList)

/-- **Whether a text is a number or a pattern.** -/
def isValue (t : Text) : Bool := isNumber t || isWellFormed t

end Pattern

end RouteTree
