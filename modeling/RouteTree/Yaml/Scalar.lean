/-
**Scalars of a YAML stream.**

A scalar is a text, written plainly, between quotes, or as a block of its own lines.  Lines of a
plain or quoted scalar are joined: a single line break becomes a space, and of several the first
one is dropped.  A block keeps its lines, or folds them in the same manner unless they are
indented further.

Main definitions:

* `Yaml.Gap`, `Yaml.gap?` — blanks and line breaks inside a scalar, and what they stand for;
* `Yaml.singleQuoted?`, `Yaml.doubleQuoted?` — what follows an opening quote;
* `Yaml.plain?` — a plain scalar;
* `Yaml.block?` — what follows the sign of a block.
-/
import RouteTree.Text.Decimal
import RouteTree.Yaml.Cursor

set_option autoImplicit false
set_option relaxedAutoImplicit false

namespace RouteTree

namespace Yaml

/-! ### Joining lines -/

/-- What joined lines have between them: a space for a single line feed, and all breaks but the
first for several. -/
def joinBreaks (first others : Text) : Text :=
  if first = ['\n'] then (if others = [] then [' '] else others) else first ++ others

/-- Blanks and line breaks inside a scalar. -/
structure Gap where
  /-- The blanks before the first line break. -/
  blanks : Text
  /-- The first line break, if there is one, and the breaks after it. -/
  breaks : Option (Text × Text)
  /-- How many blanks follow the last line break. -/
  column : Nat

namespace Gap

/-- Nothing at all. -/
def none : Gap := ⟨[], .none, 0⟩

/-- A line break that stands for nothing. -/
def escaped : Gap := ⟨[], some ([], []), 0⟩

/-- What a gap stands for between two words of a scalar. -/
def joined (g : Gap) : Text :=
  match g.breaks with
  | .none => g.blanks
  | some (first, others) => joinBreaks first others

/-- Whether a gap holds a line break. -/
def breaksLine (g : Gap) : Bool := g.breaks.isSome

/-- A gap that goes on with a blank. -/
def addBlank (g : Gap) (c : Char) : Gap :=
  match g.breaks with
  | .none => { g with blanks := g.blanks ++ [c] }
  | some _ => { g with column := g.column + 1 }

/-- A gap that goes on with a line break. -/
def addBreak (g : Gap) (b : Text) : Gap :=
  match g.breaks with
  | .none => ⟨[], some (b, []), 0⟩
  | some (first, others) => { g with breaks := some (first, others ++ b), column := 0 }

end Gap

/-- Read on in a gap.  A tab in the first `tabLimit` columns of a line is an error. -/
def gap? (tabLimit : Nat) : (fuel : Nat) → Gap → Text → Option (Gap × Text)
  | 0, _, _ => none
  | fuel + 1, g, stream =>
      match takeBreak? stream with
      | some (b, rest) => gap? tabLimit fuel (g.addBreak b) rest
      | .none =>
          match stream with
          | c :: rest =>
              if !isBlank c then some (g, stream)
              else if g.breaksLine && g.column < tabLimit && c = '\t' then .none
              else gap? tabLimit fuel (g.addBlank c) rest
          | [] => some (g, [])

/-! ### Quoted scalars -/

/-- What follows a gap in a quoted scalar may not be a mark between documents. -/
def afterGap? (g : Gap) (rest : Text) : Option Text :=
  if g.breaksLine && g.column = 0 && beginsWithMark rest then none else some rest

/-- Read a single-quoted scalar, of which `value` has been read.  A quote is written twice. -/
def singleQuoted? : (fuel : Nat) → (value stream : Text) → Option (Text × Text)
  | 0, _, _ => none
  | _ + 1, _, [] => none
  | fuel + 1, value, '\'' :: '\'' :: rest => singleQuoted? fuel (value ++ ['\'']) rest
  | _ + 1, value, '\'' :: rest => some (value, rest)
  | fuel + 1, value, c :: rest =>
      if isBlank c || isBreak c then do
        let (g, rest) ← gap? 0 (fuel + 2) .none (c :: rest)
        let rest ← afterGap? g rest
        singleQuoted? fuel (value ++ g.joined) rest
      else singleQuoted? fuel (value ++ [c]) rest

/-- The character that a letter after a backslash stands for. -/
def escape? : Char → Option Char
  | '0' => some '\x00'
  | 'a' => some '\x07'
  | 'b' => some '\x08'
  | 't' => some '\t'
  | '\t' => some '\t'
  | 'n' => some '\n'
  | 'v' => some '\x0b'
  | 'f' => some '\x0c'
  | 'r' => some '\r'
  | 'e' => some '\x1b'
  | ' ' => some ' '
  | '"' => some '"'
  | '/' => some '/'
  | '\\' => some '\\'
  | 'N' => some '\u0085'
  | '_' => some '\u00a0'
  | 'L' => some '\u2028'
  | 'P' => some '\u2029'
  | _ => none

/-- How many hexadecimal digits follow a letter after a backslash. -/
def escapeLength? : Char → Option Nat
  | 'x' => some 2
  | 'u' => some 4
  | 'U' => some 8
  | _ => none

/-- The character with some number. -/
def charOfNumber? (n : Nat) : Option Char := if n.isValidChar then some (Char.ofNat n) else none

/-- Read what follows a backslash, on one line. -/
def escapeSequence? : Text → Option (Char × Text)
  | [] => none
  | c :: rest =>
      match escapeLength? c with
      | some n => do
          let digits := rest.take n
          if digits.length < n then none
          let number ← Text.digits? 16 digits
          let c ← charOfNumber? number
          some (c, rest.drop n)
      | none => (escape? c).map (·, rest)

/-- Read a double-quoted scalar, of which `value` has been read. -/
def doubleQuoted? : (fuel : Nat) → (value stream : Text) → Option (Text × Text)
  | 0, _, _ => none
  | _ + 1, _, [] => none
  | _ + 1, value, '"' :: rest => some (value, rest)
  | fuel + 1, value, '\\' :: rest =>
      match takeBreak? rest with
      | some (_, rest) => do
          let (g, rest) ← gap? 0 (fuel + 2) .escaped rest
          let rest ← afterGap? g rest
          doubleQuoted? fuel (value ++ g.joined) rest
      | none => do
          let (c, rest) ← escapeSequence? rest
          doubleQuoted? fuel (value ++ [c]) rest
  | fuel + 1, value, c :: rest =>
      if isBlank c || isBreak c then do
        let (g, rest) ← gap? 0 (fuel + 2) .none (c :: rest)
        let rest ← afterGap? g rest
        doubleQuoted? fuel (value ++ g.joined) rest
      else doubleQuoted? fuel (value ++ [c]) rest

/-! ### Plain scalars -/

/-- The marks that set the items of a flow collection apart. -/
def isFlowMark (c : Char) : Bool := c ∈ [',', '[', ']', '\x7b', '\x7d']

/-- A plain scalar: its value, and whether a line break follows it. -/
structure Plain where
  value : Text
  breaksLine : Bool

/-- Whether a plain scalar ends before the next character: at a colon that a gap follows, or at a
mark inside a flow collection. -/
def endsPlain (inFlow : Bool) : Text → Bool
  | ':' :: rest => isGapOrEnd rest.head?
  | c :: _ => inFlow && isFlowMark c
  | [] => true

/-- Whether a colon inside a flow collection is followed by a mark, which is an error. -/
def colonBeforeMark : Text → Bool
  | ':' :: c :: _ => isFlowMark c || c = '?'
  | _ => false

/-- Read on in a plain scalar, of which `value` and then the gap `g` have been read.  Its further
lines are indented by at least `indent` outside of flow collections. -/
def plain? (inFlow : Bool) (indent : Nat) :
    (fuel : Nat) → (value : Text) → (g : Gap) → (stream : Text) → Option (Plain × Text)
  | 0, _, _, _ => none
  | fuel + 1, value, g, stream =>
      match stream with
      | [] => some (⟨value, g.breaksLine⟩, [])
      | c :: rest =>
          if isBlank c || isBreak c then do
            let (g, rest) ← gap? indent (fuel + 2) .none stream
            let ends := (g.breaksLine && g.column = 0 && beginsWithMark rest) ||
              rest.head? = some '#' || (!inFlow && g.breaksLine && g.column < indent)
            if ends then some (⟨value, g.breaksLine⟩, rest)
            else plain? inFlow indent fuel value g rest
          else if inFlow && colonBeforeMark stream then none
          else if endsPlain inFlow stream then some (⟨value, g.breaksLine⟩, stream)
          else plain? inFlow indent fuel (value ++ g.joined ++ [c]) .none rest

/-! ### Blocks -/

/-- What becomes of the line breaks at the end of a block. -/
inductive Chomping where
  | strip
  | clip
  | keep
  deriving DecidableEq

/-- The sign for the treatment of the last line breaks. -/
def chomping? : Char → Option Chomping
  | '-' => some .strip
  | '+' => some .keep
  | _ => none

/-- The digit for the indentation of a block, from 1 to 9. -/
def indentation? (c : Char) : Option Nat := (Text.digit? 10 c).filter (0 < ·)

/-- The head of a block: treatment of the last breaks, and indentation if it is given.  The digit
zero is an error. -/
def blockHead? (stream : Text) : Option (Chomping × Option Nat × Text) :=
  match stream with
  | c :: rest =>
      match chomping? c with
      | some chomping =>
          match rest with
          | d :: after =>
              if d = '0' then none
              else match indentation? d with
                | some n => some (chomping, some n, after)
                | none => some (chomping, none, rest)
          | [] => some (chomping, none, [])
      | none =>
          if c = '0' then none
          else match indentation? c with
            | some n =>
                match rest.head?.bind chomping? with
                | some chomping => some (chomping, some n, rest.tail)
                | none => some (.clip, some n, rest)
            | none => some (.clip, none, stream)
  | [] => some (.clip, none, [])

/-- Skip blanks and a comment at the end of a line, and the line break. -/
def restOfLine? (stream : Text) : Option Text :=
  let rest := stream.dropWhile isBlank
  let rest := if rest.head? = some '#' then rest.dropWhile (!isBreak ·) else rest
  match rest with
  | [] => some []
  | _ => (takeBreak? rest).map (·.2)

/-- The empty lines before a line of a block. -/
structure BlockBreaks where
  breaks : Text
  /-- The widest indentation met, up to the next line that is not empty. -/
  widest : Nat
  /-- The indentation of the next line, as far as it counts. -/
  column : Nat

/-- Skip empty lines and the indentation of the next line.  Where the indentation of the block is
known, no more than that is skipped.  A tab in the place of indentation is an error. -/
def blockBreaks? (indent : Option Nat) :
    (fuel : Nat) → BlockBreaks → Text → Option (BlockBreaks × Text)
  | 0, _, _ => none
  | fuel + 1, b, stream =>
      let spaces := (stream.takeWhile (· = ' ')).length
      let column := match indent with
        | some n => min n spaces
        | none => spaces
      let b : BlockBreaks := { b with widest := max b.widest column, column }
      let rest := stream.drop column
      if rest.head? = some '\t' && indent.all (column < ·) then none
      else match takeBreak? rest with
        | some (br, rest) => blockBreaks? indent fuel { b with breaks := b.breaks ++ br } rest
        | none => some (b, rest)

/-- The lines of a block as far as they have been read. -/
structure BlockLines where
  value : Text
  /-- The break after the last line. -/
  lead : Text
  /-- The empty lines after that. -/
  trail : Text
  /-- Whether the last line was indented further. -/
  wasBlank : Bool

/-- Read the lines of a block that is indented by `indent`. -/
def blockLines? (folded : Bool) (indent : Nat) :
    (fuel : Nat) → (column : Nat) → BlockLines → Text → Option (BlockLines × Text)
  | 0, _, _, _ => none
  | fuel + 1, column, b, stream =>
      if column ≠ indent || stream = [] then some (b, stream)
      else
        let isFurther := stream.head?.any isBlank
        let between :=
          if folded && b.lead = ['\n'] && !b.wasBlank && !isFurther then
            (if b.trail = [] then [' '] else []) ++ b.trail
          else b.lead ++ b.trail
        let line := stream.takeWhile (!isBreak ·)
        let rest := stream.dropWhile (!isBreak ·)
        let (lead, rest) := (takeBreak? rest).getD ([], rest)
        match blockBreaks? (some indent) (fuel + 1) ⟨[], 0, 0⟩ rest with
        | none => none
        | some (breaks, rest) =>
            blockLines? folded indent fuel breaks.column
              ⟨b.value ++ between ++ line, lead, breaks.breaks, isFurther⟩ rest

/-- Read a block behind its sign.  `outer` is the indentation around it, one more than the column
of the collection it belongs to, or zero outside of any. -/
def block? (folded : Bool) (outer : Nat) (stream : Text) : Option (Text × Text) := do
  let (chomping, given, rest) ← blockHead? stream
  let rest ← restOfLine? rest
  let fuel := rest.length + 2
  let known := given.map (· + (outer - 1))
  let (breaks, rest) ← blockBreaks? known fuel ⟨[], 0, 0⟩ rest
  let indent := known.getD (max breaks.widest (max outer 1))
  let (lines, rest) ←
    blockLines? folded indent fuel breaks.column ⟨[], [], breaks.breaks, false⟩ rest
  let tail := match chomping with
    | .strip => []
    | .clip => lines.lead
    | .keep => lines.lead ++ lines.trail
  some (lines.value ++ tail, rest)

end Yaml

end RouteTree
