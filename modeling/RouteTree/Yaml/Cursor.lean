/-
**Characters of a YAML stream, and places in it.**

Main definitions:

* `Yaml.isBreak`, `Yaml.isBlank` — line breaks, and the blanks that separate on a line;
* `Yaml.isAllowed` — the characters that a stream may hold at all;
* `Yaml.takeBreak?` — reading one line break, in any of its spellings;
* `Yaml.Cursor` — the unread part of a stream, and where it begins.
-/
import RouteTree.Text.Basic

set_option autoImplicit false
set_option relaxedAutoImplicit false

namespace RouteTree

namespace Yaml

/-! ### Characters -/

/-- The characters that end a line. -/
def isBreak (c : Char) : Bool :=
  c = '\n' || c = '\r' || c = '\u0085' || c = '\u2028' || c = '\u2029'

/-- A space or a tab. -/
def isBlank (c : Char) : Bool := c = ' ' || c = '\t'

/-- A blank, a line break, or the end of the stream. -/
def isGapOrEnd (c : Option Char) : Bool := c.all fun c => isBlank c || isBreak c

/-- Controls other than the tab and the line breaks, and two code points at the end of the first
plane, are not allowed. -/
def isAllowed (c : Char) : Bool :=
  let n := c.toNat
  n = 0x09 || n = 0x0A || n = 0x0D || (0x20 ≤ n && n ≤ 0x7E) || n = 0x85 ||
    (0xA0 ≤ n && n ≤ 0xFFFD) || 0x10000 ≤ n

/-- Letters, digits, the hyphen and the low line may stand in the name of an anchor, a tag handle
or a directive. -/
def isNameChar (c : Char) : Bool := c.isAlphanum || c = '-' || c = '_'

/-- The byte order mark. -/
def byteOrderMark : Char := '\ufeff'

/-! ### Line breaks -/

/-- Read a line break: what it stands for in a value, and what follows it.  The two separators
stand for themselves, all other spellings for a line feed. -/
def takeBreak? : Text → Option (Text × Text)
  | '\r' :: '\n' :: rest => some (['\n'], rest)
  | c :: rest =>
      if c = '\u2028' || c = '\u2029' then some ([c], rest)
      else if isBreak c then some (['\n'], rest)
      else none
  | [] => none

/-- Whether a text begins with a mark between documents, three hyphens or three dots that are
followed by a gap. -/
def beginsWithMark : Text → Bool
  | '-' :: '-' :: '-' :: rest => isGapOrEnd rest.head?
  | '.' :: '.' :: '.' :: rest => isGapOrEnd rest.head?
  | _ => false

/-! ### Places -/

/-- The unread part of a stream, and the place where it begins.  The index counts bytes, and the
column counts characters. -/
structure Cursor where
  rest : Text
  index : Nat
  line : Nat
  column : Nat

namespace Cursor

/-- The beginning of a stream. -/
def start (stream : Text) : Cursor := ⟨stream, 0, 0, 0⟩

/-- The place behind some characters that have been read. -/
def past (c : Cursor) : Text → Cursor
  | '\r' :: '\n' :: read =>
      past { c with index := c.index + 2, line := c.line + 1, column := 0 } read
  | x :: read =>
      if isBreak x then
        past { c with index := c.index + x.utf8Size, line := c.line + 1, column := 0 } read
      else past { c with index := c.index + x.utf8Size, column := c.column + 1 } read
  | [] => c

/-- Move on by some characters. -/
def skip (c : Cursor) (n : Nat) : Cursor :=
  { c.past (c.rest.take n) with rest := c.rest.drop n }

/-- Move on to a later part of the stream. -/
def moveTo (c : Cursor) (rest : Text) : Cursor := c.skip (c.rest.length - rest.length)

/-- The next character. -/
def next? (c : Cursor) : Option Char := c.rest.head?

/-- The character after the next one. -/
def second? (c : Cursor) : Option Char := c.rest.tail.head?

end Cursor

end Yaml

end RouteTree
