/-
**Tokens of a YAML stream.**

Most tokens stand in the stream as they are.  The beginnings and ends of block collections do not:
they are read off the indentation.  Nor does the sign of a simple key, one that stands before its
colon on one line: it is put in front of the key once the colon is met.

Main definitions:

* `Yaml.Token` — the tokens;
* `Yaml.Reader` — the state of reading;
* `Yaml.tokens?` — the tokens of a stream.
-/
import RouteTree.Yaml.Tag

set_option autoImplicit false
set_option relaxedAutoImplicit false

namespace RouteTree

namespace Yaml

/-- A token of a stream. -/
inductive Token where
  | version (major minor : Nat)
  | tagDirective (handle : Text) (start : Tag)
  | documentStart
  | documentEnd
  | blockSequenceStart
  | blockMappingStart
  | blockEnd
  | flowSequenceStart
  | flowSequenceEnd
  | flowMappingStart
  | flowMappingEnd
  | blockEntry
  | flowEntry
  | key
  | value
  | alias (name : Text)
  | anchor (name : Text)
  | tag (handle : Text) (suffix : Tag)
  | scalar (isPlain : Bool) (value : Text)
  deriving DecidableEq, Repr

/-! ### The state of reading -/

/-- A token that may turn out to be a key. -/
structure SimpleKey where
  /-- The token stands where nothing but a key can stand. -/
  isRequired : Bool
  /-- How many tokens come before it. -/
  position : Nat
  place : Cursor

/-- The state of reading tokens. -/
structure Reader where
  cursor : Cursor
  /-- The tokens read so far. -/
  tokens : Array Token
  /-- The column of the innermost block collection, or -1. -/
  indent : Int
  /-- The columns of the block collections around it. -/
  outerIndents : List Int
  /-- Whether a simple key may begin here. -/
  keyAllowed : Bool
  /-- The key that is waiting for its colon, if there is one. -/
  waiting : Option SimpleKey
  /-- The same for each flow collection around, and for the block around these. -/
  outerWaiting : List (Option SimpleKey)

namespace Reader

/-- The state before a stream. -/
def start (stream : Text) : Reader := ⟨.start stream, #[], -1, [], true, none, []⟩

/-- Whether a flow collection is open. -/
def inFlow (r : Reader) : Bool := !r.outerWaiting.isEmpty

/-- How many tokens have been read. -/
def count (r : Reader) : Nat := r.tokens.size

/-- The indentation that a block inside the current one must have. -/
def innerIndent (r : Reader) : Nat := (r.indent + 1).toNat

/-- Add a token. -/
def push (r : Reader) (t : Token) : Reader := { r with tokens := r.tokens.push t }

/-- Add a token behind the first `position` ones. -/
def pushAt (r : Reader) (position : Nat) (t : Token) : Reader :=
  if h : position ≤ r.tokens.size then { r with tokens := r.tokens.insertIdx position t h }
  else r.push t

/-- Move on to a later part of the stream. -/
def moveTo (r : Reader) (rest : Text) : Reader := { r with cursor := r.cursor.moveTo rest }

/-- Move on by some characters. -/
def skip (r : Reader) (n : Nat) : Reader := { r with cursor := r.cursor.skip n }

/-! ### Indentation -/

/-- Close the block collections that are indented further than a column. -/
def closeBlocks (column : Int) : (outer : List Int) → Reader → Reader
  | [], r => if r.indent > column then { r.push .blockEnd with indent := -1 } else r
  | i :: outer, r =>
      if r.indent > column then
        closeBlocks column outer { r.push .blockEnd with indent := i, outerIndents := outer }
      else r

/-- Close the block collections that end before a column.  Flow collections have no indentation. -/
def unroll (r : Reader) (column : Int) : Reader :=
  if r.inFlow then r else closeBlocks column r.outerIndents r

/-- Open a block collection at a column, behind the first `position` tokens, unless one is open
there already. -/
def roll (r : Reader) (column : Int) (position : Nat) (t : Token) : Reader :=
  if r.inFlow || column ≤ r.indent then r
  else { r.pushAt position t with indent := column, outerIndents := r.indent :: r.outerIndents }

/-! ### Simple keys -/

/-- Give up waiting for a colon; a key that is required has to be one. -/
def dropKey (r : Reader) : Option Reader :=
  if r.waiting.any (·.isRequired) then none else some { r with waiting := none }

/-- Note that the next token may be a key. -/
def saveKey (r : Reader) : Option Reader :=
  if r.keyAllowed then do
    let isRequired := !r.inFlow && r.indent = r.cursor.column
    let r ← r.dropKey
    some { r with waiting := some ⟨isRequired, r.count, r.cursor⟩ }
  else some r

/-- How many bytes there may be from the beginning of a simple key to its colon. -/
def keyLimit : Nat := 1024

/-- Give up waiting for a colon once the line of the key has ended, or the key is too long. -/
def dropStaleKey (r : Reader) : Option Reader :=
  match r.waiting with
  | none => some r
  | some k =>
      if k.place.line < r.cursor.line || k.place.index + keyLimit < r.cursor.index then r.dropKey
      else some r

/-! ### Between tokens -/

/-- Skip blanks, comments and line breaks before a token.  A tab counts as a blank only where no
simple key may begin.  A byte order mark may begin a line, and takes up its first column. -/
def skipGap : (fuel : Nat) → Reader → Reader
  | 0, r => r
  | fuel + 1, r =>
      let r := if r.cursor.column = 0 && r.cursor.next? = some byteOrderMark then r.skip 1 else r
      let isSkipped := fun c => c = ' ' || ((r.inFlow || !r.keyAllowed) && c = '\t')
      let rest := r.cursor.rest.dropWhile isSkipped
      let rest := if rest.head? = some '#' then rest.dropWhile (!isBreak ·) else rest
      match takeBreak? rest with
      | some (_, rest) =>
          let r := r.moveTo rest
          skipGap fuel { r with keyAllowed := r.keyAllowed || !r.inFlow }
      | none => r.moveTo rest

/-! ### Directives -/

/-- A number of a version. -/
def versionNumber? (stream : Text) : Option (Nat × Text) := do
  let digits := stream.takeWhile Char.isDigit
  if digits.length > 9 then none
  let n ← Text.digits? 10 digits
  some (n, stream.drop digits.length)

/-- What follows the name of a directive. -/
def directive? (name rest : Text) : Option (Token × Text) :=
  if name = "YAML".toList then do
    let (major, rest) ← versionNumber? (rest.dropWhile isBlank)
    let rest ← Text.after? ['.'] rest
    let (minor, rest) ← versionNumber? rest
    some (.version major minor, rest)
  else if name = "TAG".toList then do
    let (handle, rest) ← tagHandle? (rest.dropWhile isBlank)
    if handle ≠ ['!'] && (handle.length < 2 || handle.getLast? ≠ some '!') then none
    if !rest.head?.any isBlank then none
    let (start, rest) ← someTagText? true (rest.dropWhile isBlank)
    if !isGapOrEnd rest.head? then none
    some (.tagDirective handle start, rest)
  else none

/-- Read a directive, a whole line. -/
def readDirective? (r : Reader) : Option Reader := do
  let r ← (r.unroll (-1)).dropKey
  let stream := r.cursor.rest.tail
  let name := stream.takeWhile isNameChar
  let rest := stream.drop name.length
  if name = [] || !isGapOrEnd rest.head? then none
  let (t, rest) ← directive? name rest
  let rest ← restOfLine? rest
  some { (r.push t).moveTo rest with keyAllowed := false }

/-! ### Marks -/

/-- Read a mark between documents. -/
def readDocumentMark? (r : Reader) (t : Token) : Option Reader := do
  let r ← (r.unroll (-1)).dropKey
  some { (r.push t).skip 3 with keyAllowed := false }

/-- Read the beginning of a flow collection, which may be a key as a whole. -/
def readFlowStart? (r : Reader) (t : Token) : Option Reader := do
  let r ← r.saveKey
  some { (r.push t).skip 1 with
    waiting := none, outerWaiting := r.waiting :: r.outerWaiting, keyAllowed := true }

/-- Read the end of a flow collection. -/
def readFlowEnd? (r : Reader) (t : Token) : Option Reader := do
  let r ← r.dropKey
  some { (r.push t).skip 1 with
    waiting := r.outerWaiting.head?.join, outerWaiting := r.outerWaiting.tail, keyAllowed := false }

/-- Read the comma of a flow collection. -/
def readFlowEntry? (r : Reader) : Option Reader := do
  let r ← r.dropKey
  some { (r.push .flowEntry).skip 1 with keyAllowed := true }

/-- Read the hyphen of a block sequence. -/
def readBlockEntry? (r : Reader) : Option Reader := do
  if !r.inFlow && !r.keyAllowed then none
  let r ← (r.roll r.cursor.column r.count .blockSequenceStart).dropKey
  some { (r.push .blockEntry).skip 1 with keyAllowed := true }

/-- Read the question mark of a key that is not a simple one. -/
def readKey? (r : Reader) : Option Reader := do
  if !r.inFlow && !r.keyAllowed then none
  let r ← (r.roll r.cursor.column r.count .blockMappingStart).dropKey
  some { (r.push .key).skip 1 with keyAllowed := !r.inFlow }

/-- Read the colon of a value.  If a simple key waits for it, its sign is put in front of it. -/
def readValue? (r : Reader) : Option Reader := do
  let r ← r.dropStaleKey
  match r.waiting with
  | some k =>
      let r := (r.pushAt k.position .key).roll k.place.column k.position .blockMappingStart
      some { (r.push .value).skip 1 with waiting := none, keyAllowed := false }
  | none =>
      if !r.inFlow && !r.keyAllowed then none
      let r := r.roll r.cursor.column r.count .blockMappingStart
      some { (r.push .value).skip 1 with keyAllowed := !r.inFlow }

/-! ### Properties and scalars -/

/-- Read the name of an anchor or an alias, which a gap or some mark must follow. -/
def readName? (r : Reader) (t : Text → Token) : Option Reader := do
  let r ← r.saveKey
  let stream := r.cursor.rest.tail
  let name := stream.takeWhile isNameChar
  let rest := stream.drop name.length
  let ends := isGapOrEnd rest.head? ||
    rest.head?.any (· ∈ ['?', ':', ',', ']', '\x7d', '%', '@', '\x60'])
  if name = [] || !ends then none
  some { (r.push (t name)).moveTo rest with keyAllowed := false }

/-- Read a tag, which a gap must follow, or a comma inside a flow collection. -/
def readTag? (r : Reader) : Option Reader := do
  let r ← r.saveKey
  let (handle, suffix, rest) ← tag? r.cursor.rest
  if !isGapOrEnd rest.head? && !(r.inFlow && rest.head? = some ',') then none
  some { (r.push (.tag handle suffix)).moveTo rest with keyAllowed := false }

/-- Read a block scalar. -/
def readBlockScalar? (r : Reader) (folded : Bool) : Option Reader := do
  let r ← r.dropKey
  let (value, rest) ← block? folded r.innerIndent r.cursor.rest.tail
  some { (r.push (.scalar false value)).moveTo rest with keyAllowed := true }

/-- Read a quoted scalar. -/
def readQuoted? (r : Reader) (isDouble : Bool) : Option Reader := do
  let r ← r.saveKey
  let stream := r.cursor.rest.tail
  let fuel := stream.length + 1
  let (value, rest) ←
    if isDouble then doubleQuoted? fuel [] stream else singleQuoted? fuel [] stream
  some { (r.push (.scalar false value)).moveTo rest with keyAllowed := false }

/-- Read a plain scalar.  A line break behind it lets a simple key begin. -/
def readPlain? (r : Reader) : Option Reader := do
  let r ← r.saveKey
  let stream := r.cursor.rest
  let (p, rest) ← plain? r.inFlow r.innerIndent (stream.length + 1) [] .none stream
  some { (r.push (.scalar true p.value)).moveTo rest with keyAllowed := p.breaksLine }

/-! ### One token after another -/

/-- The marks that a plain scalar cannot begin with. -/
def isIndicator (c : Char) : Bool :=
  c ∈ ['-', '?', ':', ',', '[', ']', '\x7b', '\x7d', '#', '&', '*', '!', '|', '>', '\'', '"', '%',
    '@', '\x60']

/-- Whether a plain scalar begins here.  Three marks may begin one before certain characters. -/
def beginsPlain (inFlow : Bool) (c : Char) (next : Option Char) : Bool :=
  !(isBlank c || isBreak c || isIndicator c) ||
    (c = '-' && !next.any isBlank) ||
    (!inFlow && (c = '?' || c = ':') && !isGapOrEnd next)

/-- Read the token that begins with the character `c`. -/
def readToken? (r : Reader) (c : Char) : Option Reader :=
  let next := r.cursor.second?
  let isApart := isGapOrEnd next
  if r.cursor.column = 0 && c = '%' then r.readDirective?
  else if r.cursor.column = 0 && beginsWithMark r.cursor.rest then
    r.readDocumentMark? (if c = '-' then .documentStart else .documentEnd)
  else if c = '[' then r.readFlowStart? .flowSequenceStart
  else if c = '\x7b' then r.readFlowStart? .flowMappingStart
  else if c = ']' then r.readFlowEnd? .flowSequenceEnd
  else if c = '\x7d' then r.readFlowEnd? .flowMappingEnd
  else if c = ',' then r.readFlowEntry?
  else if c = '-' && isApart then r.readBlockEntry?
  else if c = '?' && (r.inFlow || isApart) then r.readKey?
  else if c = ':' && (r.inFlow || isApart) then r.readValue?
  else if c = '*' then r.readName? .alias
  else if c = '&' then r.readName? .anchor
  else if c = '!' then r.readTag?
  else if c = '|' && !r.inFlow then r.readBlockScalar? false
  else if c = '>' && !r.inFlow then r.readBlockScalar? true
  else if c = '\'' then r.readQuoted? false
  else if c = '"' then r.readQuoted? true
  else if beginsPlain r.inFlow c next then r.readPlain?
  else none

/-- Close what is open at the end of a stream. -/
def finish? (r : Reader) : Option (List Token) := do
  let r ← (r.unroll (-1)).dropKey
  some r.tokens.toList

/-- Read tokens up to the end of the stream. -/
def readAll? : (fuel : Nat) → Reader → Option (List Token)
  | 0, _ => none
  | fuel + 1, r => do
      let r ← (r.skipGap (fuel + 1)).dropStaleKey
      let r := r.unroll r.cursor.column
      match r.cursor.next? with
      | none => r.finish?
      | some c => readAll? fuel (← r.readToken? c)

end Reader

/-- **The tokens of a stream.** -/
def tokens? (stream : Text) : Option (List Token) :=
  if stream.all isAllowed then Reader.readAll? (stream.length + 1) (.start stream) else none

end Yaml

end RouteTree
