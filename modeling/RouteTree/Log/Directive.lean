/-
**Directives for the log.**

A directive sets the level up to which events are logged, for the targets that begin with a given
text or for all: `debug`, `server`, `server::db=warn`.  It may be bound to a span and to a field,
which stand in brackets behind the target: `server[request{id}]=trace`.

Main definitions:

* `Directive` — a directive, with `Directive.ofText?` for reading one;
* `rankOfWord?` — the level that a word stands for;
* `Directive.applies` — whether a directive is about an event;
* `Directive.isNarrower` — which of two directives decides.
-/
import RouteTree.Event
import RouteTree.Log.Pattern
import RouteTree.Text.Bytes

set_option autoImplicit false
set_option relaxedAutoImplicit false

namespace RouteTree

/-- A field of an event, as a directive asks for it. -/
structure WantedField where
  name : Text
  /-- Whether a certain value is asked for too. -/
  hasValue : Bool
  deriving DecidableEq, Repr

/-- A rule about events.  The rank of a level limits what it lets pass, and zero lets nothing
pass. -/
structure Directive where
  rank : Nat
  /-- The beginning of the targets it applies to. -/
  target : Option Text
  /-- The span it is bound to. -/
  span : Option Text
  /-- The field that it asks for. -/
  field : Option WantedField
  deriving DecidableEq, Repr

/-- The rank of a level given by name in any letter case, or by number.  No text at all stands for
errors. -/
def rankOfWord? (word : Text) : Option Nat :=
  match Text.word64? word with
  | some n => if n ≤ 5 then some n else none
  | none =>
      if word = [] then some 1
      else (["off", "error", "warn", "info", "debug", "trace"].findIdx?
        (Text.sameLetters word ·.toList))

namespace Directive

/-! ### Cutting a directive into its parts -/

/-- What is left to read of a directive.  The marks between its parts are looked for in the text
without the blanks at its ends.  The parts themselves are cut out of the whole text, at as many
bytes from its beginning: behind a blank they are shifted, and the last one keeps the blanks at
the end. -/
structure Unread where
  marked : Text
  /-- How many bytes come before it. -/
  offset : Nat
  whole : Text

namespace Unread

/-- The whole of a directive. -/
def start (t : Text) : Unread := ⟨t.trimmed, 0, t⟩

/-- The next mark or other character. -/
def next? (u : Unread) : Option Char := u.marked.head?

/-- What is left to read from the next of some marks on. -/
def upTo (u : Unread) (marks : List Char) : Unread :=
  let read : Text := u.marked.takeWhile (· ∉ marks)
  ⟨u.marked.drop read.length, u.offset + read.bytes.length, u.whole⟩

/-- What is left to read behind some marks that come next. -/
def after? (u : Unread) (marks : Text) : Option Unread := do
  let marked ← Text.after? marks u.marked
  some ⟨marked, u.offset + marks.bytes.length, u.whole⟩

/-- The last part of the directive. -/
def lastPart? (u : Unread) : Option Text := (Text.cutAtByte? u.offset u.whole).map (·.2)

/-- The part before the place where `next` begins. -/
def partBefore? (u next : Unread) : Option Text := do
  let (part, _) ← Text.cutAtByte? (next.offset - u.offset) (← u.lastPart?)
  some part

end Unread

/-! ### Reading a directive -/

/-- The rank that lets everything pass. -/
def fullRank : Nat := Level.trace.rank

/-- The rank of a level that follows a directive behind an equals sign.  Without a level everything
passes. -/
def rankBehind? (u : Unread) : Option Nat :=
  match u.next? with
  | none => some fullRank
  | some _ => do
      let word ← (← u.after? ['=']).lastPart?
      if word = [] then some fullRank else rankOfWord? word

/-- The field that stands between braces: a name, or a name and a value with an equals sign between
them.  The value ends at a second sign. -/
def field? (t : Text) : Option WantedField :=
  let name : Text := t.takeWhile (· ≠ '=')
  if t = [] then none
  else match t.drop name.length with
    | [] => some ⟨name, false⟩
    | _ :: value => if Pattern.isValue (value.takeWhile (· ≠ '=')) then some ⟨name, true⟩ else none

/-- The span and the field of a directive behind the opening bracket, and its level. -/
def ofSpan? (target : Option Text) (u : Unread) : Option Directive := do
  let behindName := u.upTo [']', '\x7b']
  let name ← u.partBefore? behindName
  if behindName.next? = some ']' then
    some ⟨← rankBehind? (← behindName.after? [']']), target, some name, none⟩
  else
    let inBraces ← behindName.after? ['\x7b']
    let behindField := inBraces.upTo ['\x7d']
    let field ← field? (← inBraces.partBefore? behindField)
    let rank ← rankBehind? (← behindField.after? ['\x7d', ']'])
    some ⟨rank, target, if name = [] then none else some name, some field⟩

/-- A directive without a bracket in front begins with a letter, a numeral or one of three marks. -/
def canBegin (c : Char) : Bool := Text.isAlphanumeric c || c ∈ ['-', ':', '_']

/-- A directive that is just a word: a level for all targets, or a target. -/
def ofWord (t : Text) : Directive :=
  match rankOfWord? t with
  | some rank => ⟨rank, none, none, none⟩
  | none => ⟨fullRank, some t, none, none⟩

/-- **Read a directive**: a level, a target, or a target with a level, and a span in brackets
behind the target or alone. -/
def ofText? (t : Text) : Option Directive := do
  let u := Unread.start t
  let first ← u.next?
  if first = '[' then ofSpan? none (← u.after? ['['])
  else if !canBegin first then none
  else
    let behind := u.upTo ['=', '[']
    match behind.next? with
    | none => some (ofWord t)
    | some '[' => ofSpan? (some (← u.partBefore? behind)) (← behind.after? ['['])
    | some _ => some ⟨← rankBehind? behind, some (← u.partBefore? behind), none, none⟩

/-! ### Directives and events -/

/-- A directive with a span, or with the value of a field, applies to nothing outside of spans. -/
def isBound (d : Directive) : Bool := d.span.isSome || d.field.any (·.hasValue)

/-- Whether a directive applies to an event outside of spans. -/
def applies (d : Directive) (e : Event) : Bool :=
  !d.isBound &&
    d.target.all (fun start => (Text.after? start e.target.toList).isSome) &&
    d.field.all fun f => e.fieldNames.any (·.toList = f.name)

/-- How narrow a directive is, to be compared number by number: whether it names a target, the
length of it, whether it names a field, and the name of that. -/
def narrowness (d : Directive) : List Nat :=
  (match d.target with
    | none => [0, 0]
    | some start => [1, start.length]) ++
  (match d.field with
    | none => [0]
    | some f => 1 :: f.name.map Char.toNat)

/-- Whether a directive is narrower than another. -/
def isNarrower (d e : Directive) : Bool := List.lex e.narrowness d.narrowness fun m n => m < n

/-- Whether two directives are about the same. -/
def sameScope (d e : Directive) : Bool :=
  d.target = e.target && d.span = e.span && d.field = e.field

end Directive

end RouteTree
