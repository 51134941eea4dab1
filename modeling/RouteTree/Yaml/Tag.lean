/-
**Tags of YAML nodes.**

A tag is written in full between angle brackets, or as a handle and a suffix.  In a tag a percent
sign and two hexadecimal digits stand for a byte.  Such bytes have the form of a character in UTF-8,
but they need not spell one; so a tag is a row of bytes.

Main definitions:

* `Yaml.Tag` — the bytes of a tag;
* `Yaml.unescaped?` — the bytes that the characters of a tag stand for;
* `Yaml.tagHandle?`, `Yaml.tagText?` — a handle, and the rest of a tag;
* `Yaml.tag?` — the handle and the suffix of a tag;
* `Yaml.Tag.isVariant`, `Yaml.Tag.isValue` — tags that make a scalar something else than a text.
-/
import RouteTree.Text.Bytes
import RouteTree.Yaml.Scalar

set_option autoImplicit false
set_option relaxedAutoImplicit false

namespace RouteTree

namespace Yaml

/-- The bytes of a tag. -/
abbrev Tag := List UInt8

/-! ### What tags stand for -/

namespace Tag

/-- The tags of the document's own begin with an exclamation mark. -/
def isOwn (tag : Tag) : Bool := tag.head? = some 0x21

/-- A tag of the document's own is the name of a variant if its bytes spell characters. -/
def isVariant (tag : Tag) : Bool := tag.isOwn && (ByteArray.mk tag.toArray).validateUTF8

/-- The tags for what is not a text. -/
def isValue (tag : Tag) : Bool :=
  (["tag:yaml.org,2002:bool", "tag:yaml.org,2002:int", "tag:yaml.org,2002:float",
    "tag:yaml.org,2002:null"].map fun t => Text.bytes t.toList).contains tag

end Tag

/-! ### Bytes written as digits -/

/-- The byte that a percent sign with two hexadecimal digits stands for. -/
def escapedByte? : Text → Option (UInt8 × Text)
  | '%' :: a :: b :: rest => do
      some (UInt8.ofNat (16 * (← Text.digit? 16 a) + (← Text.digit? 16 b)), rest)
  | _ => none

/-- How many bytes of a character follow the first one. -/
def laterCount? (byte : UInt8) : Option Nat :=
  if byte < 0x80 then some 0
  else if byte < 0xC0 then none
  else if byte < 0xE0 then some 1
  else if byte < 0xF0 then some 2
  else if byte < 0xF8 then some 3
  else none

/-- The bytes of a character that follow the first one. -/
def laterBytes? : (count : Nat) → Text → Option (Tag × Text)
  | 0, t => some ([], t)
  | count + 1, t => do
      let (byte, rest) ← escapedByte? t
      if byte < 0x80 || 0xC0 ≤ byte then none
      let (bytes, rest) ← laterBytes? count rest
      some (byte :: bytes, rest)

/-- **The bytes that the characters of a tag stand for.** -/
def unescaped? : (fuel : Nat) → Text → Option Tag
  | 0, _ => none
  | _ + 1, [] => some []
  | fuel + 1, c :: rest =>
      if c = '%' then do
        let (byte, rest) ← escapedByte? (c :: rest)
        let (later, rest) ← laterBytes? (← laterCount? byte) rest
        (unescaped? fuel rest).map (byte :: later ++ ·)
      else (unescaped? fuel rest).map (String.utf8EncodeChar c ++ ·)

/-! ### Parts of a tag -/

/-- The characters of a tag.  Some marks are only allowed in a tag that stands in full. -/
def isTagChar (isFull : Bool) (c : Char) : Bool :=
  isNameChar c || c ∈ ";/?:@&=+$.%!~*'()".toList || (isFull && c ∈ [',', '[', ']'])

/-- The characters of a tag at the beginning of a text, as many as there are.  What follows a null
byte among them is lost. -/
def tagText? (isFull : Bool) (stream : Text) : Option (Tag × Text) := do
  let written := stream.takeWhile (isTagChar isFull)
  let tag ← unescaped? (written.length + 1) written
  some (tag.takeWhile (· ≠ 0), stream.drop written.length)

/-- The same, where a tag must have a character at least. -/
def someTagText? (isFull : Bool) (stream : Text) : Option (Tag × Text) :=
  if stream.head?.any (isTagChar isFull) then tagText? isFull stream else none

/-- The handle of a tag: a sign, or a name between two signs.  Without the second sign the name
is not a handle yet. -/
def tagHandle? (stream : Text) : Option (Text × Text) :=
  match stream with
  | '!' :: rest =>
      let name := rest.takeWhile isNameChar
      match rest.drop name.length with
      | '!' :: rest => some (['!'] ++ name ++ ['!'], rest)
      | rest => some ('!' :: name, rest)
  | _ => none

/-- The handle and the suffix of a tag. -/
def tag? (stream : Text) : Option (Text × Tag × Text) :=
  match stream with
  | '!' :: '<' :: rest => do
      let (suffix, rest) ← someTagText? true rest
      let rest ← Text.after? ['>'] rest
      some ([], suffix, rest)
  | _ => do
      let (handle, rest) ← tagHandle? stream
      if handle.length > 1 && handle.getLast? = some '!' then
        let (suffix, rest) ← someTagText? false rest
        some (handle, suffix, rest)
      else
        let (suffix, rest) ← tagText? false rest
        let suffix := Text.bytes handle.tail ++ suffix
        if suffix = [] then some ([], Text.bytes ['!'], rest) else some (['!'], suffix, rest)

end Yaml

end RouteTree
