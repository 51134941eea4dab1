/-
**Route tables as documents.**

A route table is a mapping with the key `routes`, a sequence of mappings with the keys `method`,
`path` and `handler`.  Other keys are passed over, and each of these is given just once.  A path and
a handler are any scalars as they are written; a method is a scalar that stands for a text, or a
sequence of such.

Aliases may stand anywhere, but only so many of them are followed: an alias inside a node that many
aliases stand for is followed many times.

Main definitions:

* `Yaml.Following` — reading nodes, with a count of the aliases that are followed;
* `Yaml.Document.fields` — the values of the known keys of a mapping;
* `RouteTable.ofDocument?` — the table that a document holds;
* `RouteTable.ofYaml`, `RouteTable.ofFile` — the table of a text, and of a file.
-/
import RouteTree.RouteTable.Basic
import RouteTree.Yaml.Core

set_option autoImplicit false
set_option relaxedAutoImplicit false

namespace RouteTree

namespace Yaml

/-! ### Following aliases -/

/-- A reading of nodes.  The state counts the aliases that have been followed. -/
abbrev Following := StateT Nat Option

namespace Document

/-- The node that is meant, if need be through an alias. -/
def follow (d : Document) (n : Node) : Following Node := do
  if n.isAlias then modify (· + 1)
  return d.resolve n

/-- How many aliases of a document may be followed, a hundred for each part of it. -/
def aliasLimit (d : Document) : Nat := 100 * (d.root.map (·.parts)).getD 1

/-- What is read off a document, unless too many aliases have been followed. -/
def read? {α : Type} (d : Document) (reading : Following α) : Option α := do
  let (a, count) ← reading.run 0
  if count ≤ d.aliasLimit then some a else none

/-! ### Parts of a table -/

/-- A scalar as it is written. -/
def text (d : Document) (n : Node) : Following Text := do
  match ← d.follow n with
  | .scalar _ _ value => return value
  | _ => failure

/-- The values of some keys of a mapping, in the order of the keys.  Each key is given just once,
and every key of the mapping is a scalar. -/
def fields (d : Document) (keys : List Text) (n : Node) : Following (List Node) := do
  match ← d.follow n with
  | .mapping _ pairs =>
      let pairs ← pairs.mapM fun p => return (← d.text p.1, p.2)
      keys.mapM fun key =>
        match pairs.filter (·.1 = key) with
        | [(_, value)] => return value
        | _ => failure
  | _ => failure

/-- The items of a sequence.  Nothing at all is a sequence without items. -/
def items (d : Document) (n : Node) : Following (List Node) := do
  match ← d.follow n with
  | .sequence _ items => return items
  | .scalar _ isPlain value => if isPlain && value = [] then return [] else failure
  | _ => failure

/-- The text of a node that is a scalar and stands for a text. -/
def wordOf? : Node → Option Text
  | .scalar tag isPlain value => scalarText? tag isPlain value
  | _ => none

/-- The methods of an entry: a text, or a sequence of texts. -/
def methodSpec (d : Document) (n : Node) : Following MethodSpec := do
  match ← d.follow n with
  | .sequence tag items =>
      if tag.any (·.isVariant) then failure
      else return .many (← items.mapM fun item => do wordOf? (← d.follow item))
  | n => return .one (← wordOf? n)

/-- An entry of a table. -/
def entry (d : Document) (n : Node) : Following RouteEntry := do
  match ← d.fields (["method", "path", "handler"].map String.toList) n with
  | [method, path, handler] =>
      return ⟨← d.methodSpec method, ← d.text path, ← d.text handler⟩
  | _ => failure

end Document

end Yaml

namespace RouteTable

/-! ### Tables -/

/-- The table that stands at a node of a document. -/
def ofNode (d : Yaml.Document) (n : Yaml.Node) : Yaml.Following RouteTable := do
  match ← d.fields ["routes".toList] n with
  | [routes] => return ⟨← (← d.items routes).mapM d.entry⟩
  | _ => failure

/-- The table that a document holds. -/
def ofDocument? (d : Yaml.Document) : Option RouteTable := do d.read? (ofNode d (← d.root))

/-- **The table that a text holds.** -/
def ofYaml (text : Text) : Except Failure RouteTable :=
  match (Yaml.document? text).bind ofDocument? with
  | some table => .ok table
  | none => .error ((Failure.plain .malformed).within .parsing)

/-- **The table of a file**, given the text in it unless it cannot be read. -/
def ofFile (file : Text) (contents : Option Text) : Except Failure RouteTable :=
  match contents with
  | none => .error ((Failure.plain .unreadable).within (.reading file))
  | some text =>
      match ofYaml text with
      | .ok table => .ok table
      | .error f => .error (f.within (.loading file))

end RouteTable

end RouteTree
