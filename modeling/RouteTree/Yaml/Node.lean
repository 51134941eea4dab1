/-
**Nodes of a YAML document.**

A document is a node: a scalar, a sequence, a mapping, or an alias for a node that was given an
anchor before.  An alias holds the number of its anchor.  Anchors are numbered by how many names
are known when they are met, so a name that is given again may share its number with a later one;
a number stands for the latest node that has it.

Main definitions:

* `Yaml.Node`, `Yaml.Document` — nodes, and a document with the nodes that have numbers;
* `Yaml.Node.parts` — how many parts a node is written in;
* `Yaml.Document.resolve` — the node that an alias stands for;
* `Yaml.document?` — the document of a stream that holds at most one.
-/
import RouteTree.Yaml.Token

set_option autoImplicit false
set_option relaxedAutoImplicit false

namespace RouteTree

namespace Yaml

/-- A node of a document.  Tags stand in full. -/
inductive Node where
  | scalar (tag : Option Tag) (isPlain : Bool) (value : Text)
  | sequence (tag : Option Tag) (items : List Node)
  | mapping (tag : Option Tag) (pairs : List (Node × Node))
  | alias (number : Nat)

namespace Node

/-- The node that stands where nothing is written. -/
def nothing : Node := scalar none true []

/-- Whether a node is an alias. -/
def isAlias : Node → Bool
  | .alias _ => true
  | _ => false

mutual

/-- **How many parts a node is written in**: a collection has its beginning and its end besides
what stands in it. -/
def parts : Node → Nat
  | .scalar .. => 1
  | .alias _ => 1
  | .sequence _ items => partsOfItems items + 2
  | .mapping _ pairs => partsOfPairs pairs + 2

/-- The parts of the items of a sequence. -/
def partsOfItems : List Node → Nat
  | [] => 0
  | n :: rest => n.parts + partsOfItems rest

/-- The parts of the pairs of a mapping. -/
def partsOfPairs : List (Node × Node) → Nat
  | [] => 0
  | p :: rest => partsOfPair p + partsOfPairs rest

/-- The parts of a key and its value. -/
def partsOfPair : Node × Node → Nat
  | (key, value) => key.parts + value.parts

end

end Node

/-- A node that was given a number, and how many such nodes were begun before it. -/
structure Numbered where
  number : Nat
  order : Nat
  node : Node

/-- A document: its node, unless it is empty, and the nodes that aliases stand for. -/
structure Document where
  root : Option Node
  numbered : List Numbered

/-- **The node that is meant**, if need be through an alias. -/
def Document.resolve (d : Document) : Node → Node
  | .alias number =>
      let candidates := d.numbered.filter (·.number = number)
      let latest := candidates.foldl (fun best n =>
        match best with
        | none => some n
        | some b => if b.order < n.order then some n else some b) (none : Option Numbered)
      (latest.map (·.node)).getD .nothing
  | n => n

/-! ### Reading nodes -/

/-- What is known while a document is read. -/
structure Progress where
  tokens : List Token
  /-- The number of each name that an anchor has given. -/
  names : List (Text × Nat)
  /-- How many nodes with an anchor have been begun. -/
  begun : Nat
  numbered : List Numbered
  /-- What each handle of a tag stands for. -/
  handles : List (Text × Tag)

/-- A step of reading. -/
abbrev Read := StateT Progress Option

/-- Give up. -/
def refuse {α : Type} : Read α := fun _ => none

/-- The next token. -/
def peek? : Read (Option Token) := do return (← get).tokens.head?

/-- Pass over the next token. -/
def advance : Read Unit := modify fun p => { p with tokens := p.tokens.tail }

/-- Pass over the next token if it is `t`. -/
def accept (t : Token) : Read Bool := do
  if (← peek?) = some t then
    advance
    return true
  return false

/-- The full form of a tag. -/
def fullTag (handle : Text) (suffix : Tag) : Read Tag := do
  if handle = [] then return suffix
  match (← get).handles.lookup handle with
  | some start => return start ++ suffix
  | none => refuse

/-- Give a name to the node that begins here: the answer is its number and its order. -/
def bindName (name : Text) : Read (Nat × Nat) := do
  let p ← get
  let number := p.names.length
  set { p with
    names := (name, number) :: p.names.filter (·.1 ≠ name), begun := p.begun + 1 }
  return (number, p.begun)

/-- The properties in front of a node: the name of its anchor and its tag, in either order. -/
def properties : Read (Option Text × Option Tag) := do
  match ← peek? with
  | some (.anchor name) =>
      advance
      match ← peek? with
      | some (.tag handle suffix) =>
          advance
          return (some name, some (← fullTag handle suffix))
      | _ => return (some name, none)
  | some (.tag handle suffix) =>
      advance
      match ← peek? with
      | some (.anchor name) =>
          advance
          return (some name, some (← fullTag handle suffix))
      | _ => return (none, some (← fullTag handle suffix))
  | _ => return (none, none)

/-- Whether the next token is one of some tokens. -/
def isNext (ts : List Token) : Read Bool := do
  match ← peek? with
  | some t => return ts.contains t
  | none => return false

mutual

/-- **Read a node.**  Block collections are allowed if `inBlock`; if `inMapping`, a block sequence
may stand at the indentation of the mapping around it. -/
def node (inBlock inMapping : Bool) : (fuel : Nat) → Read Node
  | 0 => refuse
  | fuel + 1 => do
      if let some (.alias name) ← peek? then
        advance
        match (← get).names.lookup name with
        | some number => return .alias number
        | none => refuse
      else
        let (name, tag) ← properties
        let binding ← name.mapM bindName
        let n ← content inBlock inMapping tag (name.isSome || tag.isSome) fuel
        if let some (number, order) := binding then
          modify fun p => { p with numbered := ⟨number, order, n⟩ :: p.numbered }
        return n

/-- Read a node behind its properties, which can stand alone. -/
def content (inBlock inMapping : Bool) (tag : Option Tag) (hasProperties : Bool) :
    (fuel : Nat) → Read Node
  | 0 => refuse
  | fuel + 1 => do
      match ← peek? with
      | some (.scalar isPlain value) =>
          advance
          return .scalar tag isPlain value
      | some .flowSequenceStart =>
          advance
          return .sequence tag (← flowItems true fuel)
      | some .flowMappingStart =>
          advance
          return .mapping tag (← flowPairs true fuel)
      | some .blockEntry =>
          if inMapping then return .sequence tag (← alignedItems fuel)
          else if hasProperties then return .scalar tag true []
          else refuse
      | some .blockSequenceStart =>
          if inBlock then
            advance
            return .sequence tag (← blockItems fuel)
          else if hasProperties then return .scalar tag true []
          else refuse
      | some .blockMappingStart =>
          if inBlock then
            advance
            return .mapping tag (← blockPairs fuel)
          else if hasProperties then return .scalar tag true []
          else refuse
      | _ => if hasProperties then return .scalar tag true [] else refuse

/-- Read the items of a block sequence up to its end. -/
def blockItems : (fuel : Nat) → Read (List Node)
  | 0 => refuse
  | fuel + 1 => do
      if ← accept .blockEntry then
        let item ←
          if ← isNext [.blockEntry, .blockEnd] then pure .nothing else node true false fuel
        return item :: (← blockItems fuel)
      else if ← accept .blockEnd then return []
      else refuse

/-- Read the items of a block sequence that is not indented further than its mapping. -/
def alignedItems : (fuel : Nat) → Read (List Node)
  | 0 => refuse
  | fuel + 1 => do
      if ← accept .blockEntry then
        let item ←
          if ← isNext [.blockEntry, .key, .value, .blockEnd] then pure .nothing
          else node true false fuel
        return item :: (← alignedItems fuel)
      else return []

/-- Read the pairs of a block mapping up to its end. -/
def blockPairs : (fuel : Nat) → Read (List (Node × Node))
  | 0 => refuse
  | fuel + 1 => do
      if ← accept .blockEnd then return []
      else if ← accept .key then
        let key ←
          if ← isNext [.key, .value, .blockEnd] then pure .nothing else node true true fuel
        let value ← blockValue fuel
        return (key, value) :: (← blockPairs fuel)
      else refuse

/-- Read the value of a pair of a block mapping, which may be missing. -/
def blockValue : (fuel : Nat) → Read Node
  | 0 => refuse
  | fuel + 1 => do
      if ← accept .value then
        if ← isNext [.key, .value, .blockEnd] then return .nothing else node true true fuel
      else return .nothing

/-- Read the items of a flow sequence up to its end.  An item may be a single pair. -/
def flowItems (isFirst : Bool) : (fuel : Nat) → Read (List Node)
  | 0 => refuse
  | fuel + 1 => do
      if ← accept .flowSequenceEnd then return []
      else
        if !isFirst then
          if !(← accept .flowEntry) then refuse
        if ← accept .flowSequenceEnd then return []
        else if ← accept .key then
          let pair ← singlePair fuel
          return .mapping none [pair] :: (← flowItems false fuel)
        else
          let item ← node false false fuel
          return item :: (← flowItems false fuel)

/-- Read a single pair in a flow sequence.  A missing key takes the next token with it. -/
def singlePair : (fuel : Nat) → Read (Node × Node)
  | 0 => refuse
  | fuel + 1 => do
      let key ←
        if ← isNext [.value, .flowEntry, .flowSequenceEnd] then
          advance
          pure .nothing
        else node false false fuel
      if ← accept .value then
        if ← isNext [.flowEntry, .flowSequenceEnd] then return (key, .nothing)
        else return (key, ← node false false fuel)
      else return (key, .nothing)

/-- Read the pairs of a flow mapping up to its end. -/
def flowPairs (isFirst : Bool) : (fuel : Nat) → Read (List (Node × Node))
  | 0 => refuse
  | fuel + 1 => do
      if ← accept .flowMappingEnd then return []
      else
        if !isFirst then
          if !(← accept .flowEntry) then refuse
        if ← accept .flowMappingEnd then return []
        else if ← accept .key then
          let key ←
            if ← isNext [.value, .flowEntry, .flowMappingEnd] then pure .nothing
            else node false false fuel
          let value ←
            if ← accept .value then
              if ← isNext [.flowEntry, .flowMappingEnd] then pure .nothing
              else node false false fuel
            else pure .nothing
          return (key, value) :: (← flowPairs false fuel)
        else
          let key ← node false false fuel
          return (key, .nothing) :: (← flowPairs false fuel)

end

/-! ### Reading a document -/

/-- What the handles of tags stand for where no directive says otherwise. -/
def standardHandles : List (Text × Tag) :=
  [("!".toList, Text.bytes "!".toList), ("!!".toList, Text.bytes "tag:yaml.org,2002:".toList)]

/-- Read the directives in front of a document: a version once, and each handle once. -/
def directives (versionSeen : Bool) (handles : List (Text × Tag)) :
    List Token → Option (List (Text × Tag) × List Token)
  | .version major minor :: rest =>
      if versionSeen || major ≠ 1 || !(minor = 1 || minor = 2) then none
      else directives true handles rest
  | .tagDirective handle start :: rest =>
      if (handles.lookup handle).isSome then none
      else directives versionSeen (handles ++ [(handle, start)]) rest
  | rest => some (handles, rest)

/-- Read the node of a document whose beginning is marked. -/
def markedContent (fuel : Nat) : Read Node := do
  match ← peek? with
  | none => return .nothing
  | some .documentStart => return .nothing
  | some .documentEnd => return .nothing
  | some (.version ..) => return .nothing
  | some (.tagDirective ..) => return .nothing
  | some _ => node true false fuel

/-- Run a step of reading on some tokens, behind which only marks of the end may follow. -/
def runDocument (read : Read Node) (handles : List (Text × Tag)) (tokens : List Token) :
    Option Document := do
  let (root, p) ← read.run ⟨tokens, [], 0, [], handles ++ standardHandles⟩
  if p.tokens.all (· = .documentEnd) then some ⟨some root, p.numbered⟩ else none

/-- How many steps deep the reading of some tokens can be. -/
def depthLimit (tokens : List Token) : Nat := 4 * tokens.length + 4

/-- The document of some tokens.  A second document is an error. -/
def ofTokens? (tokens : List Token) : Option Document := do
  match tokens with
  | [] => some ⟨none, []⟩
  | first :: _ =>
      let (handles, rest) ← directives false [] tokens
      match rest with
      | .documentStart :: rest =>
          runDocument (markedContent (depthLimit rest)) handles rest
      | _ =>
          match first with
          | .version .. => none
          | .tagDirective .. => none
          | _ => runDocument (node true false (depthLimit tokens)) [] tokens

/-- **The document of a stream.** -/
def document? (stream : Text) : Option Document := do ofTokens? (← tokens? stream)

end Yaml

end RouteTree
