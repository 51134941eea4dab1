/-
**Route tables.**

A route table lists entries of methods, a path template and the name of a handler.  An entry's
methods are one word or a list of words; a word is a method in any letter case, or ANY for all
nine verbs.  A tree is built of a table by registering its entries in order, and either all of
them are registered or the first one that cannot be is reported.

Main definitions:

* `MethodSpec`, `RouteEntry`, `RouteTable` — what a table holds;
* `Method.ofWord` — the method that a word means, in any letter case;
* `MethodSpec.methods` — the methods that an entry asks for;
* `RouteTable.buildTree` — the tree of a table.
-/
import RouteTree.Failure
import RouteTree.Text.Characters
import RouteTree.Tree.Basic

set_option autoImplicit false
set_option relaxedAutoImplicit false

namespace RouteTree

/-! ### Tables -/

/-- The methods of an entry as they are written. -/
inductive MethodSpec where
  | one (name : Text)
  | many (names : List Text)
  deriving DecidableEq, Repr

/-- One line of a table. -/
structure RouteEntry where
  method : MethodSpec
  path : Text
  handler : Text
  deriving DecidableEq, Repr

/-- A list of entries. -/
structure RouteTable where
  entries : List RouteEntry
  deriving DecidableEq, Repr

/-! ### Words for methods -/

/-- The method that a word means; its letters may be in either case. -/
def Method.ofWord (word : Text) : Except Cause Method :=
  match Method.ofText? word.upper with
  | some m => .ok m
  | none => .error (.invalidMethod word)

namespace MethodSpec

/-- The words of an entry. -/
def names : MethodSpec → List Text
  | one name => [name]
  | many names => names

/-- The methods that a word of an entry means: all nine verbs, or one method. -/
def methodsOf (word : Text) : Except Cause (List Method) :=
  if word.sameLetters ['A', 'N', 'Y'] then .ok (Verb.all.map Verb.method)
  else (Method.ofWord word).map ([·])

/-- **The methods that an entry asks for**, in the order of its words. -/
def methods (spec : MethodSpec) : Except Cause (List Method) :=
  (spec.names.mapM methodsOf).map List.flatten

end MethodSpec

/-! ### Building a tree -/

/-- Something that is made step by step, or the failure that stopped it, and the report. -/
structure Built (α : Type) where
  outcome : Except Failure α
  events : List Event

namespace RouteTable

/-- Register one entry. -/
def register (t : Tree Text) (entry : RouteEntry) : Built (Tree Text) :=
  match entry.method.methods with
  | .error cause =>
      ⟨.error ((Failure.plain cause).within (.resolving entry.path entry.handler)), []⟩
  | .ok methods =>
      let r := t.add entry.path entry.handler methods
      match r.outcome with
      | .error e =>
          ⟨.error ((Failure.plain (.route e)).within (.registering entry.path entry.handler)),
            r.events⟩
      | .ok () => ⟨.ok r.tree, r.events⟩

/-- Register some entries one after another, up to the first that fails. -/
def registerAll (t : Tree Text) : List RouteEntry → Built (Tree Text)
  | [] => ⟨.ok t, []⟩
  | entry :: rest =>
      let first := register t entry
      match first.outcome with
      | .error f => ⟨.error f, first.events⟩
      | .ok t =>
          let others := registerAll t rest
          ⟨others.outcome, first.events ++ others.events⟩

/-- **The tree of a table**, in which each handler is its name. -/
def buildTree (table : RouteTable) : Built (Tree Text) :=
  let b := registerAll .empty table.entries
  match b.outcome with
  | .error f => ⟨.error f, b.events⟩
  | .ok t => ⟨.ok t, b.events ++ [.tableLoaded table.entries.length t.size t.maxParams]⟩

end RouteTable

end RouteTree
