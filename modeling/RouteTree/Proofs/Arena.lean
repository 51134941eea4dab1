/-
**Route trees in an arena.**

The nodes of a tree can be kept in one row of cells that refer to each other by their places in the
row.  The root has place `0`, a new cell is put at the end, and none is ever removed or moved.
Splitting a cell puts the tail of its text, its children and its routes into a cell at the end and
leaves the head where it was, so a place goes on meaning the same beginning of templates.  Each
cell keeps the place of its parent beside the places of its children.

This module keeps such a row through the calls that fill a tree, and reports on what is done to
it.  A place that is not in the row cannot be looked up: then the operation as a whole gives `none`.

Main definitions:

* `Insertion.onward` — going on where an attempt has come to;
* `Cell`, `Arena` — a cell with its links, and a row of cells;
* `Arena.sprout`, `Arena.split`, `Arena.register` — the three changes;
* `Arena.follow`, `Arena.bring` — following the segments of a template;
* `Store` — an arena with the counts of a tree, and `Store.run` — a history of calls.

Main results:

* `Arena.exists_sprout`, `Arena.exists_split` — what the row holds after a change;
* `Arena.follow_literalThen`, `Arena.follow_placed` — the way of one segment.
-/
import RouteTree.Proofs.Growth
import RouteTree.Tree.Basic

set_option autoImplicit false
set_option relaxedAutoImplicit false

namespace RouteTree

/-! ### Attempts, one after another -/

namespace Insertion

variable {β α α' : Type}

/-- An attempt with other events in front of its own. -/
def after (i : Insertion β α) (earlier : List Event) : Insertion β α :=
  { i with events := earlier ++ i.events }

/-- **Go on where an attempt has come to**, unless it was barred. -/
def onward (i : Insertion β α) (next : β → α → Option (Insertion β α')) :
    Option (Insertion β α') :=
  match i.outcome with
  | .error e => some ⟨i.result, .error e, i.events⟩
  | .ok answer => (next i.result answer).map (·.after i.events)

@[simp] theorem after_nil (i : Insertion β α) : i.after [] = i := rfl

theorem map_after_nil (i : Option (Insertion β α)) : i.map (·.after []) = i := by
  cases i <;> rfl

/-- Where an attempt has arrived without events, what follows is all there is. -/
@[simp] theorem onward_arrived (visited : β × α) (next : β → α → Option (Insertion β α')) :
    (arrived visited).onward next = next visited.1 visited.2 := map_after_nil _

/-- Earlier events stay in front of what follows. -/
theorem onward_after (i : Insertion β α) (earlier : List Event)
    (next : β → α → Option (Insertion β α')) :
    (i.after earlier).onward next = (i.onward next).map (·.after earlier) := by
  obtain ⟨result, outcome, events⟩ := i
  cases outcome with
  | error e => rfl
  | ok answer =>
      simp only [onward, after, Option.map_map]
      congr 1
      funext j
      simp

end Insertion

/-! ### Cells -/

/-- The kinds of segments. -/
inductive Segment.Kind where
  | literal
  | param
  | wildcard
  deriving DecidableEq, Repr

namespace Segment

/-- The kind of a segment. -/
def kind : Segment → Kind
  | literal _ => .literal
  | param _ => .param
  | wildcard _ => .wildcard

/-- The segment of a kind with a text. -/
def Kind.segment : Kind → Text → Segment
  | .literal => .literal
  | .param => .param
  | .wildcard => .wildcard

@[simp] theorem Kind.segment_kind (k : Kind) (t : Text) : (k.segment t).kind = k := by
  cases k <;> rfl

@[simp] theorem Kind.segment_text (k : Kind) (t : Text) : (k.segment t).text = t := by
  cases k <;> rfl

end Segment

/-- A node of a route tree with its links to others, which are places in an arena. -/
structure Cell (H : Type) where
  /-- The kind of the segment that leads here. -/
  kind : Segment.Kind
  /-- The piece of template that this cell adds to its parent's path. -/
  text : Text
  /-- The beginning of templates that this cell stands for. -/
  path : Text
  /-- The names of the placeholders in `path`, in order. -/
  params : List Text
  /-- The parent; the root has none. -/
  parent : Option Nat
  /-- The children that continue with a literal run, oldest first. -/
  literals : List Nat
  /-- The child that continues with a `:name` placeholder. -/
  param : Option Nat
  /-- The child that continues with a `*name` placeholder. -/
  wildcard : Option Nat
  /-- The routes whose template is `path`. -/
  routes : Slots H

namespace Cell

variable {H : Type}

/-- The root of an empty tree. -/
def root : Cell H := ⟨.literal, [], [], [], none, [], none, none, fun _ => none⟩

/-- A fresh child, for a segment, of the cell `c` at place `parent`. -/
def fresh (c : Cell H) (parent : Nat) (s : Segment) : Cell H :=
  ⟨s.kind, s.text, c.path ++ s.text, c.params ++ s.name?.toList, some parent, [], none, none,
    fun _ => none⟩

/-- The segment that leads to a cell. -/
def segment (c : Cell H) : Segment := c.kind.segment c.text

/-- The places of the children: the literal ones, then the parameter, then the wildcard. -/
def children (c : Cell H) : List Nat := c.literals ++ c.param.toList ++ c.wildcard.toList

/-- The child in the place of a placeholder.  A literal run has no place of its own. -/
def place? (c : Cell H) : Segment → Option Nat
  | .literal _ => none
  | .param _ => c.param
  | .wildcard _ => c.wildcard

/-- What has a place of its own is no literal run. -/
theorem kind_ne_of_place {c : Cell H} {s : Segment} {j : Nat} (h : c.place? s = some j) :
    s.kind ≠ .literal := by
  cases s with
  | literal run => cases h
  | param name => simp [Segment.kind]
  | wildcard name => simp [Segment.kind]

/-- The cell with one more child, in the place that belongs to a segment. -/
def adopt (c : Cell H) (s : Segment) (id : Nat) : Cell H :=
  match s with
  | .literal _ => { c with literals := c.literals ++ [id] }
  | .param _ => { c with param := some id }
  | .wildcard _ => { c with wildcard := some id }

/-- What a split leaves at the place of a cell: the first `k` characters, without children and
routes. -/
def head (c : Cell H) (k : Nat) : Cell H :=
  { c with
    text := c.text.take k
    literals := []
    param := none
    wildcard := none
    routes := fun _ => none }

/-- What a split puts at the end of the row, as a child of `parent`.  Its path is still to be
made. -/
def tail (c : Cell H) (parent k : Nat) : Cell H :=
  { c with
    kind := .literal
    text := c.text.drop k
    path := []
    parent := some parent }

/-- The first of some verbs that a cell has a route for. -/
def occupied? (c : Cell H) (verbs : List Verb) : Option Occupied :=
  verbs.findSome? fun v => (c.routes v).map fun r => ⟨v, r.template⟩

end Cell

/-! ### Rows of cells -/

/-- A row of cells. -/
abbrev Arena (H : Type) := List (Cell H)

namespace Arena

variable {H : Type}

/-- Change the cell at a place. -/
def amend (a : Arena H) (id : Nat) (f : Cell H → Cell H) : Option (Arena H) :=
  if id < a.length then some (a.modify id f) else none

/-- Put a fresh cell at the end, as a child of `parent` for a segment.  The answer names its
place. -/
def sprout (a : Arena H) (parent : Nat) (s : Segment) : Option (Arena H × Nat) := do
  let c ← a[parent]?
  let a' ← amend (a ++ [c.fresh parent s]) parent (·.adopt s a.length)
  some (a', a.length)

/-- Make `parent` the parent of some cells. -/
def repoint (parent : Nat) : Arena H → List Nat → Option (Arena H)
  | a, [] => some a
  | a, id :: ids => do
      let a ← a.amend id ({ · with parent := some parent })
      repoint parent a ids

/-- Make the path of a cell anew, from its text and the path of its parent. -/
def refreshPath (a : Arena H) (id : Nat) : Option (Arena H) := do
  let c ← a[id]?
  let start ← match c.parent with
    | none => some []
    | some parent => a[parent]?.map Cell.path
  a.amend id ({ · with path := start ++ c.text })

/-- **Cut the text of a cell after `k` characters.**  The tail goes to the end of the row and takes
the children and the routes with it.  The split is reported with the path that the cell had. -/
def split (a : Arena H) (id k : Nat) : Option (Arena H × Event) := do
  let c ← a[id]?
  let tail := c.tail id k
  let end_ := a.length
  let a ← amend (a ++ [tail]) id (·.head k)
  let a ← repoint end_ a tail.children
  let a ← a.amend id fun c => { c with literals := c.literals ++ [end_] }
  let a ← a.refreshPath id
  let a ← a.refreshPath end_
  some (a, .nodeSplit c.path (c.text.take k) (c.text.drop k))

/-- Give a cell a route for each of some verbs, unless one of them is taken.  The answer is the
number of parameters of the new routes. -/
def register (template : Text) (handler : H) (verbs : List Verb) (a : Arena H) (id : Nat) :
    Option (Arena H × Except Occupied Nat) := do
  let c ← a[id]?
  match c.occupied? verbs with
  | some o => some (a, .error o)
  | none =>
      let routes : Slots H := fun v =>
        if v ∈ verbs then some ⟨template, c.params, handler⟩ else c.routes v
      let a ← a.amend id ({ · with routes })
      some (a, .ok c.params.length)

/-! ### Following a template -/

/-- The first of some cells whose text begins with a character. -/
def opening? (a : Arena H) (first : Char) : List Nat → Option (Option Nat)
  | [] => some none
  | id :: ids => do
      let c ← a[id]?
      if c.text.head? = some first then some (some id) else opening? a first ids

/-- **Follow a literal run below a cell**, and make what is missing.  The child that the run goes on
at agrees with it in the first character, and is split where it leaves the run. -/
def followRun (a : Arena H) (id : Nat) : Text → Option (Insertion (Arena H) Nat)
  | [] => some (.arrived (a, id))
  | first :: more => do
      let c ← a[id]?
      match ← a.opening? first c.literals with
      | none => (a.sprout id (.literal (first :: more))).map .arrived
      | some child => do
          let d ← a[child]?
          let f := Text.fork d.text.tail more
          if f.left = [] then followRun a child f.right
          else do
            let (a, report) ← a.split child (f.shared.length + 1)
            (followRun a child f.right).map (·.after [report])
termination_by run => run.length
decreasing_by
  all_goals
    have h := congrArg List.length (Text.fork_right d.text.tail more)
    simp only [List.length_append] at h
    simp only [List.length_cons]
    omega

/-- Follow a placeholder through the place that a cell has for it, or fill the place. -/
def followPlaced (template : Text) (a : Arena H) (id : Nat) (s : Segment) :
    Option (Insertion (Arena H) Nat) := do
  let c ← a[id]?
  match c.place? s with
  | none => (a.sprout id s).map .arrived
  | some child => do
      let d ← a[child]?
      if d.text = s.text then some (.arrived (a, child))
      else some ⟨a, .error (.routeConflict d.path template), []⟩

/-- Follow one segment below a cell. -/
def followSegment (template : Text) (a : Arena H) (id : Nat) :
    Segment → Option (Insertion (Arena H) Nat)
  | .literal run => a.followRun id run
  | .param name => a.followPlaced template id (.param name)
  | .wildcard name => a.followPlaced template id (.wildcard name)

/-- **Follow some segments below a cell**, to the place where they lead.  The cells that were made
before a conflict stay. -/
def follow (template : Text) :
    Arena H → Nat → List Segment → Option (Insertion (Arena H) Nat)
  | a, id, [] => some (.arrived (a, id))
  | a, id, s :: rest => do
      let i ← a.followSegment template id s
      i.onward fun a child => follow template a child rest

/-- **Bring a template into an arena**: follow its segments from the root.  The answer is the place
where they lead. -/
def bring (a : Arena H) (template : Text) : Option (Insertion (Arena H) Nat) :=
  match Template.segments template with
  | .error e => some ⟨a, .error e, []⟩
  | .ok segs => a.follow template 0 segs

end Arena

/-! ### Stores -/

/-- An arena with the counts of a tree. -/
structure Store (H : Type) where
  cells : Arena H
  /-- The number of pairs of a verb and a template that are registered. -/
  size : Nat
  /-- The largest number of parameters that a registered route has. -/
  maxParams : Nat
  /-- Whether no more routes are taken. -/
  isSealed : Bool

namespace Store

variable {H : Type}

/-- A store without routes. -/
def empty : Store H := ⟨[.root], 0, 0, false⟩

/-- Register a handler where a template has been brought to, unless it was not brought anywhere. -/
def conclude (s : Store H) (template : Text) (handler : H) (verbs : List Verb)
    (brought : Insertion (Arena H) Nat) : Option (Insertion (Store H) Unit) :=
  match brought.outcome with
  | .error e =>
      some ⟨{ s with cells := brought.result }, .error e,
        brought.events ++ [.templateRejected template e]⟩
  | .ok id => do
      match ← brought.result.register template handler verbs id with
      | (cells, .error o) =>
          some ⟨{ s with cells }, .error (.routeConflict o.existing template),
            brought.events ++ [.verbRejected o.verb template o.existing]⟩
      | (cells, .ok params) =>
          some ⟨{ s with
              cells
              size := s.size + verbs.length
              maxParams := if verbs = [] then s.maxParams else max s.maxParams params },
            .ok (),
            brought.events ++ verbs.map (.routeRegistered · template params)⟩

/-- Bring a template into the arena and register a handler at its cell. -/
def place (s : Store H) (template : Text) (handler : H) (verbs : List Verb) :
    Option (Insertion (Store H) Unit) :=
  (s.cells.bring template).bind (s.conclude template handler verbs)

/-- Register a handler under a template for some methods. -/
def add (s : Store H) (template : Text) (handler : H) (methods : List Method) :
    Option (Insertion (Store H) Unit) :=
  if s.isSealed then some ⟨s, .error (.sealedTree template), []⟩
  else if template.head? ≠ some '/' then some ⟨s, .error (.invalidPath template), []⟩
  else match methods.find? (·.verb?.isNone) with
    | some m => some ⟨s, .error (.unsupportedMethod m.name), []⟩
    | none => s.place template handler (Tree.requestedVerbs methods)

/-- What a call leaves behind, its outcome, and what it reports. -/
def serve (s : Store H) : Call H → Option (Insertion (Store H) Unit)
  | .add template handler methods => s.add template handler methods
  | .addAny template handler => s.add template handler (Verb.all.map Verb.method)
  | .sealing => some ⟨{ s with isSealed := true }, .ok (), []⟩

/-- **The store that a history of calls leaves**, failed calls included. -/
def run (s : Store H) (calls : List (Call H)) : Option (Store H) :=
  calls.foldlM (fun s call => (s.serve call).map Insertion.result) s

end Store

/-! ### What the row holds after a change -/

namespace Arena

variable {H : Type}

/-- A row after a fresh child has been put behind it, for the cell `c` at place `id`. -/
structure Sprouted (a : Arena H) (id : Nat) (c : Cell H) (s : Segment) (a' : Arena H) : Prop where
  parent : a'[id]? = some (c.adopt s a.length)
  fresh : a'[a.length]? = some (c.fresh id s)
  others : ∀ j, j ≠ id → j ≠ a.length → a'[j]? = a[j]?

/-- A row after the cell `c` at place `id` has been split, below a parent with the path `start`. -/
structure Cut (a : Arena H) (id : Nat) (c : Cell H) (start : Text) (k : Nat) (a' : Arena H) :
    Prop where
  head : a'[id]? = some { c.head k with
    path := start ++ c.text.take k
    literals := [a.length] }
  tail : a'[a.length]? = some { c.tail id k with path := c.path }
  others : ∀ j, j ≠ id → j ≠ a.length → a'[j]? = a[j]?.map fun d =>
    { d with parent := if j ∈ c.children then some a.length else d.parent }

theorem lt_length_of_getElem? {a : Arena H} {id : Nat} {c : Cell H} (h : a[id]? = some c) :
    id < a.length := (List.getElem?_eq_some_iff.1 h).1

/-- A cell at the end leaves the others. -/
theorem getElem?_concat_of_ne {a : Arena H} {j : Nat} (c : Cell H) (h : j ≠ a.length) :
    (a ++ [c])[j]? = a[j]? := by
  by_cases hlt : j < a.length
  · exact List.getElem?_append_left hlt
  · rw [List.getElem?_eq_none (by simp; omega), List.getElem?_eq_none (by omega)]

theorem amend_of_lt {a : Arena H} {id : Nat} (h : id < a.length) (f : Cell H → Cell H) :
    a.amend id f = some (a.modify id f) := if_pos h

/-- A fresh child can be put below every cell. -/
theorem exists_sprout {a : Arena H} {id : Nat} {c : Cell H} (h : a[id]? = some c) (s : Segment) :
    ∃ a', a.sprout id s = some (a', a.length) ∧ a.Sprouted id c s a' := by
  have hlt := lt_length_of_getElem? h
  refine ⟨(a ++ [c.fresh id s]).modify id (·.adopt s a.length), ?_, ?_, ?_, ?_⟩
  · have hlt' : id < (a ++ [c.fresh id s]).length := by simp; omega
    simp [sprout, h, amend_of_lt hlt']
  · simp [List.getElem?_append_left hlt, h]
  · have hne : id ≠ a.length := by omega
    simp [hne]
  · intro j hj hj'
    rw [List.getElem?_modify_ne _ _ hj.symm, getElem?_concat_of_ne _ hj']

/-- Every cell of the row can be given a parent. -/
theorem exists_repoint (parent : Nat) {a : Arena H} (ids : List Nat)
    (h : ∀ j ∈ ids, j < a.length) : ∃ a', repoint parent a ids = some a' ∧
      a'.length = a.length ∧
        (∀ j ∈ ids, a'[j]? = a[j]?.map ({ · with parent := some parent })) ∧
          ∀ j, j ∉ ids → a'[j]? = a[j]? := by
  induction ids generalizing a with
  | nil => exact ⟨a, rfl, rfl, by simp, fun _ _ => rfl⟩
  | cons id ids ih =>
      obtain ⟨a', ha', hlen, hmoved, hothers⟩ :=
        ih (a := a.modify id ({ · with parent := some parent }))
          fun j hj => by simpa using h j (List.mem_cons_of_mem _ hj)
      refine ⟨a', ?_, by simpa using hlen, fun j hj => ?_, fun j hj => ?_⟩
      · rw [repoint, amend_of_lt (h id List.mem_cons_self)]
        exact ha'
      · by_cases hmem : j ∈ ids
        · rw [hmoved j hmem, List.getElem?_modify]
          split
          · cases a[j]? <;> rfl
          · simp
        · obtain rfl : j = id := by simpa [hmem] using hj
          rw [hothers j hmem, List.getElem?_modify_eq]
          rfl
      · rw [List.mem_cons, not_or] at hj
        rw [hothers j hj.2, List.getElem?_modify_ne _ _ (Ne.symm hj.1)]

/-- The tail of a cell can be put at the end, and its children hung there. -/
theorem exists_hung {a : Arena H} {id : Nat} {c : Cell H} (h : a[id]? = some c)
    (children : ∀ j ∈ c.children, j < a.length ∧ j ≠ id) (k : Nat) :
    ∃ a', (amend (a ++ [c.tail id k]) id (·.head k)).bind (repoint a.length · c.children) =
        some a' ∧
      a'[id]? = some (c.head k) ∧ a'[a.length]? = some (c.tail id k) ∧
        (∀ j ∈ c.children, a'[j]? = a[j]?.map ({ · with parent := some a.length })) ∧
          ∀ j, j ≠ id → j ≠ a.length → j ∉ c.children → a'[j]? = a[j]? := by
  have hid := lt_length_of_getElem? h
  have hend : id ≠ a.length := by omega
  have hamend : amend (a ++ [c.tail id k]) id (·.head k) =
      some ((a ++ [c.tail id k]).modify id (·.head k)) := amend_of_lt (by simp; omega) _
  have hothers : ∀ j, j ≠ id → j ≠ a.length →
      ((a ++ [c.tail id k]).modify id (·.head k))[j]? = a[j]? := by
    intro j hj hj'
    rw [List.getElem?_modify_ne _ _ hj.symm, getElem?_concat_of_ne _ hj']
  obtain ⟨a', ha', -, hmoved, hkept⟩ :=
    exists_repoint (a := (a ++ [c.tail id k]).modify id (·.head k)) a.length c.children
      fun j hj => by
        have := (children j hj).1
        simp only [List.length_modify, List.length_append, List.length_singleton]
        omega
  refine ⟨a', by rw [hamend]; exact ha', ?_, ?_, fun j hj => ?_, fun j hj hj' hmem => ?_⟩
  · rw [hkept id fun hmem => (children id hmem).2 rfl]
    simp [List.getElem?_append_left hid, h]
  · rw [hkept _ fun hmem => absurd (children _ hmem).1 (by omega)]
    simp [hend]
  · have hj' := children j hj
    rw [hmoved j hj, hothers j hj'.2 (by omega)]
  · rw [hkept j hmem, hothers j hj hj']

/-- A path is made anew from the path of the parent. -/
theorem refreshPath_eq {a : Arena H} {id p : Nat} {c : Cell H} {start : Text}
    (h : a[id]? = some c) (parent : c.parent = some p) (hp : a[p]?.map Cell.path = some start) :
    a.refreshPath id = some (a.modify id ({ · with path := start ++ c.text })) := by
  simp [refreshPath, h, parent, hp, amend_of_lt (lt_length_of_getElem? h)]

/-- **Every cell that hangs on another one can be split.** -/
theorem exists_split {a : Arena H} {id p : Nat} {c q : Cell H} (h : a[id]? = some c)
    (parent : c.parent = some p) (hp : a[p]? = some q) (hne : p ≠ id)
    (path : c.path = q.path ++ c.text) (children : ∀ j ∈ c.children, j < a.length ∧ j ≠ id)
    (k : Nat) : ∃ a', a.split id k = some (a', .nodeSplit c.path (c.text.take k) (c.text.drop k)) ∧
      a.Cut id c q.path k a' := by
  have hid := lt_length_of_getElem? h
  have hplt := lt_length_of_getElem? hp
  have hend : id ≠ a.length := by omega
  obtain ⟨a₁, ha₁, hhead₁, htail₁, hmoved₁, hothers₁⟩ := exists_hung h children k
  have hpath₁ : a₁[p]?.map Cell.path = some q.path := by
    by_cases hmem : p ∈ c.children
    · rw [hmoved₁ p hmem, hp]
      rfl
    · rw [hothers₁ p hne (by omega) hmem, hp]
      rfl
  -- the tail becomes the child of the head, whose path is made anew
  obtain ⟨a₂, ha₂⟩ : ∃ a₂ : Arena H,
      a₂ = a₁.modify id fun c => { c with literals := c.literals ++ [a.length] } := ⟨_, rfl⟩
  have hhead₂ : a₂[id]? = some { c.head k with literals := [a.length] } := by
    simp [ha₂, hhead₁, Cell.head]
  have hpath₂ : a₂[p]?.map Cell.path = some q.path := by
    rw [ha₂, List.getElem?_modify_ne _ _ hne.symm, hpath₁]
  have hrefresh₂ := refreshPath_eq hhead₂ parent hpath₂
  obtain ⟨a₃, ha₃⟩ : ∃ a₃ : Arena H,
      a₃ = a₂.modify id ({ · with path := q.path ++ c.text.take k }) := ⟨_, rfl⟩
  have hhead₃ : a₃[id]? =
      some { c.head k with path := q.path ++ c.text.take k, literals := [a.length] } := by
    simp [ha₃, hhead₂]
  have hothers₃ : ∀ j, j ≠ id → a₃[j]? = a₁[j]? := by
    intro j hj
    rw [ha₃, List.getElem?_modify_ne _ _ hj.symm, ha₂, List.getElem?_modify_ne _ _ hj.symm]
  -- then the path of the tail is made anew
  have htail₃ := (hothers₃ _ hend.symm).trans htail₁
  have hrefresh₃ := refreshPath_eq htail₃ rfl (by rw [hhead₃]; rfl)
  have hpath₃ : q.path ++ c.text.take k ++ (c.tail id k).text = c.path := by
    simp [path, Cell.tail]
  have hsplit : a.split id k = some (a₃.modify a.length ({ · with path := c.path }),
      .nodeSplit c.path (c.text.take k) (c.text.drop k)) := by
    have hchildren : (c.tail id k).children = c.children := rfl
    have hamend₂ : (a₁.amend id fun c => { c with literals := c.literals ++ [a.length] }) =
        some a₂ := by
      rw [amend_of_lt (lt_length_of_getElem? hhead₁), ha₂]
    rw [hpath₃] at hrefresh₃
    simp only [split, h, hchildren, Option.bind_eq_bind, Option.bind_some]
    rw [← Option.bind_assoc, ha₁, Option.bind_some, hamend₂, Option.bind_some, hrefresh₂]
    simp only [Cell.head] at ha₃ ⊢
    rw [← ha₃, Option.bind_some, hrefresh₃, Option.bind_some]
  refine ⟨_, hsplit, ?_, ?_, ?_⟩
  · rw [List.getElem?_modify_ne _ _ hend.symm, hhead₃]
  · simp [htail₃]
  · intro j hj hj'
    rw [List.getElem?_modify_ne _ _ hj'.symm, hothers₃ j hj]
    by_cases hmem : j ∈ c.children
    · simp [hmoved₁ j hmem, hmem]
    · simp [hothers₁ j hj hj' hmem, hmem]

/-! ### The way of one segment -/

/-- No cell begins with a character when all begin with others. -/
theorem opening?_eq_none {a : Arena H} {first : Char} {ids : List Nat}
    (h : ∀ j ∈ ids, ∃ d, a[j]? = some d ∧ d.text.head? ≠ some first) :
    a.opening? first ids = some none := by
  induction ids with
  | nil => rfl
  | cons id ids ih =>
      obtain ⟨d, hd, hne⟩ := h id List.mem_cons_self
      have hrest := ih fun j hj => h j (List.mem_cons_of_mem _ hj)
      simp [opening?, hd, hne, hrest]

/-- The first cell that begins with a character is found. -/
theorem opening?_eq_some {a : Arena H} {first : Char} {before after : List Nat} {k : Nat}
    {d : Cell H} (h : ∀ j ∈ before, ∃ d, a[j]? = some d ∧ d.text.head? ≠ some first)
    (hk : a[k]? = some d) (head : d.text.head? = some first) :
    a.opening? first (before ++ k :: after) = some (some k) := by
  induction before with
  | nil => simp [opening?, hk, head]
  | cons id before ih =>
      obtain ⟨e, he, hne⟩ := h id List.mem_cons_self
      have hrest := ih fun j hj => h j (List.mem_cons_of_mem _ hj)
      simp [opening?, he, hne, hrest]

/-- A run that no child begins with gets a fresh one. -/
theorem followRun_of_none {a : Arena H} {id : Nat} {c : Cell H} {first : Char} {more : Text}
    (h : a[id]? = some c) (none : a.opening? first c.literals = some none) :
    a.followRun id (first :: more) = (a.sprout id (.literal (first :: more))).map .arrived := by
  rw [followRun]
  simp [h, none]

/-- A run that begins with the text of a child goes on there. -/
theorem followRun_of_shared {a : Arena H} {id k : Nat} {c d : Cell H} {first : Char}
    {keep more : Text} (h : a[id]? = some c) (found : a.opening? first c.literals = some (some k))
    (hk : a[k]? = some d) (text : d.text = first :: keep) :
    a.followRun id (first :: (keep ++ more)) = a.followRun k more := by
  have hfork : Text.fork keep (keep ++ more) = ⟨keep, [], more⟩ := by
    simpa using Text.fork_append keep [] more (Or.inl rfl)
  rw [followRun]
  simp [h, found, hk, text, hfork]

/-- A run that leaves a child half way goes on at its head, after the child is split there. -/
theorem followRun_of_split {a a' : Arena H} {id k : Nat} {c d : Cell H} {first : Char}
    {keep tail more : Text} {report : Event} (h : a[id]? = some c)
    (found : a.opening? first c.literals = some (some k)) (hk : a[k]? = some d)
    (text : d.text = first :: (keep ++ tail)) (cut : tail ≠ []) (parts : tail.head? ≠ more.head?)
    (split : a.split k (keep.length + 1) = some (a', report)) :
    a.followRun id (first :: (keep ++ more)) = (a'.followRun k more).map (·.after [report]) := by
  have hfork := Text.fork_append keep tail more (Or.inr parts)
  rw [followRun]
  simp [h, found, hk, text, hfork, cut, split]

variable (template : Text)

theorem follow_literal {a : Arena H} {id : Nat} {run : Text} {rest : List Segment} :
    a.follow template id (.literal run :: rest) =
      (a.followRun id run).bind (·.onward fun a child => a.follow template child rest) := rfl

/-- A run is followed first, whether anything is left of it or not. -/
theorem follow_literalThen (a : Arena H) (id : Nat) (run : Text) (rest : List Segment) :
    a.follow template id (Segment.literalThen run rest) =
      (a.followRun id run).bind (·.onward fun a child => a.follow template child rest) := by
  by_cases hrun : run = []
  · subst hrun
    simp [followRun]
  · rw [Segment.literalThen, if_neg hrun, follow_literal]

/-- A placeholder is followed through its place. -/
theorem follow_placed {a : Arena H} {id : Nat} {s : Segment} {rest : List Segment}
    (hs : s.kind ≠ .literal) : a.follow template id (s :: rest) =
      (a.followPlaced template id s).bind
        (·.onward fun a child => a.follow template child rest) := by
  cases s with
  | literal run => exact absurd rfl hs
  | param name => rfl
  | wildcard name => rfl

variable {template}

/-- A template that cannot be cut is brought nowhere. -/
theorem bring_of_error (a : Arena H) {e : RouteError}
    (cut : Template.segments template = .error e) : a.bring template = some ⟨a, .error e, []⟩ := by
  rw [bring, cut]

/-- A template that can be cut is brought where its segments lead. -/
theorem bring_of_ok (a : Arena H) {segs : List Segment}
    (cut : Template.segments template = .ok segs) :
    a.bring template = a.follow template 0 segs := by
  rw [bring, cut]

end Arena

end RouteTree
