/-
**Filling an arena with texts cut at bytes.**

When a template is brought into an arena, texts are cut in four places: the template into segments,
the text of a cell that is split, the run where it leaves a cell, and the name off a placeholder.
Here these cuts are made at bytes, where the texts are in UTF-8, and an attempt to cut elsewhere
than between two characters gives no answer, as an index that is not in the row gives none.

It turns out that every cut is between characters.  So the calls that fill a store have the same
outcome as when texts are cut at characters, and leave the same store.

Main definitions:

* `Arena.sprout?`, `Arena.split?`, `Arena.meet?`, `Arena.followRun?`, `Arena.follow?`,
  `Arena.bring?` — **following a template**;
* `Store.serve?`, `Store.run?` — calls that fill a store.

Main results:

* `Arena.followRun?_eq`, `Arena.follow?_eq`, `Arena.bring?_eq` — following with cuts at bytes is
  following;
* `Store.run?_eq` — **a history is served alike whether texts are cut at bytes or at characters**.
-/
import RouteTree.Proofs.ByteCut
import RouteTree.Proofs.Arena

set_option autoImplicit false
set_option relaxedAutoImplicit false

namespace RouteTree

variable {H : Type}

/-! ### Names -/

/-- The name of a placeholder: its text without the marker, which is one byte. -/
def Segment.names? : Segment → Option (List Text)
  | literal _ => some []
  | param t => (t.from? 1).map ([·])
  | wildcard t => (t.from? 1).map ([·])

/-- The marker is one byte. -/
theorem Segment.Proper.names?_eq {s : Segment} (h : s.Proper) : s.names? = some s.name?.toList := by
  cases h with
  | literal _ _ => rfl
  | @param name _ _ =>
      have hcut : Text.from? (':' :: name) 1 = some name := Text.from?_append [':'] name
      simp [names?, name?, hcut]
  | @wildcard name _ _ =>
      have hcut : Text.from? ('*' :: name) 1 = some name := Text.from?_append ['*'] name
      simp [names?, name?, hcut]

namespace Arena

/-! ### Changes -/

/-- Put a fresh cell at the end, as a child of `parent` for a segment. -/
def sprout? (a : Arena H) (parent : Nat) (s : Segment) : Option (Arena H × Nat) := do
  let c ← a[parent]?
  let names ← s.names?
  let fresh : Cell H := { c.fresh parent s with params := c.params ++ names }
  let a' ← amend (a ++ [fresh]) parent (·.adopt s a.length)
  some (a', a.length)

/-- Cut the text of a cell at a byte. -/
def split? (a : Arena H) (id cut : Nat) : Option (Arena H × Event) := do
  let c ← a[id]?
  let (keep, _) ← c.text.cutAtByte? cut
  a.split id keep.length

/-- Cut the text of a cell at a byte, unless it ends there.  The reports are those on the split. -/
def trim? (a : Arena H) (id cut : Nat) : Option (Arena H × List Event) := do
  let c ← a[id]?
  if cut < c.text.size then (a.split? id cut).map fun p => (p.1, [p.2]) else some (a, [])

/-! ### Following a template -/

/-- Trim a child to what it has in common with a run.  What is left of the run goes on below it. -/
def meet? (a : Arena H) (child : Nat) (run : Text) : Option (Arena H × List Event × Text) := do
  let d ← a[child]?
  let common := d.text.commonBytes run
  let (a, reports) ← a.trim? child common
  let rest ← run.from? common
  some (a, reports, rest)

/-- The child that a run goes on at begins with the first character of the run. -/
theorem exists_of_opening? {a : Arena H} {first : Char} {ids : List Nat} {child : Nat}
    (h : a.opening? first ids = some (some child)) :
    ∃ d keep, a[child]? = some d ∧ d.text = first :: keep := by
  induction ids with
  | nil => cases h
  | cons id ids ih =>
      cases hcell : a[id]? with
      | none => simp [opening?, hcell] at h
      | some c =>
          by_cases hopens : c.text.head? = some first
          · obtain rfl : id = child := by simpa [opening?, hcell, hopens] using h
            obtain ⟨keep, htext⟩ := List.head?_eq_some_iff.1 hopens
            exact ⟨c, keep, hcell, htext⟩
          · exact ih (by simpa [opening?, hcell, hopens] using h)

/-- At least the first character of a run is shared with the child that it goes on at. -/
theorem size_of_meet? {a a' : Arena H} {first : Char} {more rest : Text} {ids : List Nat}
    {child : Nat} {reports : List Event} (opens : a.opening? first ids = some (some child))
    (h : a.meet? child (first :: more) = some (a', reports, rest)) :
    rest.size < Text.size (first :: more) := by
  obtain ⟨d, keep, here, text⟩ := exists_of_opening? opens
  obtain ⟨d', here', h⟩ := Option.bind_eq_some_iff.1 h
  obtain rfl := Option.some.inj (here.symm.trans here')
  obtain ⟨_, -, h⟩ := Option.bind_eq_some_iff.1 h
  obtain ⟨rest', hrest, h⟩ := Option.bind_eq_some_iff.1 h
  obtain ⟨-, -, rfl⟩ : _ ∧ _ ∧ rest' = rest := by simpa using h
  have hsize := Text.size_of_from? hrest
  have hcommon : 0 < d.text.commonBytes (first :: more) := by
    rw [Text.commonBytes_eq, text]
    exact Text.size_pos_of_ne_nil (by simp [Text.fork])
  omega

/-- **Follow a literal run below a cell.**  The child that the run goes on at is trimmed to what it
has in common with the run. -/
def followRun? (a : Arena H) (id : Nat) (run : Text) : Option (Insertion (Arena H) Nat) :=
  match run with
  | [] => some (.arrived (a, id))
  | first :: more => do
      let c ← a[id]?
      match _opens : a.opening? first c.literals with
      | none => none
      | some none => (a.sprout? id (.literal (first :: more))).map .arrived
      | some (some child) =>
          match _meets : a.meet? child (first :: more) with
          | none => none
          | some (a, reports, rest) => (followRun? a child rest).map (·.after reports)
termination_by run.size
decreasing_by exact size_of_meet? ‹_› ‹_›

/-- Follow a placeholder through the place that a cell has for it, or fill the place. -/
def followPlaced? (template : Text) (a : Arena H) (id : Nat) (s : Segment) :
    Option (Insertion (Arena H) Nat) := do
  let c ← a[id]?
  match c.place? s with
  | none => (a.sprout? id s).map .arrived
  | some child => do
      let d ← a[child]?
      if d.text = s.text then some (.arrived (a, child))
      else some ⟨a, .error (.routeConflict d.path template), []⟩

/-- Follow one segment below a cell. -/
def followSegment? (template : Text) (a : Arena H) (id : Nat) :
    Segment → Option (Insertion (Arena H) Nat)
  | .literal run => a.followRun? id run
  | .param name => a.followPlaced? template id (.param name)
  | .wildcard name => a.followPlaced? template id (.wildcard name)

/-- **Follow some segments below a cell**, to the place where they lead. -/
def follow? (template : Text) :
    Arena H → Nat → List Segment → Option (Insertion (Arena H) Nat)
  | a, id, [] => some (.arrived (a, id))
  | a, id, s :: rest => do
      let i ← a.followSegment? template id s
      i.onward fun a child => follow? template a child rest

/-- **Bring a template into an arena**: follow its segments from the root.  The answer is the place
where they lead. -/
def bring? (a : Arena H) (template : Text) : Option (Insertion (Arena H) Nat) := do
  match ← Template.segments? template with
  | .error e => some ⟨a, .error e, []⟩
  | .ok segs => a.follow? template 0 segs

/-! ### The cuts are possible -/

theorem sprout?_eq (a : Arena H) (parent : Nat) {s : Segment} (hs : s.Proper) :
    a.sprout? parent s = a.sprout parent s := by
  rw [sprout?, sprout, hs.names?_eq]
  rfl

/-- A literal run has no name. -/
theorem sprout?_literal (a : Arena H) (parent : Nat) (run : Text) :
    a.sprout? parent (.literal run) = a.sprout parent (.literal run) := rfl

/-- **A child and a run can be cut where they part**: the child is split there if it goes on. -/
theorem meet?_eq {a : Arena H} {child : Nat} {d : Cell H} (h : a[child]? = some d) {first : Char}
    {keep : Text} (text : d.text = first :: keep) (more : Text) :
    a.meet? child (first :: more) =
      (if (Text.fork keep more).left = [] then some (a, [])
        else (a.split child ((Text.fork keep more).shared.length + 1)).map
          fun p => (p.1, [p.2])).map fun p => (p.1, p.2, (Text.fork keep more).right) := by
  have hfork : Text.fork d.text (first :: more) = ⟨first :: (Text.fork keep more).shared,
      (Text.fork keep more).left, (Text.fork keep more).right⟩ := by
    simp [text, Text.fork]
  have hleft := Text.fork_left d.text (first :: more)
  obtain ⟨hcut, hrest⟩ := Text.cutAtByte?_commonBytes d.text (first :: more)
  rw [hfork] at hleft hcut hrest
  dsimp only at hleft hcut hrest
  have hless : d.text.commonBytes (first :: more) < d.text.size ↔
      (Text.fork keep more).left ≠ [] := by
    rw [Text.commonBytes_eq, hfork, ← hleft]
    exact Text.size_lt_append_iff
  simp only [meet?, trim?, split?, h, hcut, hrest, hless, Option.bind_eq_bind, Option.bind_some,
    ne_eq, ite_not, List.length_cons]
  split
  · rfl
  · cases a.split child ((Text.fork keep more).shared.length + 1) <;> rfl

/-- **A run is followed alike, whether the texts are cut at bytes or at characters.** -/
theorem followRun?_eq (a : Arena H) (id : Nat) (run : Text) :
    a.followRun? id run = a.followRun id run := by
  induction hlen : run.length using Nat.strong_induction_on generalizing a id run with
  | h n ih =>
      cases run with
      | nil => rw [followRun?, followRun]
      | cons first more =>
          rw [followRun?, followRun]
          cases hcell : a[id]? with
          | none => rfl
          | some c =>
              simp only [Option.bind_eq_bind, Option.bind_some]
              cases hopening : a.opening? first c.literals with
              | none => rfl
              | some found =>
                  cases found with
                  | none =>
                      rw [sprout?_literal]
                      rfl
                  | some child =>
                      obtain ⟨d, keep, hchild, text⟩ := exists_of_opening? hopening
                      have hless : (Text.fork keep more).right.length < n := by
                        have hright := congrArg List.length (Text.fork_right keep more)
                        simp only [List.length_append, List.length_cons] at hright hlen
                        omega
                      have hnext : ∀ a : Arena H, a.followRun? child (Text.fork keep more).right =
                          a.followRun child (Text.fork keep more).right :=
                        fun a => ih _ hless a child _ rfl
                      simp only [hchild, text, Option.bind_some, List.tail_cons]
                      rw [meet?_eq hchild text more]
                      by_cases hleft : (Text.fork keep more).left = []
                      · rw [if_pos hleft, if_pos hleft]
                        simpa only [Option.map_some, Insertion.map_after_nil] using hnext a
                      · rw [if_neg hleft, if_neg hleft]
                        cases a.split child ((Text.fork keep more).shared.length + 1) with
                        | none => rfl
                        | some p => exact congrArg (Option.map (·.after [p.2])) (hnext p.1)

variable (template : Text)

/-- A placeholder is followed alike. -/
theorem followPlaced?_eq (a : Arena H) (id : Nat) {s : Segment} (hs : s.Proper) :
    a.followPlaced? template id s = a.followPlaced template id s := by
  rewrite [followPlaced?, a.sprout?_eq id hs]
  rfl

/-- **The segments of a template are followed alike.** -/
theorem follow?_eq (a : Arena H) (id : Nat) {segs : List Segment} (proper : ∀ s ∈ segs, s.Proper) :
    a.follow? template id segs = a.follow template id segs := by
  induction segs generalizing a id with
  | nil => rfl
  | cons s rest ih =>
      have hs := proper s List.mem_cons_self
      have hfirst : a.followSegment? template id s = a.followSegment template id s := by
        cases s with
        | literal run => rw [followSegment?, followSegment, followRun?_eq]
        | param name => exact followPlaced?_eq template a id hs
        | wildcard name => exact followPlaced?_eq template a id hs
      have hrest : ∀ (a : Arena H) (id : Nat),
          a.follow? template id rest = a.follow template id rest :=
        fun a id => ih a id fun s hs => proper s (List.mem_cons_of_mem _ hs)
      simp only [follow?, hfirst, hrest]
      rfl

/-- **A template is brought into an arena alike.** -/
theorem bring?_eq (a : Arena H) : a.bring? template = a.bring template := by
  rw [bring?, Template.segments?_eq, Option.bind_eq_bind, Option.bind_some]
  cases hcut : Template.segments template with
  | error e => rw [a.bring_of_error hcut]
  | ok segs =>
      rw [a.bring_of_ok hcut]
      exact follow?_eq template a 0 (Template.linked_of_segments hcut).1

end Arena

/-! ### Calls -/

namespace Store

/-- Bring a template into the arena and register a handler at its cell. -/
def place? (s : Store H) (template : Text) (handler : H) (verbs : List Verb) :
    Option (Insertion (Store H) Unit) :=
  (s.cells.bring? template).bind (s.conclude template handler verbs)

/-- Register a handler under a template for some methods. -/
def add? (s : Store H) (template : Text) (handler : H) (methods : List Method) :
    Option (Insertion (Store H) Unit) :=
  if s.isSealed then some ⟨s, .error (.sealedTree template), []⟩
  else if template.head? ≠ some '/' then some ⟨s, .error (.invalidPath template), []⟩
  else match methods.find? (·.verb?.isNone) with
    | some m => some ⟨s, .error (.unsupportedMethod m.name), []⟩
    | none => s.place? template handler (Tree.requestedVerbs methods)

/-- What a call leaves behind, its outcome, and what it reports. -/
def serve? (s : Store H) : Call H → Option (Insertion (Store H) Unit)
  | .add template handler methods => s.add? template handler methods
  | .addAny template handler => s.add? template handler (Verb.all.map Verb.method)
  | .sealing => some ⟨{ s with isSealed := true }, .ok (), []⟩

/-- **The store that a history of calls leaves**, failed calls included. -/
def run? (s : Store H) (calls : List (Call H)) : Option (Store H) :=
  calls.foldlM (fun s call => (s.serve? call).map Insertion.result) s

theorem place?_eq (s : Store H) (template : Text) (handler : H) (verbs : List Verb) :
    s.place? template handler verbs = s.place template handler verbs := by
  rw [place?, place, Arena.bring?_eq]

/-- A call is served alike. -/
theorem serve?_eq (s : Store H) (call : Call H) : s.serve? call = s.serve call := by
  have hadd : ∀ template handler methods,
      s.add? template handler methods = s.add template handler methods := by
    intro template handler methods
    rewrite [add?, place?_eq]
    rfl
  cases call with
  | add template handler methods => exact hadd template handler methods
  | addAny template handler => exact hadd template handler (Verb.all.map Verb.method)
  | sealing => rfl

/-- **A history is served alike**, whether the texts are cut at bytes or at characters. -/
theorem run?_eq (s : Store H) (calls : List (Call H)) : s.run? calls = s.run calls := by
  simp only [run?, run, serve?_eq]

end Store

end RouteTree
