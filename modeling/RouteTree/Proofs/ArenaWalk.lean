/-
**Going through an arena.**

An arena is gone through from the root on, each cell before its children, and a state is carried
along.  Nothing in the indices of an arena says that this comes to an end: the tail of a split has
a larger index than the cells below it.  It does come to an end in an arena that lays a tree out,
and the cells are visited in the order of the nodes that they show.

Listing the routes of a store and drawing it are two ways of going through its arena.  In a drawing
a line is indented by its depth less one, which only the root does not allow; the root has no line.

Main definitions:

* `Arena.visit?` — **going through the cells at and below a place**; there is no answer if a place
  is not in the row, if a step has none, or if there is no end;
* `Store.walk?`, `Store.print?` — listing the routes, and drawing the tree.

Main results:

* `Arena.Shows.visit?_eq` — **the cells are visited as the nodes that they show**;
* `Store.Stands.walk?_eq`, `Store.Stands.print?_eq` — a store is listed and drawn as the tree that
  it stands for.
-/
import RouteTree.Proofs.Stores
import RouteTree.Tree.Rendering

set_option autoImplicit false
set_option relaxedAutoImplicit false

namespace RouteTree

variable {H : Type} {σ : Type}

namespace Arena

/-! ### Visits -/

/-- **Go through the cells at and below a place**, which is itself at the given depth.  A way down
that has as many steps as there are cells has met one of them twice, and has no end. -/
def visit? (a : Arena H) (step : σ → Nat → Cell H → Option σ) (id depth : Nat) (state : σ) :
    Option σ :=
  if depth < a.length then do
    let c ← a[id]?
    let state ← step state depth c
    c.children.foldlM (fun state child => visit? a step child (depth + 1) state) state
  else none
termination_by a.length - depth

/-- A place that shows a node, or is missing as the node is. -/
theorem forall₂_toList {ι β : Type} {R : ι → β → Prop} {x : Option ι} {y : Option β}
    (h : Option.Rel R x y) : List.Forall₂ R x.toList y.toList := by
  cases h with
  | some h => exact .cons h .nil
  | none => exact .nil

namespace Shows

variable {a : Arena H} {id : Nat} {c : Cell H} {n : Node H}

/-- The children of a cell show the children of the node, in their order. -/
theorem forall₂_children (h : a.Shows id n) (here : a[id]? = some c) :
    List.Forall₂ a.Shows c.children n.children := by
  obtain ⟨_, hliterals, hparam, hwildcard⟩ := h.children here
  exact List.rel_append (List.rel_append hliterals (forall₂_toList hparam))
    (forall₂_toList hwildcard)

/-- **The cells are visited as the nodes that they show**, if a step makes no difference between
them. -/
theorem visit?_eq (ha : a.Wired) {step : σ → Nat → Cell H → Option σ}
    {step' : σ → Visit H → Option σ}
    (same : ∀ state depth c n, c.Fits n → step state depth c = step' state ⟨depth, n⟩)
    (h : a.Shows id n) {cells : List (Cell H)} (trail : a.Trail cells id) (state : σ) :
    a.visit? step id cells.length state = (n.visits cells.length).foldlM step' state := by
  induction n using Node.induction generalizing id cells state with
  | step n ih =>
      obtain ⟨c, here, fits⟩ := h.exists_cell
      have hbelow : ∀ c' ∈ n.children, ∀ j ∈ c.children, a.Shows j c' → ∀ state,
          a.visit? step j (cells.length + 1) state =
            (c'.visits (cells.length + 1)).foldlM step' state := by
        intro c' hc' j listed hj state
        obtain ⟨s, first⟩ := Node.mem_children.1 hc'
        obtain ⟨d, hd, _⟩ := hj.exists_cell
        simpa using ih s c' first hj (trail.step here listed hd) state
      have hchildren : ∀ (ids : List Nat) (cs : List (Node H)), List.Forall₂ a.Shows ids cs →
          ids ⊆ c.children → cs ⊆ n.children → ∀ state,
            ids.foldlM (fun state child => a.visit? step child (cells.length + 1) state) state =
              (cs.flatMap (·.visits (cells.length + 1))).foldlM step' state := by
        intro ids cs hall
        induction hall with
        | nil => exact fun _ _ _ => rfl
        | @cons j c' ids cs hj _ ihcs =>
            intro hids hcs state
            obtain ⟨hlisted, hids⟩ := List.cons_subset.1 hids
            obtain ⟨hc', hcs⟩ := List.cons_subset.1 hcs
            simp only [List.foldlM_cons, List.flatMap_cons, List.foldlM_append,
              hbelow c' hc' j hlisted hj, ihcs hids hcs]
      have hrest := hchildren c.children n.children (h.forall₂_children here) (List.Subset.refl _)
        (List.Subset.refl _)
      rw [visit?, if_pos (trail.length_lt ha here), Node.visits_eq, List.foldlM_cons, here,
        Option.bind_eq_bind, Option.bind_some, same state cells.length c n fits]
      simp only [hrest]

end Shows

end Arena

/-! ### Listing and drawing -/

/-- A cell by itself, as a node without children. -/
def Cell.alone (c : Cell H) : Node H := ⟨c.text, c.path, c.params, c.routes, [], none, none⟩

/-- The number of blanks in front of a line.  There is none for the depth of the root. -/
def indent? (depth : Nat) : Option Nat := if 1 ≤ depth then some (2 * (depth - 1)) else none

/-- Draw the line of a cell, unless it is the root or an earlier line did not fit. -/
def Cell.draw? (out : Sink × Bool) (depth : Nat) (c : Cell H) : Option (Sink × Bool) :=
  if depth = 0 ∨ out.2 = false then some out
  else do
    let indent ← indent? depth
    let line := List.replicate indent ' ' ++ c.text ++ c.alone.legend ++ ['\n']
    some (out.1.write (Text.bytes line))

namespace Store

/-- **The routes of a store with their verbs.** -/
def walk? (s : Store H) : Option (List (Verb × Route H)) :=
  s.cells.visit? (fun listed _ c => some (listed ++ c.alone.ownRoutes)) 0 0 []

/-- **Draw a store into a sink**; the flag says whether the whole drawing found room. -/
def print? (s : Store H) (sink : Sink) : Option (Sink × Bool) :=
  s.cells.visit? Cell.draw? 0 0 (sink, true)

end Store

/-- List the routes of a node behind those of the nodes before it. -/
def Visit.list (listed : List (Verb × Route H)) (v : Visit H) : Option (List (Verb × Route H)) :=
  some (listed ++ v.node.ownRoutes)

/-- Steps that add to a list add it up. -/
theorem foldlM_concat {ι β : Type} (f : ι → List β) (l : List ι) (listed : List β) :
    l.foldlM (fun listed i => some (listed ++ f i)) listed = some (listed ++ l.flatMap f) := by
  induction l generalizing listed with
  | nil => simp
  | cons i l ih => simp [ih]

/-- The nodes at and below a node are at its depth or deeper. -/
theorem Node.le_depth {n : Node H} {depth : Nat} {v : Visit H} (h : v ∈ n.visits depth) :
    depth ≤ v.depth := by
  induction n using Node.induction generalizing depth with
  | step n ih =>
      rw [visits_eq] at h
      rcases List.mem_cons.1 h with rfl | h
      · exact le_rfl
      · obtain ⟨c, hc, hv⟩ := List.mem_flatMap.1 h
        obtain ⟨s, first⟩ := mem_children.1 hc
        exact (Nat.le_succ depth).trans (ih s c first hv)

/-- Below the root, visits are at the first level or deeper. -/
theorem Tree.le_depth_of_mem {t : Tree H} {v : Visit H} (h : v ∈ t.visitsBelow) : 1 ≤ v.depth := by
  obtain ⟨c, _, hv⟩ := List.mem_flatMap.1 h
  exact Node.le_depth hv

/-- Draw the line of a node, unless it is the root or an earlier line did not fit. -/
def Visit.draw (out : Sink × Bool) (v : Visit H) : Option (Sink × Bool) :=
  if v.depth = 0 ∨ out.2 = false then some out else some (out.1.write v.line.bytes)

/-- A cell is drawn as the node that it shows: a line is asked for only where there is an
indentation. -/
theorem Cell.Fits.draw?_eq {c : Cell H} {n : Node H} (fits : c.Fits n) (out : Sink × Bool)
    (depth : Nat) : c.draw? out depth = Visit.draw out ⟨depth, n⟩ := by
  have hlegend : c.alone.legend = n.legend := by
    simp only [Node.legend, Node.ownRoutes, alone, fits.routes, fits.path]
  unfold draw? Visit.draw
  split
  · rfl
  · rename_i hdepth
    have hpos : 1 ≤ depth := Nat.one_le_iff_ne_zero.2 fun hzero => hdepth (Or.inl hzero)
    simp only [indent?, if_pos hpos, Option.bind_eq_bind, Option.bind_some, Visit.line, hlegend,
      fits.text]

/-- Below the root, drawing line by line is writing the lines, up to the first that does not fit. -/
theorem foldlM_draw (visits : List (Visit H)) (below : ∀ v ∈ visits, 1 ≤ v.depth) (sink : Sink) :
    visits.foldlM Visit.draw (sink, true) = some (sink.writeAll (visits.map Visit.line)) := by
  have hstopped : ∀ (visits : List (Visit H)) (sink : Sink),
      visits.foldlM Visit.draw (sink, false) = some (sink, false) := by
    intro visits sink
    induction visits with
    | nil => rfl
    | cons v visits ih => simpa [Visit.draw] using ih
  induction visits generalizing sink with
  | nil => rfl
  | cons v visits ih =>
      have hv : v.depth ≠ 0 := Nat.one_le_iff_ne_zero.1 (below v List.mem_cons_self)
      have hrest := fun sink => ih (fun v hv => below v (List.mem_cons_of_mem _ hv)) sink
      rw [List.foldlM_cons, Visit.draw, if_neg (by simp [hv]), Option.bind_eq_bind,
        Option.bind_some, List.map_cons, Sink.writeAll]
      rcases sink.write v.line.bytes with ⟨sink', _ | _⟩
      · exact hstopped visits sink'
      · exact hrest sink'

namespace Store

variable {s : Store H} {t : Tree H}

/-- **A store is listed as the tree that it stands for.** -/
theorem Stands.walk?_eq (hs : s.Stands t) : s.walk? = some t.walk := by
  have hstep : ∀ (listed : List (Verb × Route H)) (depth : Nat) (c : Cell H) (n : Node H),
      c.Fits n → some (listed ++ c.alone.ownRoutes) = Visit.list listed ⟨depth, n⟩ := by
    intro listed depth c n fits
    simp only [Visit.list, Node.ownRoutes, Cell.alone, fits.routes]
  have hvisit := hs.root.visit?_eq hs.wired hstep .root []
  exact hvisit.trans (foldlM_concat _ _ _)

/-- **A store is drawn as the tree that it stands for.** -/
theorem Stands.print?_eq (hs : s.Stands t) (sink : Sink) : s.print? sink = some (t.print sink) := by
  have hvisit := hs.root.visit?_eq hs.wired (fun out depth c n fits => fits.draw?_eq out depth)
    .root (sink, true)
  rw [Node.visits_eq, List.foldlM_cons] at hvisit
  exact hvisit.trans (foldlM_draw t.visitsBelow (fun _ => Tree.le_depth_of_mem) sink)

end Store

end RouteTree
