/-
**What a drawing shows, and how much of it a writer takes.**

A store is drawn by going through its arena, and each cell but the root gets a line.  What a line
says of the place of its cell is the cell's own path, which is kept beside its text; what is to be
expected there is the texts on the way from the root down to the cell.  The two are the same,
whatever has been split since the cell was made.

A line is written in pieces: its blanks one by one, its text, the parts of its legend and the end of
the line.  A writer can fail at any of them, or within one.  The way through the arena goes on after
that, but nothing more is written.

Main definitions:

* `Line` — a line of a drawing: the texts above a cell, its own, and its verbs;
* `Arena.Preorder` — the places at and below a place, each before its children;
* `Cell.render?`, `Store.printTo?` — drawing a cell, and a store, to a writer;
* `Store.DrawnAs` — a store is drawn in some lines.

Main results:

* `Arena.Shows.exists_preorder` — the places of an arena in the order of the walk;
* `Store.Stands.printTo?_eq` — what a limited writer takes of a drawing;
* `Store.exists_run_draws` — **every history of calls leaves a store that is drawn line by line**.
-/
import RouteTree.Proofs.ArenaOrder
import RouteTree.Proofs.ArenaWalk
import RouteTree.Proofs.Tally
import RouteTree.Proofs.Writers

set_option autoImplicit false
set_option relaxedAutoImplicit false

namespace RouteTree

variable {H : Type}

/-! ### Lines -/

/-- **A line of a drawing**: the texts above a cell, from the first level on, the text of the cell,
and the verbs that it has routes for. -/
structure Line where
  above : List Text
  own : Text
  verbs : List Verb

namespace Line

/-- The path that a line stands for. -/
def path (l : Line) : Text := l.above.flatten ++ l.own

/-- The legend of a line: its path and its verbs, if it has verbs. -/
def legend (l : Line) : Text :=
  match l.verbs.map Verb.name with
  | [] => []
  | verbs => [' ', ' '] ++ l.path ++ [' ', '['] ++ Text.joined [',', ' '] verbs ++ [']']

/-- **A line as it is written**: two blanks for each text above, its own text, and its legend. -/
def text (l : Line) : Text :=
  List.replicate (2 * l.above.length) ' ' ++ l.own ++ l.legend ++ ['\n']

/-- The pairs of a path and a verb that a line shows. -/
def pairs (l : Line) : List (Text × Verb) := l.verbs.map fun v => (l.path, v)

/-- No line is broken within joined names. -/
theorem not_mem_joined (verbs : List Verb) :
    '\n' ∉ Text.joined [',', ' '] (verbs.map Verb.name) := by
  have hname : ∀ v : Verb, '\n' ∉ v.name := by
    intro v
    cases v <;> decide
  induction verbs with
  | nil => simp [Text.joined]
  | cons v verbs ih =>
      cases verbs with
      | nil => simpa [Text.joined] using hname v
      | cons v' verbs =>
          have hjoined : Text.joined [',', ' '] ((v :: v' :: verbs).map Verb.name) =
              v.name ++ [',', ' '] ++ Text.joined [',', ' '] ((v' :: verbs).map Verb.name) := by
            simp [Text.joined]
          rw [hjoined]
          simp only [List.mem_append, not_or]
          exact ⟨⟨hname v, by decide⟩, ih⟩

/-- **A line ends with the one line break in it**, unless its path has some. -/
theorem exists_content (l : Line) (plain : '\n' ∉ l.path) :
    ∃ content, l.text = content ++ ['\n'] ∧ '\n' ∉ content := by
  have hown : '\n' ∉ l.own := fun h => plain (List.mem_append_right _ h)
  have hlegend : '\n' ∉ l.legend := by
    have hjoined := not_mem_joined l.verbs
    rw [legend]
    split
    · exact List.not_mem_nil
    · simp [plain, hjoined]
  exact ⟨_, rfl, by simp [hown, hlegend]⟩

end Line

/-! ### Pieces -/

/-- The pieces in which a legend is written. -/
def Node.legendPieces (n : Node H) : List Text :=
  match n.ownRoutes.map (·.1.name) with
  | [] => []
  | verbs => [[' ', ' '], n.path, [' ', '['], Text.joined [',', ' '] verbs, [']']]

/-- The pieces in which a line is written: the blanks one by one, and then what follows them. -/
def Node.pieces (n : Node H) (indent : Nat) : List Text :=
  List.replicate indent [' '] ++ n.text :: (n.legendPieces ++ [['\n']])

/-- The pieces of a line make it up. -/
theorem Visit.flatten_pieces (v : Visit H) :
    (v.node.pieces (2 * (v.depth - 1))).flatten = v.line := by
  have hblanks : ∀ k, (List.replicate k [' ']).flatten = List.replicate k ' ' := by
    intro k
    simp
  have hlegend : v.node.legendPieces.flatten = v.node.legend := by
    rw [Node.legendPieces, Node.legend]
    cases v.node.ownRoutes.map (·.1.name) <;> simp
  simp [Node.pieces, line, hblanks, hlegend]

/-- Draw the line of a cell to a writer, unless it is the root or a write has failed before. -/
def Cell.render? (w : Writer) (out : List Offer × Bool) (depth : Nat) (c : Cell H) :
    Option (List Offer × Bool) :=
  if depth = 0 ∨ out.2 = false then some out
  else do
    let indent ← indent? depth
    some (w.putAll out.1 (c.alone.pieces indent))

/-- **Draw a store to a writer.**  The answer is what the writer has been offered, and whether
everything has been taken. -/
def Store.printTo? (s : Store H) (w : Writer) : Option (List Offer × Bool) :=
  s.cells.visit? (Cell.render? w) 0 0 ([], true)

/-- Draw the line of a node to a writer, unless it is the root or a write has failed before. -/
def Visit.render (w : Writer) (out : List Offer × Bool) (v : Visit H) :
    Option (List Offer × Bool) :=
  if v.depth = 0 ∨ out.2 = false then some out
  else some (w.putAll out.1 (v.node.pieces (2 * (v.depth - 1))))

/-- A cell is drawn to a writer as the node that it shows. -/
theorem Cell.Fits.render?_eq {c : Cell H} {n : Node H} (fits : c.Fits n) (w : Writer)
    (out : List Offer × Bool) (depth : Nat) :
    c.render? w out depth = Visit.render w out ⟨depth, n⟩ := by
  have hpieces : ∀ indent, c.alone.pieces indent = n.pieces indent := by
    intro indent
    simp only [Node.pieces, Node.legendPieces, Node.ownRoutes, alone, fits.routes, fits.path,
      fits.text]
  unfold render? Visit.render
  split
  · rfl
  · rename_i hdepth
    have hpos : 1 ≤ depth := Nat.one_le_iff_ne_zero.2 fun hzero => hdepth (Or.inl hzero)
    simp only [indent?, if_pos hpos, Option.bind_eq_bind, Option.bind_some, hpieces]

/-- Below the root, the lines are written one behind the other, up to the first failure. -/
theorem Visit.foldlM_render {w : Writer} {n : Nat} (hw : w.Limited n) (visits : List (Visit H))
    (below : ∀ v ∈ visits, 1 ≤ v.depth) {bytes : List UInt8} {out : List Offer × Bool}
    (h : w.Wrote n bytes out) :
    ∃ out', visits.foldlM (Visit.render w) out = some out' ∧
      w.Wrote n (bytes ++ Text.bytes (visits.map Visit.line).flatten) out' := by
  induction visits generalizing bytes out with
  | nil => exact ⟨out, rfl, by simpa [Text.bytes] using h⟩
  | cons v visits ih =>
      have hdepth : v.depth ≠ 0 := Nat.one_le_iff_ne_zero.1 (below v List.mem_cons_self)
      have hrest := @ih fun v hv => below v (List.mem_cons_of_mem _ hv)
      obtain ⟨out', hrender, hwrote⟩ : ∃ out', Visit.render w out v = some out' ∧
          w.Wrote n (bytes ++ v.line.bytes) out' := by
        obtain ⟨log, _ | _⟩ := out
        · exact ⟨_, by simp [Visit.render], h.append_of_failed rfl _⟩
        · refine ⟨_, by simp [Visit.render, hdepth]; rfl, ?_⟩
          rw [← v.flatten_pieces]
          exact h.putAll hw _
      obtain ⟨out'', hfold, hall⟩ := hrest hwrote
      refine ⟨out'', ?_, ?_⟩
      · rw [List.foldlM_cons, hrender, Option.bind_eq_bind, Option.bind_some, hfold]
      · rw [List.map_cons, List.flatten_cons, Text.bytes_append, ← List.append_assoc]
        exact hall

/-- **What a limited writer takes of the drawing of a store** is a beginning of the drawing. -/
theorem Store.Stands.printTo?_eq {s : Store H} {t : Tree H} (hs : s.Stands t) {w : Writer} {n : Nat}
    (hw : w.Limited n) : ∃ out, s.printTo? w = some out ∧ w.Wrote n t.rendering.bytes out := by
  have hvisit := hs.root.visit?_eq hs.wired (fun out depth c n fits => fits.render?_eq w out depth)
    .root ([], true)
  rw [Node.visits_eq, List.foldlM_cons] at hvisit
  obtain ⟨out, hfold, hwrote⟩ := Visit.foldlM_render hw t.visitsBelow
    (fun _ => Tree.le_depth_of_mem) (w.wrote_nil n)
  exact ⟨out, hvisit.trans hfold, hwrote⟩

/-! ### The order of the lines -/

namespace Arena

variable {a : Arena H}

/-- **The places at and below a place**, each before its children: the literal ones, then the
parameter, then the wildcard. -/
inductive Preorder (a : Arena H) : Nat → List Nat → Prop
  | intro {id : Nat} {c : Cell H} {rows : List (List Nat)} (here : a[id]? = some c)
      (below : List.Forall₂ (Preorder a) c.children rows) : Preorder a id (id :: rows.flatten)

/-- The line of the cell at a place, but the root: the texts on the way down to it, and the verbs
that it has routes for. -/
def HasLine (a : Arena H) (j : Nat) (l : Line) : Prop :=
  ∃ cells c, a.Trail (cells ++ [c]) j ∧ l.above = cells.map Cell.text ∧ l.own = c.text ∧
    l.verbs = Verb.all.filter fun v => (c.routes v).isSome

/-- A place where a visit comes by: it shows the visited node, and is as deep. -/
def Visited (a : Arena H) (j : Nat) (v : Visit H) : Prop :=
  a.Shows j v.node ∧ ∃ cells, a.Trail cells j ∧ v.depth = cells.length

/-- Rows that belong to the items of a list make up one row that belongs to all of them. -/
theorem exists_rows {ι β γ : Type} {P : ι → List ι → Prop} {Q : ι → γ → Prop} {f : β → List γ}
    {l : List ι} {m : List β}
    (h : List.Forall₂ (fun i b => ∃ row, P i row ∧ List.Forall₂ Q row (f b)) l m) :
    ∃ rows, List.Forall₂ P l rows ∧ List.Forall₂ Q rows.flatten (m.flatMap f) := by
  induction h with
  | nil => exact ⟨[], .nil, .nil⟩
  | cons hrow _ ih =>
      obtain ⟨row, hP, hQ⟩ := hrow
      obtain ⟨rows, hrows, hrest⟩ := ih
      exact ⟨row :: rows, .cons hP hrows, List.rel_append hQ hrest⟩

/-- **The places of an arena in the order of the walk** through the tree that it lays out. -/
theorem Shows.exists_preorder {id : Nat} {n : Node H} (h : a.Shows id n)
    {cells : List (Cell H)} (trail : a.Trail cells id) :
    ∃ order, a.Preorder id order ∧ List.Forall₂ a.Visited order (n.visits cells.length) := by
  induction n using Node.induction generalizing id cells with
  | step n ih =>
      obtain ⟨c, here, _⟩ := h.exists_cell
      have hchildren := (List.forall₂_and_left _ _).2 ⟨fun j hj => hj, h.forall₂_children here⟩
      obtain ⟨rows, hrows, hvisits⟩ := exists_rows (f := (Node.visits (cells.length + 1) ·)) <|
        forall₂_of_mem hchildren fun j c' hc' hj => by
          obtain ⟨listed, hshow⟩ := hj
          obtain ⟨s, first⟩ := Node.mem_children.1 hc'
          obtain ⟨d, hd, _⟩ := hshow.exists_cell
          simpa using ih s c' first hshow (trail.step here listed hd)
      refine ⟨id :: rows.flatten, .intro here hrows, ?_⟩
      rw [Node.visits_eq]
      exact .cons ⟨h, cells, trail, rfl⟩ hvisits

/-! ### Each place once -/

/-- Two lists that belong together item by item have no repetitions if one of them has none. -/
theorem nodup_of_forall₂ {ι β γ : Type} {R : ι → β → Prop} {f : β → γ} {l : List ι} {m : List β}
    (h : List.Forall₂ R l m) (key : ∀ i b b', R i b → R i b' → f b = f b')
    (once : (m.map f).Nodup) : l.Nodup := by
  induction h with
  | nil => exact List.nodup_nil
  | @cons i b l m hib hrest ih =>
      rw [List.map_cons, List.nodup_cons] at once
      refine List.nodup_cons.2 ⟨fun hmem => ?_, ih once.2⟩
      obtain ⟨b', hb', hib'⟩ := exists_of_forall₂_left hrest hmem
      exact once.1 (key i b b' hib hib' ▸ List.mem_map_of_mem hb')

end Arena

/-- **The walk comes by no path twice.** -/
theorem Node.Valid.nodup_paths {n : Node H} (hn : n.Valid) (depth : Nat) :
    ((n.visits depth).map (·.node.path)).Nodup := by
  induction n using Node.induction generalizing depth with
  | step n ih =>
      -- what is visited below a child goes on with the text of the child
      have hbelow : ∀ c ∈ n.children, ∀ p ∈ (c.visits (depth + 1)).map (·.node.path),
          ∃ more, p = n.path ++ more ∧ more ≠ [] ∧ more.head? = c.text.head? := by
        intro c hc p hp
        obtain ⟨s, first⟩ := mem_children.1 hc
        obtain ⟨v, hv, rfl⟩ := List.mem_map.1 hp
        obtain ⟨segs, hreach⟩ := exists_visit_iff.1 ⟨v, hv, rfl⟩
        have hne := (hn.regular.proper first).ne_nil
        refine ⟨s.text ++ Template.spelled segs, ?_, by simp [hne], ?_⟩
        · rw [(path_of_reach (hn.branch first) hreach).1, hn.regular.path first, List.append_assoc]
        · rw [List.head?_append_of_ne_nil _ hne, first.text_eq]
      rw [visits_eq, List.map_cons, List.map_flatMap, List.nodup_cons, List.nodup_flatMap]
      refine ⟨fun hmem => ?_, fun c hc => ?_, ?_⟩
      · obtain ⟨c, hc, hmem⟩ := List.mem_flatMap.1 hmem
        obtain ⟨more, heq, hne, _⟩ := hbelow c hc _ hmem
        exact hne (by simpa using heq)
      · obtain ⟨s, first⟩ := mem_children.1 hc
        exact ih s c first (hn.branch first) (depth + 1)
      · refine (List.pairwise_map.1 hn.regular.nodup_heads).imp_of_mem ?_
        intro c c' hc hc' hne p hmem hmem'
        obtain ⟨more, rfl, _, head⟩ := hbelow c hc p hmem
        obtain ⟨more', heq, _, head'⟩ := hbelow c' hc' _ hmem'
        rw [List.append_cancel_left_eq] at heq
        exact hne (head.symm.trans (heq ▸ head'))

namespace Arena

variable {a : Arena H} {n : Node H} (ha : a.Wired) (hroot : a.Shows 0 n) (hn : n.Valid)
  {order : List Nat} {depth : Nat} (h : List.Forall₂ a.Visited order (n.visits depth))

include h

/-- No place is come by twice. -/
theorem nodup_of_visited (hn : n.Valid) : order.Nodup := by
  refine nodup_of_forall₂ h (fun j v v' hv hv' => ?_) (hn.nodup_paths depth)
  obtain ⟨c, here, fits⟩ := hv.1.exists_cell
  exact fits.path.symm.trans (hv'.1.children here).1.path

include ha hroot hn

/-- Every place is come by. -/
theorem mem_of_visited {j : Nat} : j ∈ order ↔ j < a.length := by
  constructor
  · intro hj
    obtain ⟨v, _, hshow, _⟩ := exists_of_forall₂_left h hj
    obtain ⟨c, here, _⟩ := hshow.exists_cell
    exact lt_length_of_getElem? here
  · intro hj
    have here : a[j]? = some a[j] := List.getElem?_eq_getElem hj
    obtain ⟨_, e, _, hreach, hshow⟩ := exists_shown ha hroot here
    obtain ⟨v, hv, rfl⟩ := Node.exists_visit_iff.2 ⟨_, hreach⟩
    obtain ⟨i, hi, hvisited⟩ := exists_of_forall₂_left h.flip hv
    obtain ⟨c, hc, fits⟩ := hvisited.1.exists_cell
    have hpath := (hshow.children here).1.path.trans fits.path.symm
    obtain rfl := eq_of_path_eq ha hroot hn here hc hpath
    exact hi

end Arena

/-! ### The lines -/

/-- The pairs of a path and a verb at a visited node. -/
def Visit.pairs (v : Visit H) : List (Text × Verb) :=
  v.node.ownRoutes.map fun p => (p.2.template, p.1)

/-- **The line of a cell below the root is the line of the node that it shows**, and shows its
pairs. -/
theorem Store.Stands.exists_line {s : Store H} {t : Tree H} (hs : s.Stands t) (ht : t.Sound)
    {j : Nat} {v : Visit H} (h : s.cells.Visited j v) (below : 1 ≤ v.depth) :
    ∃ l, s.cells.HasLine j l ∧ l.text = v.line ∧ l.pairs = v.pairs := by
  obtain ⟨hshow, cells, trail, hdepth⟩ := h
  obtain ⟨c, here, fits⟩ := hshow.exists_cell
  have hpath := (Arena.spelled_of_trail hs.wired hs.root ht.valid trail here).1
  rw [ht.path, List.nil_append, fits.path] at hpath
  have hown := (hs.inOrder ht).routes j c
  cases trail with
  | root => simp [hdepth] at below
  | @step cells i _ b d up above listed here' =>
      obtain rfl := Option.some.inj (here'.symm.trans here)
      -- the line is put together from what stands above the cell
      obtain ⟨l, habove, htext, hverbs⟩ : ∃ l : Line, l.above = cells.map Cell.text ∧
          l.own = d.text ∧ l.verbs = v.node.ownRoutes.map Prod.fst := ⟨⟨_, _, _⟩, rfl, rfl, rfl⟩
      have hl : l.path = v.node.path := by
        rw [hpath, Line.path, habove, htext]
        simp [List.flatMap]
      refine ⟨l, ⟨cells, d, .step up above listed here', habove, htext, ?_⟩, ?_, ?_⟩
      · rw [hverbs, fits.routes]
        exact v.node.verbs_ownRoutes
      · have hlegend : l.legend = v.node.legend := by
          rw [Line.legend, Node.legend, hl, hverbs, List.map_map]
          rfl
        have hindent : v.depth - 1 = cells.length := by
          rw [hdepth]
          simp
        rw [Line.text, Visit.line, hlegend, hindent, habove, htext, fits.text, List.length_map]
      · rw [Line.pairs, Visit.pairs, hl, hverbs, List.map_map]
        refine List.map_congr_left fun p hp => ?_
        have hroute := Node.mem_ownRoutes_iff.1 hp
        rw [← fits.routes] at hroute
        simp [(hown p.1 p.2 here hroute).1, fits.path]

namespace Store

variable {s : Store H} {t : Tree H}

/-- **A store is drawn in some lines**, which are those of the cells at some places. -/
structure DrawnAs (s : Store H) (drawing : Text) (order : List Nat) (lines : List Line) :
    Prop where
  /-- The drawing is the lines, one behind the other. -/
  text : drawing = lines.flatMap Line.text
  /-- Each cell but the root has one line. -/
  each : order.Nodup ∧ ∀ j, j ∈ order ↔ j ≠ 0 ∧ j < s.cells.length
  /-- A cell has its line before its children. -/
  preorder : s.cells.Preorder 0 (0 :: order)
  /-- A line is indented and named by the texts on the way down to its cell. -/
  shown : List.Forall₂ s.cells.HasLine order lines
  /-- A line ends with the one line break in it, unless its path has some. -/
  breaks : ∀ l ∈ lines, '\n' ∉ l.path → ∃ content, l.text = content ++ ['\n'] ∧ '\n' ∉ content
  /-- The lines show the pairs that are listed, in their order. -/
  pairs : ∃ listed, s.walk? = some listed ∧
    lines.flatMap Line.pairs = listed.map fun p => (p.2.template, p.1)
  /-- A writer that takes `n` bytes in all gets the first `n` of the drawing, and nothing after it
  has failed; it is told to have got everything if `n` is enough. -/
  print : ∀ (w : Writer) (n : Nat), w.Limited n → ∃ log,
    s.printTo? w = some (log, decide (drawing.bytes.length ≤ n)) ∧
      Offer.taken log = drawing.bytes.take (min n drawing.bytes.length) ∧ Offer.Quiet log
  /-- So does a sink that has room for `n` bytes. -/
  sink : ∀ n, s.print? (.ofRoom n) = some
    (⟨n - drawing.bytes.length, drawing.bytes.take n⟩, decide (drawing.bytes.length ≤ n))

/-- Lines for visits, one by one. -/
theorem exists_lines {a : Arena H} {order : List Nat} {visits : List (Visit H)}
    (h : List.Forall₂ (fun j v => ∃ l, a.HasLine j l ∧ l.text = v.line ∧ l.pairs = v.pairs) order
      visits) :
    ∃ lines, List.Forall₂ a.HasLine order lines ∧
      lines.flatMap Line.text = (visits.map Visit.line).flatten ∧
        lines.flatMap Line.pairs = visits.flatMap Visit.pairs := by
  induction h with
  | nil => exact ⟨[], .nil, rfl, rfl⟩
  | cons hline _ ih =>
      obtain ⟨l, hl, htext, hpairs⟩ := hline
      obtain ⟨lines, hlines, htexts, hallPairs⟩ := ih
      refine ⟨l :: lines, .cons hl hlines, ?_, ?_⟩
      · rw [List.flatMap_cons, List.map_cons, List.flatten_cons, htext, htexts]
      · rw [List.flatMap_cons, List.flatMap_cons, hpairs, hallPairs]

/-- The pairs that are listed are those of the visits below the root. -/
theorem pairs_visitsBelow (ht : t.Sound) :
    t.visitsBelow.flatMap Visit.pairs = t.walk.map fun p => (p.2.template, p.1) := by
  have hroot : t.root.ownRoutes = [] := by
    refine List.eq_nil_iff_forall_not_mem.2 fun p hp => ?_
    have h := Node.mem_ownRoutes_iff.1 hp
    rw [ht.bare] at h
    cases h
  rw [Tree.walk, Node.visits_eq, List.flatMap_cons, hroot, List.nil_append, List.map_flatMap]
  rfl

/-- **The places of a store but the root, in the order of the walk**: each of them once. -/
theorem Stands.exists_order (hs : s.Stands t) (ht : t.Sound) :
    ∃ order, s.cells.Preorder 0 (0 :: order) ∧ order.Nodup ∧
      (∀ j, j ∈ order ↔ j ≠ 0 ∧ j < s.cells.length) ∧
        List.Forall₂ s.cells.Visited order t.visitsBelow := by
  obtain ⟨places, hplaces, hvisited⟩ := hs.root.exists_preorder (.root : s.cells.Trail [] 0)
  obtain ⟨order, rfl⟩ : ∃ order, places = 0 :: order := by
    cases hplaces
    exact ⟨_, rfl⟩
  obtain ⟨hzero, hnodup⟩ := List.nodup_cons.1 (Arena.nodup_of_visited hvisited ht.valid)
  refine ⟨order, hplaces, hnodup, fun j => ?_, ?_⟩
  · rw [← Arena.mem_of_visited hs.wired hs.root ht.valid hvisited, List.mem_cons]
    constructor
    · intro hj
      exact ⟨fun heq => hzero (heq ▸ hj), Or.inr hj⟩
    · intro hj
      exact hj.2.resolve_left hj.1
  · rw [Node.visits_eq] at hvisited
    cases hvisited with
    | cons _ h => exact h

/-- **A store is drawn line by line.** -/
theorem Stands.exists_drawnAs (hs : s.Stands t) (ht : t.Sound) :
    ∃ order lines, s.DrawnAs t.rendering order lines := by
  obtain ⟨order, hplaces, hnodup, hall, hvisited⟩ := hs.exists_order ht
  obtain ⟨lines, hlines, htext, hpairs⟩ := exists_lines <|
    Arena.forall₂_of_mem hvisited fun j v hv hj => hs.exists_line ht hj (Tree.le_depth_of_mem hv)
  refine ⟨order, lines, htext.symm, ⟨hnodup, hall⟩, hplaces, hlines,
    fun l _ => l.exists_content, ?_, ?_, ?_⟩
  · exact ⟨_, hs.walk?_eq, hpairs.trans (pairs_visitsBelow ht)⟩
  · intro w n hw
    obtain ⟨out, hprint, hwrote⟩ := hs.printTo?_eq hw
    refine ⟨out.1, ?_, ?_, hwrote.quiet⟩
    · rw [hprint, ← hwrote.flag]
    · rw [hwrote.taken, ← List.take_eq_take_min]
  · intro n
    rw [hs.print?_eq, Tree.print, Sink.writeAll_eq]
    rfl

/-- The text `/é/`, the end of its line and one of two blanks are six bytes. -/
example : ((empty.run [.add "/é/:x".toList 0 [Verb.get.method]]).bind fun s =>
      s.printTo? (.ofRoom 6)).map (fun out => (out.1.map Offer.took, out.2)) =
    some ([4, 1, 1, 0], false) := by
  decide +kernel

end Store

end RouteTree
