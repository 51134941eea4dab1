/-
**Looking a path up in an arena, byte by byte.**

In an arena a path is followed from cell to cell.  The literal children of a cell are told apart by
their first bytes before they are compared in full, the path is cut where the text of a cell ends or
where a slash is found, and the value of a placeholder goes to a place that only placeholders have.
An index that is not in the row, a first byte that is not there, a cut within a character and a
place that is asked of a literal cell all give no answer.  As the text of every cell that is gone
through has a first byte, less of the path is left at each cell, and a look-up comes to an end.

In an arena that lays a tree out, every look-up has an answer: the one that the tree gives.

Main definitions:

* `Arena.takeRest?`, `Arena.endAt?`, `Arena.arrive?` — the end of a path;
* `Arena.lookup?` — **following the rest of a path below a cell**;
* `Store.find?` — looking a path up in a store.

Main results:

* `Arena.Shows.arrive?_eq` — the end of a path is answered as in the tree;
* `Arena.answers` — **a look-up below a cell is answered as one below the node it shows**;
* `Store.Stands.find?_eq` — a store finds what the tree that it stands for finds.
-/
import RouteTree.Proofs.ByteTexts
import RouteTree.Proofs.Finding
import RouteTree.Proofs.Stores

set_option autoImplicit false
set_option relaxedAutoImplicit false

namespace RouteTree

variable {H : Type}

/-! ### Cells -/

namespace Cell

/-- The route that a cell has for a method. -/
def route? (c : Cell H) (m : Method) : Option (Route H) := m.verb?.bind c.routes

/-- The place of a placeholder's value.  A literal cell has none. -/
def slot? (c : Cell H) : Option Nat :=
  if c.kind = .literal then none else some (c.params.length - 1)

theorem Fits.route?_eq {c : Cell H} {n : Node H} (h : c.Fits n) (m : Method) :
    c.route? m = n.route? m := by
  rw [route?, Node.route?, h.routes]

/-- The child in the place of a placeholder has a place for its value. -/
theorem Hangs.slot?_eq {d c : Cell H} {k : Segment.Kind} {i : Nat} (h : d.Hangs k i c)
    (hk : k ≠ .literal) {n : Node H} (fits : d.Fits n) : d.slot? = some n.slot := by
  rw [slot?, if_neg (h.kind ▸ hk), Node.slot, fits.params]

end Cell

/-- A wildcard notes no chance. -/
theorem Node.toggled_of_lookupWildcard {m : Method} {wildcard : Option (Node H)} {rest : Text}
    {values values' : Values} {toggled : Bool}
    (h : lookupWildcard m wildcard rest values = (.miss toggled, values')) : toggled = false := by
  unfold lookupWildcard at h
  split at h
  · simp_all
  · split at h <;> simp_all

namespace Arena

/-! ### The end of a path -/

/-- The wildcard of a cell, if it has a route, takes a value. -/
def takeRest? (a : Arena H) (m : Method) (c : Cell H) (value : Text) (values : Values) :
    Option (Lookup H × Values) :=
  match c.wildcard with
  | none => some (.miss false, values)
  | some j => do
      let w ← a[j]?
      match w.route? m with
      | none => some (.miss false, values)
      | some r => do
          let slot ← w.slot?
          some (.hit r, values.set slot value)

/-- The route for a path that ends at a cell: its own, or that of its wildcard. -/
def endAt? (a : Arena H) (m : Method) (id : Nat) (values : Values) :
    Option (Lookup H × Values) := do
  let c ← a[id]?
  match c.route? m with
  | some r => some (.hit r, values)
  | none => a.takeRest? m c [] values

/-- Whether a path that ends at a cell has a route. -/
def routesAtEnd? (a : Arena H) (m : Method) (id : Nat) : Option Bool := do
  let c ← a[id]?
  match c.route? m, c.wildcard with
  | some _, _ => some true
  | none, none => some false
  | none, some j => do
      let w ← a[j]?
      some (w.route? m).isSome

/-- Whether one of some cells is a lone slash, and a path that ends there has a route. -/
def slashRoutes? (a : Arena H) (m : Method) : List Nat → Option Bool
  | [] => some false
  | j :: js => do
      let d ← a[j]?
      if d.text = ['/'] then do
        if ← a.routesAtEnd? m j then some true else slashRoutes? a m js
      else slashRoutes? a m js

/-- The answer for a path that ends at a cell. -/
def arrive? (a : Arena H) (m : Method) (id : Nat) (values : Values) :
    Option (Lookup H × Values) := do
  match ← a.endAt? m id values with
  | (.hit r, values) => some (.hit r, values)
  | (.miss _, values) => do
      let c ← a[id]?
      let toggled ← a.slashRoutes? m c.literals
      some (.miss toggled, values)

/-! ### The way of a path -/

mutual

/-- **Follow the rest of a path below a cell.**  A lone slash that the cell itself could do without
is noted as a chance. -/
def lookup? (a : Arena H) (m : Method) (id : Nat) (rest : Text) (values : Values) :
    Option (Lookup H × Values) := do
  let c ← a[id]?
  let noted := decide (rest = ['/']) && (c.route? m).isSome
  match ← lookupLiteral? a m c.literals rest values with
  | (.hit r, values) => some (.hit r, values)
  | (.miss toggled, values) =>
      match ← lookupParam? a m c.param rest values with
      | (.hit r, values) => some (.hit r, values)
      | (.miss toggled', values) =>
          match ← a.takeRest? m c rest values with
          | (.hit r, values) => some (.hit r, values)
          | (.miss _, values) => some (.miss (noted || toggled || toggled'), values)
termination_by (rest.size, 3, 0)

/-- Follow the rest of a path through the literal child that it begins with. -/
def lookupLiteral? (a : Arena H) (m : Method) (ids : List Nat) (rest : Text) (values : Values) :
    Option (Lookup H × Values) :=
  match rest.bytes.head? with
  | none => some (.miss false, values)
  | some first => lookupAmong? a m first ids rest values
termination_by (rest.size, 2, 0)

/-- Follow the rest of a path, which begins with the byte `first`, through one of some cells. -/
def lookupAmong? (a : Arena H) (m : Method) (first : UInt8) (ids : List Nat) (rest : Text)
    (values : Values) : Option (Lookup H × Values) :=
  match ids with
  | [] => some (.miss false, values)
  | id :: ids => do
      let d ← a[id]?
      match _byte : d.text.bytes.head? with
      | none => none
      | some byte =>
          if byte ≠ first then lookupAmong? a m first ids rest values
          else if d.text.size < rest.size then
            if (Text.after? d.text rest).isSome then
              match _rest : rest.from? d.text.size with
              | none => none
              | some more => lookup? a m id more values
            else lookupAmong? a m first ids rest values
          else if rest = d.text then a.arrive? m id values
          else if d.text.size = rest.size + 1 ∧ d.text.getLast? = some '/' ∧
              (Text.after? rest d.text).isSome then do
            let toggled ← a.routesAtEnd? m id
            some (.miss toggled, values)
          else lookupAmong? a m first ids rest values
termination_by (rest.size, 1, ids.length)
decreasing_by
  all_goals first
    | decreasing_tactic
    | exact .left _ _ (Text.size_lt_of_from? ‹_› (Text.size_pos_of_head? ‹_›))

/-- Follow the rest of a path through the parameter, which captures all up to the next slash. -/
def lookupParam? (a : Arena H) (m : Method) (param : Option Nat) (rest : Text) (values : Values) :
    Option (Lookup H × Values) :=
  match param with
  | none => some (.miss false, values)
  | some id =>
      let stop := (rest.byteOf? '/').getD rest.size
      if stop = 0 then some (.miss false, values)
      else do
        let d ← a[id]?
        let slot ← d.slot?
        let value ← rest.slice? 0 stop
        if stop < rest.size then
          match _rest : rest.from? stop with
          | none => none
          | some more => lookup? a m id more (values.set slot value)
        else a.arrive? m id (values.set slot value)
termination_by (rest.size, 1, 0)
decreasing_by exact .left _ _ (Text.size_lt_of_from? ‹_› (Nat.pos_of_ne_zero ‹_›))

end

/-! ### The end of a path is answered -/

namespace Shows

variable {a : Arena H} {id : Nat} {c : Cell H} {n : Node H}

/-- The child in the place of a placeholder is a cell that shows the child of the node there, and
has a place for its value. -/
theorem placed_cases (ha : a.Wired) (here : a[id]? = some c) {k : Segment.Kind} (hk : k ≠ .literal)
    {place : Option Nat} {child : Option (Node H)} (h : Option.Rel a.Shows place child)
    (links : ∀ j, place = some j → c.Links k j) :
    (place = none ∧ child = none) ∨ ∃ j d p, place = some j ∧ child = some p ∧
      a[j]? = some d ∧ d.Fits p ∧ d.slot? = some p.slot ∧ a.Shows j p := by
  cases child with
  | none => exact Or.inl ⟨eq_none_of_rel h rfl, rfl⟩
  | some p =>
      obtain ⟨j, hj, hshow⟩ := exists_of_rel_right h rfl
      obtain ⟨d, hd, fits⟩ := hshow.exists_cell
      have hangs := ha.eq_of_links here (links j hj) hd
      exact Or.inr ⟨j, d, p, hj, rfl, hd, fits, hangs.slot?_eq hk fits, hshow⟩

theorem wildcard_cases (ha : a.Wired) (h : a.Shows id n) (here : a[id]? = some c) :
    (c.wildcard = none ∧ n.wildcard = none) ∨ ∃ j d w, c.wildcard = some j ∧
      n.wildcard = some w ∧ a[j]? = some d ∧ d.Fits w ∧ d.slot? = some w.slot ∧ a.Shows j w :=
  placed_cases ha here (by decide) (h.children here).2.2.2 fun _ => .wildcard

theorem param_cases (ha : a.Wired) (h : a.Shows id n) (here : a[id]? = some c) :
    (c.param = none ∧ n.param = none) ∨ ∃ j d p, c.param = some j ∧ n.param = some p ∧
      a[j]? = some d ∧ d.Fits p ∧ d.slot? = some p.slot ∧ a.Shows j p :=
  placed_cases ha here (by decide) (h.children here).2.2.1 fun _ => .param

/-- The wildcard of a cell takes what that of the node takes. -/
theorem takeRest?_eq (ha : a.Wired) (h : a.Shows id n) (here : a[id]? = some c) (m : Method)
    (value : Text) (values : Values) :
    a.takeRest? m c value values = some (Node.lookupWildcard m n.wildcard value values) := by
  rcases h.wildcard_cases ha here with ⟨hc, hn⟩ | ⟨j, d, w, hc, hn, hd, fits, hslot, _⟩
  · simp [takeRest?, Node.lookupWildcard, hc, hn]
  · cases hr : w.route? m <;>
      simp [takeRest?, Node.lookupWildcard, hc, hn, hd, fits.route?_eq, hr, hslot]

/-- A path that ends at a cell has a route when one that ends at the node has one. -/
theorem routesAtEnd?_eq (ha : a.Wired) (h : a.Shows id n) (m : Method) :
    a.routesAtEnd? m id = some (n.routesAtEnd m) := by
  obtain ⟨c, here, fits⟩ := h.exists_cell
  cases hr : n.route? m with
  | some r => simp [routesAtEnd?, Node.routesAtEnd, Node.endRoute?, here, fits.route?_eq, hr]
  | none =>
      rcases h.wildcard_cases ha here with ⟨hc, hn⟩ | ⟨j, d, w, hc, hn, hd, fits', _, _⟩
      · simp [routesAtEnd?, Node.routesAtEnd, Node.endRoute?, here, fits.route?_eq, hr, hc, hn]
      · simp [routesAtEnd?, Node.routesAtEnd, Node.endRoute?, here, fits.route?_eq, hr, hc, hn, hd,
          fits'.route?_eq]

end Shows

/-- Some cells have a route behind a lone slash when the nodes that they show have one. -/
theorem slashRoutes?_eq {a : Arena H} (ha : a.Wired) (m : Method) {ids : List Nat}
    {cs : List (Node H)} (h : List.Forall₂ a.Shows ids cs) :
    a.slashRoutes? m ids = some (cs.any fun c => c.text = ['/'] && c.routesAtEnd m) := by
  induction h with
  | nil => rfl
  | @cons j c js cs hshow _ ih =>
      obtain ⟨d, hd, fits⟩ := hshow.exists_cell
      by_cases htext : c.text = ['/']
      · cases hend : c.routesAtEnd m <;>
          simp [slashRoutes?, hd, fits.text, htext, hshow.routesAtEnd?_eq ha, hend, ih]
      · simp [slashRoutes?, hd, fits.text, htext, ih]

/-- **The end of a path is answered as in the tree.** -/
theorem Shows.arrive?_eq {a : Arena H} {id : Nat} {n : Node H} (ha : a.Wired) (h : a.Shows id n)
    (m : Method) (values : Values) : a.arrive? m id values = some (n.lookupEnd m values) := by
  obtain ⟨c, here, fits⟩ := h.exists_cell
  obtain ⟨_, hliterals, _⟩ := h.children here
  have hslash : a.slashRoutes? m c.literals = some (n.routesAfterSlash m) :=
    slashRoutes?_eq ha m hliterals
  cases hr : n.route? m with
  | some r =>
      simp [arrive?, endAt?, here, fits.route?_eq, hr, Node.lookupEnd, Node.endRoute?,
        Node.endValues]
  | none =>
      have htake := h.takeRest?_eq ha here m [] values
      cases hwildcard : n.wildcard with
      | none =>
          simp [arrive?, endAt?, here, fits.route?_eq, hr, htake, hslash, hwildcard,
            Node.lookupWildcard, Node.lookupEnd, Node.endRoute?]
      | some w =>
          cases hw : w.route? m <;>
            simp [arrive?, endAt?, here, fits.route?_eq, hr, htake, hslash, hwildcard, hw,
              Node.lookupWildcard, Node.lookupEnd, Node.endRoute?, Node.endValues]

/-! ### The way of a path is answered -/

/-- A text is another one with a slash more when it is one byte longer, ends in a slash and begins
with the other one. -/
theorem slash_more_iff {text rest : Text} :
    (text.size = rest.size + 1 ∧ text.getLast? = some '/' ∧ (Text.after? rest text).isSome) ↔
      text = rest ++ ['/'] := by
  constructor
  · rintro ⟨hsize, hlast, hbegins⟩
    obtain ⟨u, hu⟩ := Option.isSome_iff_exists.1 hbegins
    obtain rfl := Text.after?_eq_some_iff.1 hu
    rw [Text.size_append] at hsize
    have hne : u ≠ [] := by
      rintro rfl
      simp at hsize
    obtain ⟨init, hinit⟩ : ∃ init, u = init ++ ['/'] := by
      rw [List.getLast?_append_of_ne_nil _ hne] at hlast
      exact List.getLast?_eq_some_iff.1 hlast
    have hslash : Text.size ['/'] = 1 := by decide
    rw [hinit, Text.size_append, hslash] at hsize
    obtain rfl : init = [] := Text.size_eq_zero_iff.1 (by omega)
    rw [hinit, List.nil_append]
  · rintro rfl
    have hslash : Text.size ['/'] = 1 := by decide
    simp [hslash]

section Among

variable {a : Arena H} {m : Method} {id : Nat} {ids : List Nat} {d : Cell H} {rest : Text}
  {first : UInt8}

/-- A cell is passed over if the rest of the path does not go through it. -/
theorem lookupAmong?_skip (hd : a[id]? = some d) (hne : d.text ≠ [])
    (apart : Text.after? d.text rest = none) (noSlash : d.text ≠ rest ++ ['/'])
    (values : Values) :
    a.lookupAmong? m first (id :: ids) rest values = a.lookupAmong? m first ids rest values := by
  obtain ⟨byte, hbyte⟩ := Text.exists_head?_bytes hne
  have hdiff : rest ≠ d.text := by
    rintro rfl
    have hself : Text.after? d.text d.text = some [] := by simpa using Text.after?_append d.text []
    rw [hself] at apart
    cases apart
  rw [lookupAmong?, hd, Option.bind_eq_bind, Option.bind_some, hbyte]
  simp [apart, hdiff, slash_more_iff, noSlash]

/-- A cell is followed if the rest of the path begins with its text. -/
theorem lookupAmong?_through (hd : a[id]? = some d) {more : Text}
    (hfirst : d.text.bytes.head? = some first) (hmore : more ≠ []) (values : Values) :
    a.lookupAmong? m first (id :: ids) (d.text ++ more) values = a.lookup? m id more values := by
  have hless : d.text.size < (d.text ++ more).size := Text.size_lt_append_iff.2 hmore
  rw [lookupAmong?, hd, Option.bind_eq_bind, Option.bind_some, hfirst]
  simp only [hless, Text.after?_append, ne_eq, not_true_eq_false, if_false, if_true,
    Option.isSome_some]
  rw [Text.from?_append]

/-- The path ends at a cell that has its rest as its text. -/
theorem lookupAmong?_end (hd : a[id]? = some d) (hfirst : d.text.bytes.head? = some first)
    (values : Values) :
    a.lookupAmong? m first (id :: ids) d.text values = a.arrive? m id values := by
  rw [lookupAmong?, hd, Option.bind_eq_bind, Option.bind_some, hfirst]
  simp

/-- A cell that lacks nothing but the rest of the path and a slash is a chance. -/
theorem lookupAmong?_toggled (hd : a[id]? = some d) (text : d.text = rest ++ ['/'])
    (hfirst : d.text.bytes.head? = some first) (values : Values) :
    a.lookupAmong? m first (id :: ids) rest values =
      (a.routesAtEnd? m id).map fun toggled => (.miss toggled, values) := by
  have hless : ¬ d.text.size < rest.size := by
    rw [text, Text.size_append]
    omega
  have hdiff : rest ≠ d.text := by simp [text]
  rw [lookupAmong?, hd, Option.bind_eq_bind, Option.bind_some, hfirst]
  simp only [hless, hdiff, ne_eq, not_true_eq_false, if_false]
  rw [if_pos (slash_more_iff.2 text)]
  cases a.routesAtEnd? m id <;> rfl

end Among

/-- **Look-ups below the cells that show a node are answered as those below the node.** -/
def Answers (a : Arena H) (m : Method) (n : Node H) : Prop :=
  ∀ {id : Nat} {rest : Text}, a.Shows id n → rest ≠ [] →
    ∀ values, a.lookup? m id rest values = some (n.lookup m rest values)

/-- The literal children of a cell answer as those of the node do. -/
theorem lookupAmong?_eq {a : Arena H} (ha : a.Wired) {m : Method} {ids : List Nat}
    {cs : List (Node H)} (h : List.Forall₂ a.Shows ids cs) (nonempty : ∀ c ∈ cs, c.text ≠ [])
    (onward : ∀ c ∈ cs, a.Answers m c) {rest : Text} {first : UInt8}
    (hfirst : rest.bytes.head? = some first) (values : Values) :
    a.lookupAmong? m first ids rest values = some (Node.lookupLiteral m cs rest values) := by
  have hrest : rest ≠ [] := by
    rintro rfl
    cases hfirst
  induction h with
  | nil =>
      rw [lookupAmong?, Node.lookupLiteral]
  | @cons id c ids cs hshow _ ih =>
      obtain ⟨d, hd, fits⟩ := hshow.exists_cell
      have hne : d.text ≠ [] := fits.text ▸ nonempty c List.mem_cons_self
      have hnext := ih (fun c hc => nonempty c (List.mem_cons_of_mem _ hc))
        fun c hc => onward c (List.mem_cons_of_mem _ hc)
      cases hafter : Text.after? c.text rest with
      | some more =>
          obtain rfl := Text.after?_eq_some_iff.1 hafter
          rw [Text.head?_bytes_append (nonempty c List.mem_cons_self), ← fits.text] at hfirst
          rw [Node.lookupLiteral_cons_append, Node.answer, ← fits.text]
          by_cases hmore : more = []
          · rw [if_pos hmore, hmore, List.append_nil, lookupAmong?_end hd hfirst,
              hshow.arrive?_eq ha]
          · rw [if_neg hmore, lookupAmong?_through hd hfirst hmore,
              onward c List.mem_cons_self hshow hmore]
      | none =>
          rw [Node.lookupLiteral_cons_of_none hafter]
          by_cases hslash : c.text = rest ++ ['/']
          · have hbyte : d.text.bytes.head? = some first := by
              rw [fits.text, hslash, Text.head?_bytes_append hrest, hfirst]
            rw [if_pos hslash, lookupAmong?_toggled hd (fits.text.trans hslash) hbyte,
              hshow.routesAtEnd?_eq ha]
            rfl
          · rw [if_neg hslash, lookupAmong?_skip hd hne (fits.text ▸ hafter) (fits.text ▸ hslash),
              hnext]

/-- The parameter of a cell answers as that of the node does. -/
theorem Shows.lookupParam?_eq {a : Arena H} {id : Nat} {c : Cell H} {n : Node H} (ha : a.Wired)
    (h : a.Shows id n) (here : a[id]? = some c) {m : Method}
    (onward : ∀ p, n.param = some p → a.Answers m p) (rest : Text) (values : Values) :
    a.lookupParam? m c.param rest values = some (Node.lookupParam m n.param rest values) := by
  rcases h.param_cases ha here with ⟨hc, hn⟩ | ⟨j, d, p, hc, hn, hd, _, hslot, hshow⟩
  · rw [hc, hn, lookupParam?, Node.lookupParam]
  rw [hc, hn, lookupParam?, Node.lookupParam_some, Node.answer]
  have hstop : (rest.byteOf? '/').getD rest.size = Text.size (rest.takeWhile Template.isWithin) :=
    Text.byteOf?_getD rest '/'
  obtain ⟨hvalue, hmore, hless⟩ := Text.cut_takeWhile Template.isWithin rest
  simp only [hstop, Text.size_eq_zero_iff, hd, hslot, hvalue, hless, Option.bind_eq_bind,
    Option.bind_some, ne_eq, ite_not]
  by_cases hempty : rest.takeWhile Template.isWithin = []
  · rw [if_pos hempty, if_pos hempty]
  · rw [if_neg hempty, if_neg hempty]
    by_cases hlast : rest.dropWhile Template.isWithin = []
    · rw [if_pos hlast, if_pos hlast, hshow.arrive?_eq ha]
    · rw [if_neg hlast, if_neg hlast, hstop, hmore]
      exact onward p hn hshow hlast _

/-- **Look-ups below every cell that shows a valid node are answered.** -/
theorem answers {a : Arena H} (ha : a.Wired) (m : Method) {n : Node H} (hn : n.Valid) :
    a.Answers m n := by
  induction n using Node.induction with
  | step n ih =>
      intro id rest h hrest values
      obtain ⟨c, here, fits⟩ := h.exists_cell
      obtain ⟨_, hliterals, _⟩ := h.children here
      have honward : ∀ s c, n.Branch s c → a.Answers m c := fun s c first =>
        ih s c first (hn.branch first)
      obtain ⟨first, hfirst⟩ := Text.exists_head?_bytes hrest
      have hliteral : ∀ values, a.lookupLiteral? m c.literals rest values =
          some (Node.lookupLiteral m n.literals rest values) := by
        intro values
        rw [lookupLiteral?, hfirst]
        exact lookupAmong?_eq ha hliterals
          (fun c hc => (hn.regular.proper (.literal hc)).ne_nil)
          (fun c hc => honward _ c (.literal hc)) hfirst values
      have hparam := h.lookupParam?_eq ha here (m := m) (fun p hp => honward _ p (.param hp)) rest
      have htake := h.takeRest?_eq ha here m rest
      rw [lookup?, Node.lookup_eq]
      simp only [here, hliteral, hparam, htake, fits.route?_eq, Option.bind_eq_bind,
        Option.bind_some]
      rcases hl : Node.lookupLiteral m n.literals rest values with ⟨r | toggled, values₁⟩
      · simp only [Lookup.orElse, hl]
      · rcases hp : Node.lookupParam m n.param rest values₁ with ⟨r | toggled', values₂⟩
        · simp only [Lookup.orElse, hl, hp]
        · rcases hw : Node.lookupWildcard m n.wildcard rest values₂ with ⟨r | toggled'', values₃⟩
          · simp only [Lookup.orElse, hl, hp, hw]
          · obtain rfl := Node.toggled_of_lookupWildcard hw
            simp only [Lookup.orElse, hl, hp, hw, Bool.or_false, Bool.or_assoc]

end Arena

/-- **Look a path up in a store.** -/
def Store.find? (s : Store H) (m : Method) (path : Text) (values : Values) : Option (Found H) :=
  if path = [] then some ⟨none, false, values⟩
  else do
    match ← s.cells.lookup? m 0 path values with
    | (.hit r, values) => some ⟨some r, false, values⟩
    | (.miss toggled, values) => some ⟨none, toggled, values⟩

namespace Store

/-- **A store finds what the tree that it stands for finds.** -/
theorem Stands.find?_eq {s : Store H} {t : Tree H} (hs : s.Stands t) (ht : t.Sound) (m : Method)
    (path : Text) (values : Values) : s.find? m path values = some (t.find m path values) := by
  rw [find?, Tree.find]
  split
  · rfl
  · rename_i hpath
    rw [Arena.answers hs.wired m ht.valid hs.root hpath]
    rcases t.root.lookup m path values with ⟨r | toggled, values⟩ <;> rfl

end Store

end RouteTree
