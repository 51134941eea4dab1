/-
**Which events are logged.**

A filter is a list of directives.  Of the directives that apply to an event the one with the longest
target decides; of two about the same the later one counts.

Main definitions:

* `Filter` — directives in order, with `Filter.add`;
* `Filter.shows` — whether an event is logged;
* `Filter.ofSettings` — the filter that the settings ask for, and what is wrong with them.
-/
import RouteTree.Log.Directive
import RouteTree.Settings

set_option autoImplicit false
set_option relaxedAutoImplicit false

namespace RouteTree

/-- Directives, the later ones in front. -/
abbrev Filter := List Directive

namespace Filter

/-- The filter that logs events up to a level. -/
def upTo (level : Level) : Filter := [⟨level.rank, none, none, none⟩]

/-- A filter with one more directive, which replaces one about the same. -/
def add (f : Filter) (d : Directive) : Filter := d :: f.filter (!d.sameScope ·)

/-- The narrowest directive that applies to an event. -/
def deciding (f : Filter) (e : Event) : Option Directive :=
  (f.filter (·.applies e)).foldl (fun best d =>
    match best with
    | none => some d
    | some b => if d.isNarrower b then some d else some b) none

/-- **Whether an event is logged.** -/
def shows (f : Filter) (e : Event) : Bool := (f.deciding e).any (e.level.rank ≤ ·.rank)

/-- The pieces of a text between its commas. -/
def pieces (t : Text) : List Text := t.splitOn ','

/-- A filter that is given as a whole; one directive that cannot be read spoils it.  No directive
at all logs errors. -/
def ofText? (t : Text) : Option Filter :=
  let parts := (pieces t).filter (· ≠ [])
  if parts = [] then some (upTo .error)
  else (parts.mapM Directive.ofText?).map (·.foldl add [])

/-- **The filter that the settings ask for**, and the directives among them that cannot be read.
A filter given as a whole takes the place of the level. -/
def ofSettings (c : LogConfig) (whole : Option Text) : Filter × List Text :=
  let base := (whole.bind ofText?).getD (upTo c.level)
  let extra := ((pieces (c.targetFilter.getD [])).map Text.trimmed).filter (· ≠ [])
  (extra.filterMap Directive.ofText? |>.foldl add base,
    extra.filter fun t => (Directive.ofText? t).isNone)

end Filter

end RouteTree
