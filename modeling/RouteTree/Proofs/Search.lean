/-
**What a search has to answer.**

A look-up tries branch after branch and takes the first route that it meets.  What it should find
is said here without trying: the *ways* of a branch are all routes that a path leads to along it,
with the values that their placeholders take.  An answer meets the ways of a branch when it is the
one that outranks all others, with its values in their places, or when there is no way and the
answer says truly whether the other spelling of the path has one.  Trying two branches in turn
meets the ways of both together, if the first ones outrank the second ones.

Main definitions:

* `Text.Toggles` — a path has a slash more at its end than another one, or one less;
* `Ways`, `Ways.either`, `Ways.behind`, `Ways.captured` — ways, and how larger ones are made;
* `Values.Keeps`, `Values.Stores` — what stands in a buffer after a search;
* `Lookup.Meets` — **an answer is right for some ways**.

Main results:

* `Lookup.meets_nothing` — nothing to be found;
* `Lookup.meets_orElse` — one branch after the other;
* `Lookup.Meets.behind`, `Lookup.Meets.captured` — behind a literal run, and behind a parameter.
-/
import RouteTree.Proofs.Matching
import RouteTree.Tree.Lookup

set_option autoImplicit false
set_option relaxedAutoImplicit false

namespace RouteTree

variable {H : Type}

/-! ### The other spelling of a path -/

/-- Two paths that differ by one slash at the end. -/
def Text.Toggles (path other : Text) : Prop := other = path ++ ['/'] ∨ path = other ++ ['/']

/-- A common beginning does not count. -/
theorem Text.toggles_append_iff {start path other : Text} :
    (start ++ path).Toggles (start ++ other) ↔ path.Toggles other := by
  simp only [Text.Toggles, List.append_assoc, List.append_right_inj]

/-- A path, its other spellings, and whatever they begin with: one character decides. -/
theorem Text.head?_of_toggles {path p : Text} (hne : path ≠ []) (h : p = path ∨ path.Toggles p) :
    p = [] ∨ p.head? = path.head? := by
  obtain ⟨x, more, rfl⟩ := List.exists_cons_of_ne_nil hne
  rcases h with rfl | rfl | h
  · exact Or.inr rfl
  · exact Or.inr rfl
  · cases p with
    | nil => exact Or.inl rfl
    | cons y p => exact Or.inr (congrArg List.head? h).symm

/-- A value and what follows it are known from the two together, if a slash follows or nothing. -/
theorem Text.span_unique {value value' more more' : Text}
    (within : ∀ c ∈ value, Template.isWithin c = true)
    (within' : ∀ c ∈ value', Template.isWithin c = true)
    (opens : ∀ c ∈ more.head?, c = '/') (opens' : ∀ c ∈ more'.head?, c = '/')
    (h : value ++ more = value' ++ more') : value = value' ∧ more = more' := by
  obtain ⟨ht, hd⟩ := Template.span_within within opens
  obtain ⟨ht', hd'⟩ := Template.span_within within' opens'
  exact ⟨by rw [← ht, h, ht'], by rw [← hd, h, hd']⟩

theorem Text.opens_append_slash {more : Text} (opens : ∀ c ∈ more.head?, c = '/') :
    ∀ c ∈ (more ++ ['/']).head?, c = '/' := by
  cases more with
  | nil => simp
  | cons x more => simpa using opens

/-- The same for a path and its other spelling. -/
theorem Text.span_unique_of_toggles {value value' more more' : Text}
    (within : ∀ c ∈ value, Template.isWithin c = true)
    (within' : ∀ c ∈ value', Template.isWithin c = true)
    (opens : ∀ c ∈ more.head?, c = '/') (opens' : ∀ c ∈ more'.head?, c = '/')
    (h : (value ++ more).Toggles (value' ++ more')) : value = value' ∧ more.Toggles more' := by
  rcases h with h | h
  · rw [List.append_assoc] at h
    obtain ⟨rfl, rfl⟩ := Text.span_unique within' within opens' (opens_append_slash opens) h
    exact ⟨rfl, Or.inl rfl⟩
  · rw [List.append_assoc] at h
    obtain ⟨rfl, rfl⟩ := Text.span_unique within within' opens (opens_append_slash opens') h
    exact ⟨rfl, Or.inr rfl⟩

/-! ### Ways -/

/-- Which routes a path leads to, and with which values. -/
abbrev Ways (H : Type) := Text → Route H → List Text → Prop

namespace Ways

/-- The ways of two branches together. -/
def either (first second : Ways H) : Ways H := fun path r captured =>
  first path r captured ∨ second path r captured

/-- Ways that begin behind a literal run. -/
def behind (run : Text) (ways : Ways H) : Ways H := fun path r captured =>
  ∃ more, path = run ++ more ∧ ways more r captured

/-- Ways that begin behind the value of a parameter. -/
def captured (ways : Ways H) : Ways H := fun path r values =>
  ∃ value more others, path = value ++ more ∧ values = value :: others ∧ value ≠ [] ∧
    (∀ c ∈ value, Template.isWithin c = true) ∧ ways more r others

/-- There is a way for a path. -/
def Some (ways : Ways H) (path : Text) : Prop := ∃ r captured, ways path r captured

theorem some_either_iff {first second : Ways H} {path : Text} :
    (either first second).Some path ↔ first.Some path ∨ second.Some path := by
  simp only [Some, either, exists_or]

end Ways

/-! ### Buffers -/

namespace Values

/-- A buffer is as long as before, and its first `k` places have been left alone. -/
def Keeps (k : Nat) (values after : Values) : Prop :=
  after.length = values.length ∧ ∀ i < k, after[i]? = values[i]?

/-- Values stand in a buffer from place `k` on, as far as it goes. -/
def Stores (k : Nat) (captured : List Text) (after : Values) : Prop :=
  ∀ i < captured.length, k + i < after.length → after[k + i]? = captured[i]?

theorem Keeps.refl (k : Nat) (values : Values) : Keeps k values values := ⟨rfl, fun _ _ => rfl⟩

theorem Keeps.trans {k : Nat} {values mid after : Values} (h₁ : Keeps k values mid)
    (h₂ : Keeps k mid after) : Keeps k values after :=
  ⟨h₂.1.trans h₁.1, fun i hi => (h₂.2 i hi).trans (h₁.2 i hi)⟩

/-- Writing to place `k` or behind it leaves the first `k` places alone. -/
theorem Keeps.of_set {k : Nat} {values after : Values} {value : Text}
    (h : Keeps (k + 1) (values.set k value) after) : Keeps k values after := by
  refine ⟨by simpa using h.1, fun i hi => ?_⟩
  rw [h.2 i (by omega), List.getElem?_set_ne (by omega)]

theorem keeps_set (k : Nat) (values : Values) (value : Text) :
    Keeps k values (values.set k value) := (Keeps.refl _ _).of_set

theorem stores_nil (k : Nat) (after : Values) : Stores k [] after := fun _ hi =>
  absurd hi (Nat.not_lt_zero _)

/-- A value that was written first, and the values that were written behind it. -/
theorem Stores.cons {k : Nat} {values after : Values} {value : Text} {others : List Text}
    (hkept : Keeps (k + 1) (values.set k value) after) (h : Stores (k + 1) others after) :
    Stores k (value :: others) after := by
  intro i hi hroom
  cases i with
  | zero =>
      have hlen : k < values.length := by simpa [hkept.1] using hroom
      rw [Nat.add_zero, hkept.2 k (by omega), List.getElem?_set_self hlen]
      rfl
  | succ i =>
      have hk : k + (i + 1) = k + 1 + i := by omega
      rw [hk] at hroom ⊢
      exact h i (by simpa using hi) hroom

theorem stores_set (k : Nat) (values : Values) (value : Text) :
    Stores k [value] (values.set k value) :=
  .cons (Keeps.refl _ _) (stores_nil _ _)

/-- Values that all have their place are read back from the beginning of the buffer. -/
theorem Stores.take_eq {captured : List Text} {after : Values} (h : Stores 0 captured after)
    (hlen : captured.length ≤ after.length) : after.take captured.length = captured := by
  refine List.ext_getElem? fun i => ?_
  rw [List.getElem?_take]
  split
  · rename_i hi
    have := h i hi (by omega)
    rwa [Nat.zero_add] at this
  · exact (List.getElem?_eq_none (by omega)).symm

end Values

/-! ### Right answers -/

namespace Lookup

open Values

/-- **An answer is right for some ways**: a route that outranks all others that the path leads to,
with its values in the buffer, or no route where there is none, together with whether the other
spelling of the path has one. -/
inductive Meets (ways : Ways H) (k : Nat) (path : Text) (values : Values) :
    Lookup H × Values → Prop
  | hit {r : Route H} {captured : List Text} {after : Values} (leads : ways path r captured)
      (best : ∀ r' captured', ways path r' captured' →
        r' = r ∧ captured' = captured ∨ Template.Outranks r.template r'.template)
      (kept : Keeps k values after) (stored : Stores k captured after) :
      Meets ways k path values (.hit r, after)
  | miss {toggled : Bool} {after : Values} (lost : ¬ ways.Some path)
      (chance : toggled = true ↔ ∃ other, path.Toggles other ∧ ways.Some other)
      (kept : Keeps k values after) : Meets ways k path values (.miss toggled, after)

/-- What an answer is right for depends on a path and its other spellings only. -/
theorem Meets.congr {ways ways' : Ways H} {k : Nat} {path : Text} {values : Values}
    {answer : Lookup H × Values}
    (same : ∀ p, p = path ∨ path.Toggles p → ∀ r captured, ways' p r captured ↔ ways p r captured)
    (h : Meets ways k path values answer) : Meets ways' k path values answer := by
  have hsome : ∀ p, p = path ∨ path.Toggles p → (ways'.Some p ↔ ways.Some p) := fun p hp =>
    exists₂_congr (same p hp)
  cases h with
  | hit leads best kept stored =>
      refine .hit ((same _ (Or.inl rfl) _ _).2 leads) (fun r' captured' hway => ?_) kept stored
      exact best r' captured' ((same _ (Or.inl rfl) _ _).1 hway)
  | miss lost chance kept =>
      refine .miss (mt (hsome _ (Or.inl rfl)).1 lost) (chance.trans ?_) kept
      exact exists_congr fun p => and_congr_right fun hp => (hsome p (Or.inr hp)).symm

/-- Nothing is to be found where neither the path nor its other spellings have a way. -/
theorem meets_nothing {ways : Ways H} {k : Nat} {path : Text} {values : Values}
    (h : ∀ p, p = path ∨ path.Toggles p → ¬ ways.Some p) :
    Meets ways k path values (.miss false, values) := by
  refine .miss (h path (Or.inl rfl)) ?_ (Keeps.refl k values)
  simpa using fun p hp => h p (Or.inr hp)

/-- **Trying one branch after another one** meets the ways of both, if the first branch's routes
outrank the second's. -/
theorem meets_orElse {ways₁ ways₂ : Ways H} {k : Nat} {path : Text} {values : Values}
    {first : Lookup H × Values} {next : Values → Lookup H × Values}
    (h₁ : Meets ways₁ k path values first)
    (h₂ : ∀ after, Keeps k values after → Meets ways₂ k path after (next after))
    (rank : ∀ r₁ captured₁ r₂ captured₂, ways₁ path r₁ captured₁ → ways₂ path r₂ captured₂ →
      Template.Outranks r₁.template r₂.template) :
    Meets (Ways.either ways₁ ways₂) k path values (orElse first next) := by
  cases h₁ with
  | hit leads best kept stored =>
      refine .hit (Or.inl leads) (fun r' captured' hway => ?_) kept stored
      rcases hway with hway | hway
      · exact best r' captured' hway
      · exact Or.inr (rank _ _ _ _ leads hway)
  | @miss noted after lost chance kept =>
      -- the first branch may have written to places from `k` on, and the second one does not mind
      have hnext := h₂ after kept
      simp only [orElse]
      generalize next after = answer at hnext
      cases hnext with
      | hit leads best kept' stored =>
          refine .hit (Or.inr leads) (fun r' captured' hway => ?_) (kept.trans kept') stored
          rcases hway with hway | hway
          · exact (lost ⟨_, _, hway⟩).elim
          · exact best r' captured' hway
      | miss lost' chance' kept' =>
          refine .miss ?_ ?_ (kept.trans kept')
          · rw [Ways.some_either_iff]
            exact not_or_intro lost lost'
          · simp only [Bool.or_eq_true, chance, chance', Ways.some_either_iff, and_or_left,
              exists_or]

/-- An answer for what is behind a literal run. -/
theorem Meets.behind {ways : Ways H} {k : Nat} {more : Text} {values : Values}
    {answer : Lookup H × Values} (run : Text) (h : Meets ways k more values answer) :
    Meets (ways.behind run) k (run ++ more) values answer := by
  have hways : ∀ p r captured, ways.behind run (run ++ p) r captured ↔ ways p r captured := by
    simp [Ways.behind]
  cases h with
  | hit leads best kept stored =>
      refine .hit ((hways ..).2 leads) (fun r' captured' hway => ?_) kept stored
      exact best r' captured' ((hways ..).1 hway)
  | miss lost chance kept =>
      refine .miss ?_ (chance.trans ?_) kept
      · rintro ⟨r, captured, hway⟩
        exact lost ⟨r, captured, (hways ..).1 hway⟩
      · constructor
        · rintro ⟨other, htoggles, r, captured, hway⟩
          exact ⟨run ++ other, Text.toggles_append_iff.2 htoggles, r, captured, (hways ..).2 hway⟩
        · rintro ⟨_, htoggles, r, captured, other, rfl, hway⟩
          exact ⟨other, Text.toggles_append_iff.1 htoggles, r, captured, hway⟩

/-- A literal run that is the other spelling of a path. -/
theorem meets_toggled {ways : Ways H} {k : Nat} {path : Text} {values : Values} {noted : Bool}
    (h : noted = true ↔ ways.Some []) :
    Meets (ways.behind (path ++ ['/'])) k path values (.miss noted, values) := by
  refine .miss ?_ (h.trans ?_) (Keeps.refl k values)
  · rintro ⟨r, captured, more, heq, _⟩
    exact absurd (congrArg List.length heq) (by simp)
  · constructor
    · rintro ⟨r, captured, hway⟩
      exact ⟨path ++ ['/'], Or.inl rfl, r, captured, [], (List.append_nil _).symm, hway⟩
    · rintro ⟨_, heq | heq, r, captured, more, rfl, hway⟩
      · obtain rfl := List.append_right_eq_self.1 heq
        exact ⟨r, captured, hway⟩
      · exact absurd (congrArg List.length heq) (by simp)

/-- An answer for what is behind the value of a parameter, if the ways there open with a slash. -/
theorem Meets.captured {ways : Ways H} {k : Nat} {value more : Text} {values : Values}
    {answer : Lookup H × Values} (nonempty : value ≠ [])
    (within : ∀ c ∈ value, Template.isWithin c = true) (opens : ∀ c ∈ more.head?, c = '/')
    (slash : ∀ p, ways.Some p → ∀ c ∈ p.head?, c = '/')
    (h : Meets ways (k + 1) more (values.set k value) answer) :
    Meets ways.captured k (value ++ more) values answer := by
  -- a way for the path takes the same value, and goes on with the same rest
  have hback : ∀ r captured', ways.captured (value ++ more) r captured' →
      ∃ others, captured' = value :: others ∧ ways more r others := by
    rintro r _ ⟨value', more', others, heq, rfl, _, within', hway⟩
    obtain ⟨rfl, rfl⟩ := Text.span_unique within within' opens (slash _ ⟨_, _, hway⟩) heq
    exact ⟨others, rfl, hway⟩
  cases h with
  | hit leads best kept stored =>
      refine .hit ⟨value, more, _, rfl, rfl, nonempty, within, leads⟩ (fun r' captured' hway => ?_)
        kept.of_set (.cons kept stored)
      obtain ⟨others, rfl, hrest⟩ := hback r' captured' hway
      refine (best r' others hrest).imp_left ?_
      rintro ⟨rfl, rfl⟩
      exact ⟨rfl, rfl⟩
  | miss lost chance kept =>
      refine .miss ?_ (chance.trans ?_) kept.of_set
      · rintro ⟨r, captured', hway⟩
        obtain ⟨others, _, hway⟩ := hback r captured' hway
        exact lost ⟨r, others, hway⟩
      · constructor
        · rintro ⟨other, htoggles, r, others, hway⟩
          exact ⟨value ++ other, Text.toggles_append_iff.2 htoggles, r, value :: others,
            value, other, others, rfl, rfl, nonempty, within, hway⟩
        · rintro ⟨_, htoggles, r, _, value', other, others, rfl, rfl, _, within', hway⟩
          have hopens := slash other ⟨_, _, hway⟩
          obtain ⟨rfl, hother⟩ :=
            Text.span_unique_of_toggles within within' opens hopens htoggles
          exact ⟨other, hother, r, others, hway⟩

end Lookup

end RouteTree
