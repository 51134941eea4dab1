/-
**Texts addressed by bytes.**

A text that is kept in UTF-8 is measured, searched and cut at bytes.  A cut is possible only where
one character ends and the next one begins, and only within the text; elsewhere there is no answer,
and whatever asked for the cut cannot go on.

The bytes below 128 are ASCII characters of their own and never a part of a longer one.  So where
such a byte is found, a text can be cut.

Main definitions:

* `Text.size` — the number of bytes of a text;
* `Text.from?`, `Text.slice?` — the part of a text from a byte on, and between two bytes;
* `Text.byteOf?`, `Text.commonBytes` — where a character is, and where two texts part.

Main results:

* `Text.cutAtByte?_append`, `Text.cut_takeWhile` — **a text can be cut where one of its beginnings
  ends**;
* `Text.eq_of_mem_encode` — **a byte below 128 is a character of its own**;
* `Text.commonBytes_eq` — texts part where their shared beginning ends.
-/
import Mathlib.Data.List.Basic
import Mathlib.Data.List.TakeWhile
import RouteTree.Text.Bytes

set_option autoImplicit false
set_option relaxedAutoImplicit false

namespace RouteTree

namespace Text

/-! ### Sizes -/

/-- The number of bytes of a text. -/
def size (t : Text) : Nat := t.bytes.length

@[simp] theorem size_nil : size [] = 0 := rfl

@[simp] theorem size_cons (c : Char) (t : Text) : size (c :: t) = c.utf8Size + t.size := by
  simp [size, bytes]

@[simp] theorem size_append (s t : Text) : size (s ++ t) = s.size + t.size := by
  simp [size]

@[simp] theorem size_eq_zero_iff {t : Text} : t.size = 0 ↔ t = [] := by
  cases t with
  | nil => simp
  | cons c t =>
      have := c.utf8Size_pos
      simp only [size_cons, reduceCtorEq, iff_false]
      omega

theorem size_pos_of_ne_nil {t : Text} (h : t ≠ []) : 0 < t.size :=
  Nat.pos_of_ne_zero (mt size_eq_zero_iff.1 h)

/-- A beginning is smaller if something is left behind it. -/
theorem size_lt_append_iff {s t : Text} : s.size < (s ++ t).size ↔ t ≠ [] := by
  rw [size_append, ne_eq, ← size_eq_zero_iff]
  omega

/-! ### Cuts -/

/-- The part of a text from a byte on. -/
def from? (t : Text) (i : Nat) : Option Text := (t.cutAtByte? i).map Prod.snd

/-- The part of a text between two bytes. -/
def slice? (t : Text) (i j : Nat) : Option Text := do
  let (first, _) ← t.cutAtByte? j
  first.from? i

/-- **A text can be cut where one of its beginnings ends.** -/
theorem cutAtByte?_append (s t : Text) : cutAtByte? s.size (s ++ t) = some (s, t) := by
  induction s with
  | nil => cases t <;> rfl
  | cons c s ih =>
      have hsize : size (c :: s) = (c.utf8Size + size s - 1) + 1 := by
        have := c.utf8Size_pos
        rw [size_cons]
        omega
      have hrest : c.utf8Size + size s - 1 + 1 - c.utf8Size = size s := by
        have := c.utf8Size_pos
        omega
      rw [hsize, List.cons_append, cutAtByte?, if_pos (by omega), hrest, ih]
      rfl

theorem from?_append (s t : Text) : from? (s ++ t) s.size = some t := by
  rw [from?, cutAtByte?_append]
  rfl

/-- Within a character there is no cut. -/
example : from? "é".toList 1 = none := by decide

theorem slice?_append (s t u : Text) :
    slice? (s ++ (t ++ u)) s.size (s.size + t.size) = some t := by
  rw [slice?, ← size_append, ← List.append_assoc, cutAtByte?_append]
  exact from?_append s t

theorem slice?_zero (s t : Text) : slice? (s ++ t) 0 s.size = some s := by
  have h := slice?_append [] s t
  simpa using h

/-- What stands before a byte and what stands from it on are as long as the text. -/
theorem size_of_from? {t rest : Text} {i : Nat} (h : t.from? i = some rest) :
    i + rest.size = t.size := by
  obtain ⟨⟨first, second⟩, hcut, rfl⟩ := Option.map_eq_some_iff.1 h
  obtain ⟨rfl, rfl⟩ := append_of_cutAtByte? hcut
  exact (size_append first second).symm

/-- Less is left of a text from a byte on that is not its first. -/
theorem size_lt_of_from? {t rest : Text} {i : Nat} (h : t.from? i = some rest) (pos : 0 < i) :
    rest.size < t.size := by
  have := size_of_from? h
  omega

/-- The part between two bytes is as long as they are apart. -/
theorem size_of_slice? {t part : Text} {i j : Nat} (h : t.slice? i j = some part) :
    i + part.size = j := by
  obtain ⟨⟨first, second⟩, hcut, hpart⟩ := Option.bind_eq_some_iff.1 h
  exact (size_of_from? hpart).trans (append_of_cutAtByte? hcut).2

/-- **A text can be cut where some of its first characters end**, and there is more of it if some
are left. -/
theorem cut_takeWhile (p : Char → Bool) (t : Text) :
    t.slice? 0 (size (t.takeWhile p)) = some (t.takeWhile p) ∧
      t.from? (size (t.takeWhile p)) = some (t.dropWhile p) ∧
      (size (t.takeWhile p) < t.size ↔ t.dropWhile p ≠ []) := by
  have hslice := slice?_zero (t.takeWhile p) (t.dropWhile p)
  have hfrom := from?_append (t.takeWhile p) (t.dropWhile p)
  have hless := size_lt_append_iff (s := t.takeWhile p) (t := t.dropWhile p)
  rw [List.takeWhile_append_dropWhile] at hslice hfrom hless
  exact ⟨hslice, hfrom, hless⟩

/-! ### Bytes of characters -/

/-- **A byte below 128 is a character of its own.** -/
theorem eq_of_mem_encode {c : Char} {b : UInt8} (h : b ∈ String.utf8EncodeChar c)
    (ascii : b.toNat < 128) : b.toNat = c.toNat := by
  simp only [String.utf8EncodeChar] at h
  split at h
  · obtain rfl := List.mem_singleton.1 h
    rw [UInt8.toNat_ofNat', Nat.mod_eq_of_lt (by omega)]
    rfl
  · -- all bytes of a longer character are marked by what is added to them
    exfalso
    split at h
    · simp only [List.mem_cons, List.not_mem_nil, or_false] at h
      rcases h with rfl | rfl <;> (rw [UInt8.toNat_ofNat'] at ascii; omega)
    · split at h
      · simp only [List.mem_cons, List.not_mem_nil, or_false] at h
        rcases h with rfl | rfl | rfl <;> (rw [UInt8.toNat_ofNat'] at ascii; omega)
      · simp only [List.mem_cons, List.not_mem_nil, or_false] at h
        rcases h with rfl | rfl | rfl | rfl <;> (rw [UInt8.toNat_ofNat'] at ascii; omega)

/-- Only the empty text has no first byte. -/
theorem exists_head?_bytes {t : Text} (h : t ≠ []) : ∃ b, t.bytes.head? = some b := by
  have hlen := size_pos_of_ne_nil h
  cases hbytes : t.bytes with
  | nil => simp [size, hbytes] at hlen
  | cons b bs => exact ⟨b, rfl⟩

/-- A text with a first byte is not empty. -/
theorem size_pos_of_head? {t : Text} {b : UInt8} (h : t.bytes.head? = some b) : 0 < t.size := by
  refine size_pos_of_ne_nil ?_
  rintro rfl
  cases h

/-- What follows a text that is not empty does not change its first byte. -/
theorem head?_bytes_append {s : Text} (h : s ≠ []) (t : Text) :
    (bytes (s ++ t)).head? = s.bytes.head? := by
  have hne : s.bytes ≠ [] := List.length_pos_iff.1 (size_pos_of_ne_nil h)
  rw [bytes_append, List.head?_append_of_ne_nil _ hne]

/-! ### Searches -/

/-- The byte at which a character occurs first. -/
def byteOf? (t : Text) (c : Char) : Option Nat :=
  if c ∈ t then some (size (t.takeWhile (· ≠ c))) else none

/-- Up to the first occurrence of a character, or to the end, are the characters before it. -/
theorem byteOf?_getD (t : Text) (c : Char) :
    (t.byteOf? c).getD t.size = size (t.takeWhile (· ≠ c)) := by
  rw [byteOf?]
  split
  · rfl
  · rename_i hmem
    have hall : t.takeWhile (· ≠ c) = t := by
      refine List.takeWhile_eq_self_iff.2 fun d hd => ?_
      have hne : d ≠ c := fun heq => hmem (heq ▸ hd)
      simpa using hne
    rw [hall]
    rfl

/-! ### Where texts part -/

/-- The byte, counted from `i`, at which two texts have different characters. -/
def differing? (i : Nat) : Text → Text → Option Nat
  | a :: s, b :: t => if a = b then differing? (i + a.utf8Size) s t else some i
  | _, _ => none

/-- **The number of bytes that two texts have in common.**  If they differ nowhere, that is the size
of the shorter one. -/
def commonBytes (s t : Text) : Nat := (differing? 0 s t).getD (min s.size t.size)

theorem differing?_getD (i : Nat) (s t : Text) :
    (differing? i s t).getD (i + min s.size t.size) = i + (fork s t).shared.size := by
  induction s generalizing i t with
  | nil => simp [differing?]
  | cons a s ih =>
      cases t with
      | nil => simp [differing?]
      | cons b t =>
          by_cases h : a = b
          · subst h
            have hih := ih (i + a.utf8Size) t
            rw [Nat.add_assoc] at hih
            simpa [differing?, fork, Nat.add_min_add_left, Nat.add_assoc] using hih
          · simp [differing?, fork, h]

/-- **Texts part where their shared beginning ends.** -/
theorem commonBytes_eq (s t : Text) : commonBytes s t = (fork s t).shared.size := by
  simpa [commonBytes] using differing?_getD 0 s t

/-- Both texts can be cut where they part. -/
theorem cutAtByte?_commonBytes (s t : Text) :
    s.cutAtByte? (commonBytes s t) = some ((fork s t).shared, (fork s t).left) ∧
      t.from? (commonBytes s t) = some (fork s t).right := by
  rw [commonBytes_eq]
  constructor
  · have h := cutAtByte?_append (fork s t).shared (fork s t).left
    rwa [fork_left] at h
  · have h := from?_append (fork s t).shared (fork s t).right
    rwa [fork_right] at h

/-- Characters of several bytes may share the first of them; texts part before such a character. -/
example : commonBytes "/é".toList "/è".toList = 1 := by decide

end Text

end RouteTree
