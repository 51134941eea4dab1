/-
**Texts as bytes, and sinks of limited room.**

A text is written to a sink in UTF-8.  A sink takes bytes as long as it has room; what does not
fit is cut off, and the write that it was part of has failed.

Main definitions:

* `Text.bytes` — the encoding of a text;
* `Text.cutAtByte?` — a text in two parts, of which the first one takes a given number of bytes;
* `Sink`, `Sink.write` — a sink and one write to it.

Main results:

* `Text.bytes_append` — texts in a row are encoded in a row;
* `Text.append_of_cutAtByte?` — the two parts make up the text again, and the first one has its
  number of bytes.
-/
import RouteTree.Text.Basic

set_option autoImplicit false
set_option relaxedAutoImplicit false

namespace RouteTree

/-- The UTF-8 encoding of a text. -/
def Text.bytes (t : Text) : List UInt8 := t.flatMap String.utf8EncodeChar

@[simp] theorem Text.bytes_append (s t : Text) : Text.bytes (s ++ t) = s.bytes ++ t.bytes := by
  simp [Text.bytes]

/-- The text in two parts, of which the first one takes `n` bytes, unless that cuts a character. -/
def Text.cutAtByte? : (n : Nat) → Text → Option (Text × Text)
  | 0, t => some ([], t)
  | _ + 1, [] => none
  | n + 1, c :: t =>
      if c.utf8Size ≤ n + 1 then
        (Text.cutAtByte? (n + 1 - c.utf8Size) t).map fun parts => (c :: parts.1, parts.2)
      else none

/-- The two parts make up the text again, and the first one has its number of bytes. -/
theorem Text.append_of_cutAtByte? {n : Nat} {t first second : Text}
    (h : Text.cutAtByte? n t = some (first, second)) :
    first ++ second = t ∧ first.bytes.length = n := by
  induction t generalizing n first with
  | nil =>
      cases n with
      | zero =>
          obtain ⟨rfl, rfl⟩ := by simpa [Text.cutAtByte?] using h
          simp [Text.bytes]
      | succ n => simp [Text.cutAtByte?] at h
  | cons c t ih =>
      cases n with
      | zero =>
          obtain ⟨rfl, rfl⟩ := by simpa [Text.cutAtByte?] using h
          simp [Text.bytes]
      | succ n =>
          by_cases fits : c.utf8Size ≤ n + 1
          · rw [Text.cutAtByte?, if_pos fits, Option.map_eq_some_iff] at h
            obtain ⟨⟨first', second'⟩, cut, parts⟩ := h
            obtain ⟨rfl, rfl⟩ := by simpa using parts
            obtain ⟨rfl, size⟩ := ih cut
            refine ⟨rfl, ?_⟩
            simp only [Text.bytes, List.flatMap_cons, List.length_append,
              String.length_utf8EncodeChar] at size ⊢
            omega
          · simp [Text.cutAtByte?, fits] at h

/-- A sink that has room for some more bytes, and the bytes it has taken. -/
structure Sink where
  room : Nat
  taken : List UInt8
  deriving DecidableEq, Repr

namespace Sink

/-- An unused sink. -/
def ofRoom (room : Nat) : Sink := ⟨room, []⟩

/-- Write some bytes; the flag says whether all of them found room. -/
def write (s : Sink) (bytes : List UInt8) : Sink × Bool :=
  (⟨s.room - bytes.length, s.taken ++ bytes.take s.room⟩, bytes.length ≤ s.room)

/-- Write texts one after another, up to the first that fails. -/
def writeAll (s : Sink) : List Text → Sink × Bool
  | [] => (s, true)
  | t :: ts =>
      match s.write t.bytes with
      | (s, true) => s.writeAll ts
      | (s, false) => (s, false)

end Sink

end RouteTree
