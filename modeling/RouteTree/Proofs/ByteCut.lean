/-
**Cutting a template byte by byte.**

A template that is kept in UTF-8 is gone through with a cursor that moves from byte to byte, also
within characters.  It is cut only where the cursor has met a marker and where a slash has been
found, and these are bytes of their own.  So the cursor never asks for a cut that is not possible,
it comes to the end of the template, and what has been cut by then are the segments.

Main definitions:

* `Template.scan?` — **going through a template**; there is no answer if a byte is asked for that is
  not there, or if a cut is not possible;
* `Template.segments?` — going through a template from its beginning.

Main results:

* `Template.scan?_skip` — the cursor runs over bytes that are no markers;
* `Template.segments?_eq` — **every template is gone through, and cut into its segments**.
-/
import RouteTree.Proofs.ByteTexts
import RouteTree.Proofs.Cut

set_option autoImplicit false
set_option relaxedAutoImplicit false

namespace RouteTree

/-- A literal run that is not empty stands by itself before other segments. -/
theorem Segment.literalThen_eq_append (run : Text) (rest : List Segment) :
    literalThen run rest = literalThen run [] ++ rest := by
  by_cases h : run = [] <;> simp [literalThen, h]

namespace Text

/-- The bytes of a text that stands behind another one. -/
theorem getElem?_bytes_append (s t : Text) (k : Nat) :
    (bytes (s ++ t))[s.size + k]? = t.bytes[k]? := by
  rw [bytes_append, size, List.getElem?_append_right (by omega), Nat.add_sub_cancel_left]

/-- A byte of a text that stands between two others. -/
theorem mem_bytes_of_between {s t u : Text} {p : Nat} {b : UInt8} (lower : s.size ≤ p)
    (upper : p < s.size + t.size) (h : (bytes (s ++ (t ++ u)))[p]? = some b) : b ∈ t.bytes := by
  obtain ⟨k, rfl⟩ := Nat.exists_eq_add_of_le lower
  have hk : k < t.bytes.length := Nat.lt_of_add_lt_add_left upper
  rw [getElem?_bytes_append, bytes_append, List.getElem?_append_left hk] at h
  exact List.mem_of_getElem? h

end Text

namespace Template

/-- The bytes of the characters that open a placeholder. -/
def isMarkerByte (b : UInt8) : Bool := b = 58 || b = 42

/-- The literal run between two bytes goes behind the segments that have been cut, if it is not
empty. -/
def run? (path : Text) (start i : Nat) (segs : List Segment) : Option (List Segment) :=
  if start < i then (path.slice? start i).map fun run => segs ++ [.literal run] else some segs

/-- The placeholder that begins at byte `i`, and the byte behind it. -/
def placeholder? (path : Text) (i : Nat) : Option (Text × Nat) := do
  let rest ← path.from? i
  let stop := ((rest.byteOf? '/').map (i + ·)).getD path.size
  let text ← path.slice? i stop
  some (text, stop)

/-- A placeholder reaches from its marker to the byte behind it. -/
theorem size_of_placeholder? {path text : Text} {i stop : Nat}
    (h : placeholder? path i = some (text, stop)) : i + text.size = stop := by
  obtain ⟨rest, -, h⟩ := Option.bind_eq_some_iff.1 h
  obtain ⟨text', hslice, h⟩ := Option.bind_eq_some_iff.1 h
  obtain ⟨rfl, rfl⟩ := Prod.mk.inj (Option.some.inj h)
  exact Text.size_of_slice? hslice

/-- **Go on through a template at byte `i`.**  What stands before byte `start` has been cut already,
and no marker stands between `start` and `i`. -/
def scan? (path : Text) (start i : Nat) (segs : List Segment) :
    Option (Except RouteError (List Segment)) :=
  if i < path.size then do
    let b ← path.bytes[i]?
    if isMarkerByte b then do
      let segs ← run? path start i segs
      match h : placeholder? path i with
      | none => none
      | some (text, stop) =>
          if text.size < 2 then some (.error (.emptyParamName path))
          else if b = 42 then
            if stop ≠ path.size then
              (path.slice? 0 stop).map fun existing => .error (.routeConflict existing path)
            else some (.ok (segs ++ [.wildcard text]))
          else scan? path stop stop (segs ++ [.param text])
    else scan? path start (i + 1) segs
  else if start < path.size then (path.from? start).map fun run => .ok (segs ++ [.literal run])
  else some (.ok segs)
termination_by path.size - i
decreasing_by
  · have := size_of_placeholder? h
    omega
  · omega

/-- **Cut a template into segments, byte by byte.** -/
def segments? (path : Text) : Option (Except RouteError (List Segment)) := scan? path 0 0 []

/-- What stands before the end of a text. -/
theorem take_of_append {whole start rest : Text} (h : whole = start ++ rest) :
    whole.take (whole.length - rest.length) = start := by
  rw [h, List.length_append, Nat.add_sub_cancel, List.take_left]

/-- The bytes of characters that are no markers are no markers. -/
theorem isMarkerByte_eq_false {run : Text} (plain : ∀ c ∈ run, isMarker c = false) {b : UInt8}
    (h : b ∈ run.bytes) : isMarkerByte b = false := by
  obtain ⟨c, hc, hb⟩ := List.mem_flatMap.1 h
  by_contra hmarker
  have hcases : b = 58 ∨ b = 42 := by simpa [isMarkerByte, or_iff_not_imp_left] using hmarker
  have hplain := plain c hc
  rcases hcases with rfl | rfl
  · have hchar : c = ':' := Char.toNat_inj.1 (Text.eq_of_mem_encode hb (by decide)).symm
    simp [isMarker, hchar] at hplain
  · have hchar : c = '*' := Char.toNat_inj.1 (Text.eq_of_mem_encode hb (by decide)).symm
    simp [isMarker, hchar] at hplain

/-- A marker is a byte of its own. -/
theorem encode_of_isMarker {marker : Char} (h : isMarker marker = true) :
    ∃ b, String.utf8EncodeChar marker = [b] ∧ isMarkerByte b = true ∧
      (b = 42 ↔ marker = '*') := by
  have hcases : marker = ':' ∨ marker = '*' := by simpa [isMarker] using h
  rcases hcases with rfl | rfl
  · exact ⟨58, by decide, by decide, by decide⟩
  · exact ⟨42, by decide, by decide, by decide⟩

/-- A text with a marker in it has the marker's byte there. -/
theorem getElem?_bytes_marker {marker : Char} {b : UInt8}
    (hencode : String.utf8EncodeChar marker = [b]) (start after : Text) :
    (Text.bytes (start ++ marker :: after))[start.size]? = some b := by
  have h := Text.getElem?_bytes_append start (marker :: after) 0
  rw [Nat.add_zero] at h
  rw [h, Text.bytes, List.flatMap_cons, hencode]
  rfl

/-- **The cursor runs over bytes that are no markers**, wherever characters begin and end. -/
theorem scan?_skip {path : Text} {start i j : Nat} {segs : List Segment} (le : i ≤ j)
    (within : j ≤ path.size)
    (plain : ∀ p b, i ≤ p → p < j → path.bytes[p]? = some b → isMarkerByte b = false) :
    scan? path start i segs = scan? path start j segs := by
  induction le using Nat.decreasingInduction with
  | self => rfl
  | of_succ k hk ih =>
      have hlt : k < path.size := by omega
      have hbyte : path.bytes[k]? = some (path.bytes.get ⟨k, hlt⟩) := List.getElem?_eq_getElem hlt
      have hplain := plain k _ le_rfl (by omega) hbyte
      rw [← ih fun p b hp => plain p b (by omega), scan?, if_pos hlt, hbyte, Option.bind_eq_bind,
        Option.bind_some, hplain]
      rfl

/-- A literal run is cut off where a marker or the end is. -/
theorem run?_eq (start run rest : Text) (segs : List Segment) :
    run? (start ++ (run ++ rest)) start.size (start ++ run).size segs =
      some (segs ++ Segment.literalThen run []) := by
  rw [run?]
  by_cases hrun : run = []
  · simp [hrun]
  · rw [if_pos (Text.size_lt_append_iff.2 hrun), Text.size_append, Text.slice?_append]
    simp [Segment.literalThen, hrun]

/-- A placeholder is cut off up to the next slash, or to the end. -/
theorem placeholder?_eq (start after : Text) {marker : Char} (hm : isMarker marker = true) :
    placeholder? (start ++ marker :: after) start.size =
      some (marker :: after.takeWhile isWithin,
        (start ++ marker :: after.takeWhile isWithin).size) := by
  have hwithin : (marker :: after).takeWhile isWithin = marker :: after.takeWhile isWithin := by
    have hcases : marker = ':' ∨ marker = '*' := by simpa [isMarker] using hm
    rcases hcases with rfl | rfl <;> simp [isWithin]
  have hshift : ∀ (o : Option Nat) (n : Nat),
      (o.map (start.size + ·)).getD (start.size + n) = start.size + o.getD n := by
    intro o n
    cases o <;> rfl
  have hstop : ((Text.byteOf? (marker :: after) '/').map (start.size + ·)).getD
      (start ++ marker :: after).size = (start ++ marker :: after.takeWhile isWithin).size := by
    rw [Text.size_append, hshift, Text.byteOf?_getD, ← hwithin, Text.size_append]
    rfl
  have htext : (start ++ marker :: after).slice? start.size
      (start ++ marker :: after.takeWhile isWithin).size =
        some (marker :: after.takeWhile isWithin) := by
    have h := Text.slice?_append start (marker :: after.takeWhile isWithin)
      (after.dropWhile isWithin)
    rw [List.cons_append, List.takeWhile_append_dropWhile] at h
    rw [Text.size_append, h]
  simp only [placeholder?, Text.from?_append, hstop, htext, Option.bind_eq_bind, Option.bind_some]

/-- From where the cut begins to the end of a run without markers. -/
theorem scan?_run (start rest : Text) {run : Text} (plain : ∀ c ∈ run, isMarker c = false)
    (segs : List Segment) :
    scan? (start ++ (run ++ rest)) start.size start.size segs =
      scan? (start ++ (run ++ rest)) start.size (start ++ run).size segs := by
  refine scan?_skip (by simp) (by simp) fun p b lower upper hbyte => ?_
  rw [Text.size_append] at upper
  exact isMarkerByte_eq_false plain (Text.mem_bytes_of_between lower upper hbyte)

/-- At the end of the template, the last run is cut off. -/
theorem scan?_end (start run : Text) (segs : List Segment) :
    scan? (start ++ run) start.size (start ++ run).size segs =
      some (.ok (segs ++ Segment.literalThen run [])) := by
  rw [scan?, if_neg (lt_irrefl _)]
  by_cases hrun : run = []
  · simp [hrun]
  · rw [if_pos (Text.size_lt_append_iff.2 hrun), Text.from?_append]
    simp [Segment.literalThen, hrun]

/-- At a marker, the run before it is cut off, and the placeholder that it opens. -/
theorem scan?_marked (start : Text) {run after : Text} {marker : Char}
    (hm : isMarker marker = true) (segs : List Segment) {whole name beyond : Text}
    (hwhole : whole = start ++ (run ++ marker :: after)) (hname : name = after.takeWhile isWithin)
    (hbeyond : beyond = after.dropWhile isWithin) :
    scan? whole start.size (start ++ run).size segs =
      if name = [] then some (.error (.emptyParamName whole))
      else if marker = '*' then
        if beyond = [] then
          some (.ok (segs ++ Segment.literalThen run [.wildcard (marker :: name)]))
        else some (.error (.routeConflict (whole.take (whole.length - beyond.length)) whole))
      else scan? whole (start ++ run ++ marker :: name).size (start ++ run ++ marker :: name).size
        (segs ++ Segment.literalThen run [.param (marker :: name)]) := by
  obtain ⟨b, hencode, hb, hstar⟩ := encode_of_isMarker hm
  have hone : marker.utf8Size = 1 := by rw [← String.length_utf8EncodeChar, hencode]; rfl
  have hmarked : whole = start ++ run ++ marker :: after := by rw [hwhole, List.append_assoc]
  have hsplit : whole = (start ++ run ++ marker :: name) ++ beyond := by
    rw [hmarked, hname, hbeyond, List.append_assoc _ (_ :: _), List.cons_append,
      List.takeWhile_append_dropWhile]
  have hin : (start ++ run).size < whole.size := by
    rw [hmarked]
    exact Text.size_lt_append_iff.2 (List.cons_ne_nil marker after)
  have hbyte : whole.bytes[(start ++ run).size]? = some b := by
    rw [hmarked, getElem?_bytes_marker hencode]
  have hrun : run? whole start.size (start ++ run).size segs =
      some (segs ++ Segment.literalThen run []) := by rw [hwhole, run?_eq]
  have hplaceholder : placeholder? whole (start ++ run).size =
      some (marker :: name, (start ++ run ++ marker :: name).size) := by
    rw [hmarked, hname, placeholder?_eq _ _ hm]
  have hshort : Text.size (marker :: name) < 2 ↔ name = [] := by
    rw [Text.size_cons, hone, ← Text.size_eq_zero_iff]
    omega
  have hlast : (start ++ run ++ marker :: name).size ≠ whole.size ↔ beyond ≠ [] := by
    rw [hsplit, Text.size_append _ beyond, ne_eq, ne_eq, ← Text.size_eq_zero_iff]
    omega
  have hexisting : whole.slice? 0 (start ++ run ++ marker :: name).size =
      some (whole.take (whole.length - beyond.length)) := by
    rw [take_of_append hsplit, hsplit, Text.slice?_zero]
  rw [scan?, if_pos hin, hbyte, Option.bind_eq_bind, Option.bind_some, if_pos hb, hrun,
    Option.bind_eq_bind, Option.bind_some, hplaceholder]
  simp only [hshort, hstar, hlast, hexisting, Option.map_some, ne_eq, ite_not,
    Segment.literalThen_eq_append run [_], List.append_assoc segs]

/-- **The rest of a template is gone through and cut into its segments.** -/
theorem scan?_eq (start rest : Text) (segs : List Segment) :
    scan? (start ++ rest) start.size start.size segs =
      some ((segmentsFrom (start ++ rest) rest).map (segs ++ ·)) := by
  induction hlen : rest.length using Nat.strong_induction_on generalizing start rest segs with
  | h n ih =>
      rcases plain_or_marked rest with hplain | ⟨run, marker, after, rfl, hplain, hm⟩
      · have hrun := scan?_run start [] hplain segs
        rw [List.append_nil] at hrun
        rw [hrun, scan?_end, segmentsFrom_plain _ hplain]
        rfl
      · rw [scan?_run start _ hplain, scan?_marked start hm segs rfl rfl rfl,
          segmentsFrom_marked _ hplain hm]
        by_cases hempty : after.takeWhile isWithin = []
        · rw [if_pos hempty, if_pos hempty]
          rfl
        rw [if_neg hempty, if_neg hempty]
        by_cases hwild : marker = '*'
        · rw [if_pos hwild, if_pos hwild]
          split <;> rfl
        · -- less is left behind the placeholder
          rw [if_neg hwild, if_neg hwild]
          have hsplit : start ++ (run ++ marker :: after) =
              (start ++ run ++ marker :: after.takeWhile isWithin) ++ after.dropWhile isWithin := by
            simp [List.takeWhile_append_dropWhile]
          have hless : (after.dropWhile isWithin).length < n := by
            have := length_dropWhile_le isWithin after
            simp only [List.length_append, List.length_cons] at hlen
            omega
          have hrest := ih _ hless (start ++ run ++ marker :: after.takeWhile isWithin)
            (after.dropWhile isWithin)
            (segs ++ Segment.literalThen run [.param (marker :: after.takeWhile isWithin)]) rfl
          rw [← hsplit] at hrest
          rw [hrest]
          cases segmentsFrom (start ++ (run ++ marker :: after)) (after.dropWhile isWithin) with
          | error e => rfl
          | ok more => simp [Except.map, Segment.literalThen_eq_append run (_ :: _)]

/-- **Every template is gone through, and cut into its segments.** -/
theorem segments?_eq (path : Text) : segments? path = some (segments path) := by
  have h := scan?_eq [] path []
  rw [List.nil_append, Text.size_nil] at h
  rw [segments?, segments, h]
  cases segmentsFrom path path <;> rfl

end Template

end RouteTree
