/-
**Writing until a writer fails.**

A writer is offered bytes and takes some of them, perhaps not all, or fails.  To write bytes is to
offer what is left of them again and again until nothing is left; the first failure ends it, and
the texts that were still to be written are not offered any more.

How a writer divides what it is offered is its own affair.  If it is known how much it takes in all
before it fails, then it is known what it has taken: a beginning of what was to be written.

Main definitions:

* `Offer`, `Writer` — one call of a writer, and how a writer answers;
* `Writer.writeAll`, `Writer.putAll` — writing bytes, and texts one after another;
* `Writer.Limited` — **a writer takes a number of bytes in all, and then fails**;
* `Writer.Wrote` — what has become of some bytes that were to be written.

Main results:

* `Writer.Wrote.writeAll`, `Writer.Wrote.putAll` — **what a limited writer has taken is a beginning
  of what was written**;
* `Sink.writeAll_eq` — the same of a sink with limited room.
-/
import RouteTree.Text.Bytes

set_option autoImplicit false
set_option relaxedAutoImplicit false

namespace RouteTree

/-! ### Writers -/

/-- One call of a writer: what it was offered, and how many bytes of it were taken.  A call that
takes nothing has failed.  A call that is interrupted is made again with the same bytes, and counts
as one call with what it comes to. -/
structure Offer where
  bytes : List UInt8
  took : Nat
  deriving DecidableEq, Repr

/-- How many bytes a writer takes of an offer, after all the calls before. -/
structure Writer where
  takes : List Offer → List UInt8 → Nat

namespace Offer

/-- What has been taken in some calls. -/
def taken (log : List Offer) : List UInt8 := log.flatMap fun o => o.bytes.take o.took

/-- Nothing has been offered after a failure. -/
def Quiet (log : List Offer) : Prop :=
  ∀ before o after, log = before ++ o :: after → o.took = 0 → after = []

theorem taken_concat (log : List Offer) (o : Offer) :
    taken (log ++ [o]) = taken log ++ o.bytes.take o.took := by
  simp [taken]

theorem quiet_nil : Quiet [] := by
  intro before o after h
  simp at h

/-- One more call after some that have not failed keeps the quiet. -/
theorem quiet_concat {log : List Offer} (h : ∀ o ∈ log, o.took ≠ 0) (o : Offer) :
    Quiet (log ++ [o]) := by
  intro before p after heq hp
  rcases List.eq_nil_or_concat after with rfl | ⟨after, last, rfl⟩
  · rfl
  · rw [List.concat_eq_append, ← List.cons_append, ← List.append_assoc] at heq
    obtain ⟨rfl, _⟩ := List.append_inj' heq rfl
    exact absurd hp (h p (by simp))

end Offer

namespace Writer

/-- Write some bytes: offer what is left of them until nothing is left.  The flag says whether that
has come about; a failure ends it. -/
def writeAll (w : Writer) (log : List Offer) (bytes : List UInt8) : List Offer × Bool :=
  if bytes = [] then (log, true)
  else
    let took := w.takes log bytes
    if took = 0 then (log ++ [⟨bytes, took⟩], false)
    else writeAll w (log ++ [⟨bytes, took⟩]) (bytes.drop took)
termination_by bytes.length
decreasing_by
  have hpos := List.length_pos_iff.2 ‹bytes ≠ []›
  simp only [List.length_drop]
  omega

/-- Write texts one after another, up to the first that fails. -/
def putAll (w : Writer) (log : List Offer) : List Text → List Offer × Bool
  | [] => (log, true)
  | t :: ts =>
      match w.writeAll log t.bytes with
      | (log, true) => putAll w log ts
      | (log, false) => (log, false)

/-- Some calls that a writer has answered, none of which has failed. -/
inductive Run (w : Writer) : List Offer → Prop
  | nil : Run w []
  | step {log : List Offer} {bytes : List UInt8} (run : Run w log)
      (took : w.takes log bytes ≠ 0) : Run w (log ++ [⟨bytes, w.takes log bytes⟩])

theorem Run.took_ne_zero {w : Writer} {log : List Offer} (h : w.Run log) :
    ∀ o ∈ log, o.took ≠ 0 := by
  induction h with
  | nil => simp
  | step _ took ih =>
      intro o ho
      rcases List.mem_append.1 ho with ho | ho
      · exact ih o ho
      · obtain rfl := List.mem_singleton.1 ho
        exact took

/-- **A writer takes `n` bytes in all, and then fails.**  Up to there it takes something of every
offer that has something, as much as it likes.  What it does after its first failure is left
open. -/
structure Limited (w : Writer) (n : Nat) : Prop where
  takes : ∀ {log bytes}, w.Run log → bytes ≠ [] → (Offer.taken log).length < n →
    0 < w.takes log bytes ∧ w.takes log bytes ≤ bytes.length ∧
      (Offer.taken log).length + w.takes log bytes ≤ n
  fails : ∀ {log bytes}, w.Run log → (Offer.taken log).length = n → w.takes log bytes = 0

/-- A writer that takes as much as it still can. -/
def ofRoom (n : Nat) : Writer := ⟨fun log bytes => min bytes.length (n - (Offer.taken log).length)⟩

theorem limited_ofRoom (n : Nat) : (ofRoom n).Limited n where
  takes := by
    intro log bytes _ hne hless
    have hpos := List.length_pos_iff.2 hne
    simp only [ofRoom]
    omega
  fails := by
    intro log bytes _ hall
    simp only [ofRoom]
    omega

/-! ### What has been taken -/

/-- **What has become of some bytes that were to be written** to a writer that takes `n` in all. -/
structure Wrote (w : Writer) (n : Nat) (bytes : List UInt8) (out : List Offer × Bool) : Prop where
  /-- As many of them have been taken as the writer takes. -/
  taken : Offer.taken out.1 = bytes.take n
  /-- The flag says whether these are all. -/
  flag : out.2 = decide (bytes.length ≤ n)
  /-- If they are, no call has failed. -/
  run : out.2 = true → w.Run out.1
  /-- Nothing has been offered after a failure. -/
  quiet : Offer.Quiet out.1

theorem wrote_nil (w : Writer) (n : Nat) : w.Wrote n [] ([], true) where
  taken := by simp [Offer.taken]
  flag := by simp
  run _ := .nil
  quiet := Offer.quiet_nil

namespace Wrote

variable {w : Writer} {n : Nat} {bytes more : List UInt8} {log : List Offer}
  {out : List Offer × Bool}

/-- After a failure it makes no difference what else was to be written. -/
theorem append_of_failed (h : w.Wrote n bytes out) (failed : out.2 = false)
    (more : List UInt8) : w.Wrote n (bytes ++ more) out := by
  have hflag := h.flag
  rw [failed, eq_comm, decide_eq_false_iff_not] at hflag
  refine ⟨?_, ?_, h.run, h.quiet⟩
  · rw [h.taken, List.take_append_of_le_length (by omega)]
  · rw [failed, eq_comm, decide_eq_false_iff_not, List.length_append]
    omega

/-- A writer that has taken all it takes fails at the next offer. -/
theorem of_full (hw : w.Limited n) (h : w.Wrote n bytes (log, true)) (full : bytes.length = n)
    (hmore : more ≠ []) :
    w.takes log more = 0 ∧
      w.Wrote n (bytes ++ more) (log ++ [⟨more, w.takes log more⟩], false) := by
  have hrun : w.Run log := h.run rfl
  have hlen : (Offer.taken log).length = n := by
    rw [h.taken, List.length_take]
    omega
  have hzero : w.takes log more = 0 := hw.fails hrun hlen
  have hpos := List.length_pos_iff.2 hmore
  refine ⟨hzero, ?_, ?_, (fun hflag => nomatch hflag), Offer.quiet_concat hrun.took_ne_zero _⟩
  · rw [Offer.taken_concat, hzero, List.take_zero, List.append_nil, h.taken, ← full,
      List.take_length, List.take_left]
  · rw [eq_comm, decide_eq_false_iff_not, List.length_append]
    omega

/-- A writer that has not taken all it takes takes something of the next offer. -/
theorem of_room (hw : w.Limited n) (h : w.Wrote n bytes (log, true)) (room : bytes.length < n)
    (hmore : more ≠ []) :
    w.takes log more ≠ 0 ∧ w.Wrote n (bytes ++ more.take (w.takes log more))
      (log ++ [⟨more, w.takes log more⟩], true) := by
  have hrun : w.Run log := h.run rfl
  have htaken : Offer.taken log = bytes :=
    h.taken.trans (List.take_of_length_le (by omega))
  obtain ⟨hpos, hle, hroom⟩ := hw.takes hrun hmore (htaken ▸ room)
  rw [htaken] at hroom
  have hne : w.takes log more ≠ 0 := by omega
  have hlen : (bytes ++ more.take (w.takes log more)).length ≤ n := by
    rw [List.length_append, List.length_take]
    omega
  refine ⟨hne, ?_, ?_, fun _ => hrun.step hne, Offer.quiet_concat hrun.took_ne_zero _⟩
  · rw [Offer.taken_concat, htaken, List.take_of_length_le hlen]
  · rw [eq_comm, decide_eq_true_iff]
    exact hlen

/-- **Bytes that are written to a limited writer come behind those before.** -/
theorem writeAll (hw : w.Limited n) (h : w.Wrote n bytes (log, true)) :
    w.Wrote n (bytes ++ more) (w.writeAll log more) := by
  -- the induction is on what is left to be offered
  induction hlen : more.length using Nat.strongRecOn generalizing bytes more log with
  | ind len ih =>
      rw [Writer.writeAll]
      by_cases hmore : more = []
      · rw [if_pos hmore, hmore, List.append_nil]
        exact h
      · rw [if_neg hmore]
        have hflag : bytes.length ≤ n := by simpa using h.flag
        rcases Nat.lt_or_eq_of_le hflag with room | full
        · obtain ⟨hne, hstep⟩ := h.of_room hw room hmore
          have hpos := List.length_pos_iff.2 hmore
          have hless : (more.drop (w.takes log more)).length < len := by
            rw [List.length_drop]
            omega
          have hrest := ih _ hless hstep rfl
          rw [List.append_assoc, List.take_append_drop] at hrest
          simpa only [if_neg hne] using hrest
        · obtain ⟨hzero, hstep⟩ := h.of_full hw full hmore
          simpa only [if_pos hzero] using hstep

/-- **Texts that are written to a limited writer come behind the bytes before**, up to the
failure. -/
theorem putAll (hw : w.Limited n) (h : w.Wrote n bytes (log, true)) (ts : List Text) :
    w.Wrote n (bytes ++ Text.bytes ts.flatten) (w.putAll log ts) := by
  induction ts generalizing bytes log with
  | nil => simpa [Text.bytes, Writer.putAll] using h
  | cons t ts ih =>
      have hfirst : w.Wrote n (bytes ++ t.bytes) (w.writeAll log t.bytes) := h.writeAll hw
      rw [Writer.putAll, List.flatten_cons, Text.bytes_append, ← List.append_assoc]
      rcases hout : w.writeAll log t.bytes with ⟨log', _ | _⟩
      · rw [hout] at hfirst
        exact hfirst.append_of_failed rfl _
      · rw [hout] at hfirst
        exact ih hfirst

end Wrote

end Writer

/-! ### Sinks -/

/-- **What a sink has taken of some texts is a beginning of them**, as long as its room. -/
theorem Sink.writeAll_eq (s : Sink) (ts : List Text) :
    s.writeAll ts =
      (⟨s.room - (Text.bytes ts.flatten).length, s.taken ++ (Text.bytes ts.flatten).take s.room⟩,
        decide ((Text.bytes ts.flatten).length ≤ s.room)) := by
  induction ts generalizing s with
  | nil => simp [writeAll, Text.bytes]
  | cons t ts ih =>
      rw [writeAll, write, List.flatten_cons, Text.bytes_append, List.length_append]
      by_cases hfits : t.bytes.length ≤ s.room
      · have hle : t.bytes.length + (Text.bytes ts.flatten).length ≤ s.room ↔
            (Text.bytes ts.flatten).length ≤ s.room - t.bytes.length := by omega
        simp only [hfits, decide_true, ih, hle, Nat.sub_sub, List.append_assoc, List.take_append,
          List.take_of_length_le hfits]
      · have hnot : ¬ t.bytes.length + (Text.bytes ts.flatten).length ≤ s.room := by omega
        have htake : (t.bytes ++ Text.bytes ts.flatten).take s.room = t.bytes.take s.room :=
          List.take_append_of_le_length (by omega)
        have hroom : s.room - t.bytes.length = 0 := by omega
        have hroom' : s.room - (t.bytes.length + (Text.bytes ts.flatten).length) = 0 := by omega
        simp only [hfits, decide_false, hnot, htake, hroom, hroom']

end RouteTree
