import Lox.Proofs.SessionHistory
import Mathlib.Data.List.Forall2

/-!
# Sessions on sinks that run out of room

A line reaches its sink in fragments.  Where the room ends inside a fragment the
sink keeps the beginning of it, the write has failed, and what is left of the line
is not tried.  This file proves that nothing further comes of such a failure: a
session on a limited sink answers, records and flags what it does on an unlimited
one, and its sink holds the first bytes of what the other sink holds.
-/

namespace Lox

namespace Sink

theorem eq_of_bytes {first second : Sink} (room : first.room = second.room)
    (bytes : first.bytes = second.bytes) : first = second := by
  obtain ⟨firstRoom, firstHeld⟩ := first
  obtain ⟨secondRoom, secondHeld⟩ := second
  obtain rfl : firstRoom = secondRoom := room
  have held : firstHeld = secondHeld :=
    ByteArray.ext (Array.toList_inj.mp bytes)
  rw [held]

/-- Writing two texts is writing both as one. -/
theorem write_write (sink : Sink) (first second : String) :
    (sink.write first).write second = sink.write (first ++ second) := by
  cases roomEq : sink.room with
  | none =>
      obtain ⟨firstBytes, firstRoom⟩ := bytes_write_of_unlimited roomEq first
      obtain ⟨secondBytes, secondRoom⟩ :=
        bytes_write_of_unlimited firstRoom second
      obtain ⟨wholeBytes, wholeRoom⟩ :=
        bytes_write_of_unlimited roomEq (first ++ second)
      apply eq_of_bytes
      · rw [secondRoom, wholeRoom]
      · rw [secondBytes, firstBytes, wholeBytes, encode_append,
          List.append_assoc]
  | some room =>
      -- The second text has the room that the first one leaves.
      obtain ⟨firstBytes, firstRoom⟩ := bytes_write_of_limited roomEq first
      obtain ⟨secondBytes, secondRoom⟩ := bytes_write_of_limited firstRoom second
      obtain ⟨wholeBytes, wholeRoom⟩ :=
        bytes_write_of_limited roomEq (first ++ second)
      apply eq_of_bytes
      · rw [secondRoom, wholeRoom, encode_append, List.length_append,
          Nat.sub_sub]
      · rw [secondBytes, firstBytes, wholeBytes, encode_append,
          List.take_append, List.append_assoc]

theorem write_empty (sink : Sink) : sink.write "" = sink := by
  cases roomEq : sink.room with
  | none =>
      obtain ⟨bytes, room⟩ := bytes_write_of_unlimited roomEq ""
      exact eq_of_bytes (by rw [room, roomEq]) (by simp [bytes, encode])
  | some limit =>
      obtain ⟨bytes, room⟩ := bytes_write_of_limited roomEq ""
      exact eq_of_bytes (by simp [room, roomEq, encode])
        (by simp [bytes, encode])

theorem write_of_full {sink : Sink} (full : sink.room = some 0)
    (text : String) : sink.write text = sink := by
  obtain ⟨bytes, room⟩ := bytes_write_of_limited full text
  exact eq_of_bytes (by simp [room, full]) (by simp [bytes])

/-- Whether a sink has room for all of a text. -/
def fits (sink : Sink) (text : String) : Bool :=
  match sink.room with
  | none => true
  | some room => decide ((encode text).length ≤ room)

/-- Write fragments one behind the other, and say whether all of them were kept.
The first that does not fit is the last that is tried. -/
def writeFragments : Sink → List String → Sink × Bool
  | sink, [] => (sink, true)
  | sink, fragment :: fragments =>
      if sink.fits fragment then
        (sink.write fragment).writeFragments fragments
      else
        (sink.write fragment, false)

theorem room_write_of_not_fits {sink : Sink} {text : String}
    (tooLong : sink.fits text = false) : (sink.write text).room = some 0 := by
  cases roomEq : sink.room with
  | none => simp [fits, roomEq] at tooLong
  | some room =>
      have longer : room < (encode text).length := by
        simpa [fits, roomEq] using tooLong
      rw [(bytes_write_of_limited roomEq text).2,
        Nat.sub_eq_zero_of_le (Nat.le_of_lt longer)]

/-- What a sink keeps of fragments is what it keeps of the text they make up,
whether or not the write fails on the way. -/
theorem writeFragments_eq (sink : Sink) (fragments : List String) :
    (sink.writeFragments fragments).1 = sink.write (String.join fragments) := by
  induction fragments generalizing sink with
  | nil => exact sink.write_empty.symm
  | cons fragment fragments ih =>
      rw [String.join_cons, ← write_write, writeFragments]
      split
      next => exact ih _
      next tooLong =>
        -- The fragment that does not fit has used up the room, so the fragments
        -- that are not tried would have left nothing.
        have full := room_write_of_not_fits (Bool.not_eq_true _ ▸ tooLong)
        exact (write_of_full full _).symm

theorem fits_append (sink : Sink) (first second : String) :
    sink.fits (first ++ second) =
      (sink.fits first && (sink.write first).fits second) := by
  cases roomEq : sink.room with
  | none =>
      have unlimited := (bytes_write_of_unlimited roomEq first).2
      simp [fits, roomEq, unlimited]
  | some room =>
      have left := (bytes_write_of_limited roomEq first).2
      simp only [fits, roomEq, left, encode_append, List.length_append,
        ← Bool.decide_and, decide_eq_decide]
      omega

/-- A write fails exactly when the text of its fragments does not fit. -/
theorem succeeds_writeFragments (sink : Sink) (fragments : List String) :
    (sink.writeFragments fragments).2 = sink.fits (String.join fragments) := by
  induction fragments generalizing sink with
  | nil => cases roomEq : sink.room <;> simp [writeFragments, fits, encode, roomEq]
  | cons fragment fragments ih =>
      rw [String.join_cons, fits_append, writeFragments]
      split
      next whole => rw [ih, whole, Bool.true_and]
      next tooLong => simp [tooLong]

end Sink

/-- The fragments that the line of a diagnostic is written in. -/
def Diagnostic.fragments (diagnostic : Diagnostic) : List String :=
  ["[line ", toString diagnostic.line, "] Error", diagnostic.location, ": ",
    diagnostic.cause.message, "\n"]

theorem Diagnostic.join_fragments (diagnostic : Diagnostic) :
    String.join diagnostic.fragments = diagnostic.display ++ "\n" := by
  simp [fragments, display, String.join_cons, String.append_assoc]

namespace DiagnosticLog

/-- A diagnostic is kept whatever becomes of its line. -/
theorem record_eq_writeFragments (log : DiagnosticLog)
    (diagnostic : Diagnostic) :
    log.record diagnostic =
      { sink := (log.sink.writeFragments diagnostic.fragments).1
        flagged := true
        diagnostics := log.diagnostics.push diagnostic } := by
  rw [Sink.writeFragments_eq, diagnostic.join_fragments]
  rfl

/-- Two logs that differ in their sinks only: one has kept everything, and the
other as many first bytes of it as it had room for. -/
structure CutShort (room : Nat) (full short : DiagnosticLog) : Prop where
  flagged : short.flagged = full.flagged
  diagnostics : short.diagnostics = full.diagnostics
  unlimited : full.sink.room = none
  limited : short.sink.room = some (room - full.sink.bytes.length)
  bytes : short.sink.bytes = full.sink.bytes.take room

theorem cutShort_onSink (room : Nat) :
    CutShort room (onSink .unlimited) (onSink (.limited room)) :=
  ⟨rfl, rfl, rfl, rfl, by simp [onSink]⟩

theorem CutShort.record {room : Nat} {full short : DiagnosticLog}
    (cutShort : CutShort room full short) (diagnostic : Diagnostic) :
    CutShort room (full.record diagnostic) (short.record diagnostic) := by
  obtain ⟨fullBytes, fullRoom⟩ := Sink.bytes_write_of_unlimited
    cutShort.unlimited (diagnostic.display ++ "\n")
  obtain ⟨shortBytes, shortRoom⟩ := Sink.bytes_write_of_limited
    cutShort.limited (diagnostic.display ++ "\n")
  refine ⟨rfl, ?_, fullRoom, ?_, ?_⟩
  · exact congrArg (fun kept => kept.push diagnostic) cutShort.diagnostics
  · change (short.sink.write (diagnostic.display ++ "\n")).room =
      some (room - (full.sink.write (diagnostic.display ++ "\n")).bytes.length)
    rw [shortRoom, fullBytes, List.length_append, Nat.sub_sub]
  · change (short.sink.write (diagnostic.display ++ "\n")).bytes =
      (full.sink.write (diagnostic.display ++ "\n")).bytes.take room
    rw [shortBytes, fullBytes, cutShort.bytes, List.take_append]

theorem CutShort.recordAll {room : Nat} {full short : DiagnosticLog}
    (cutShort : CutShort room full short) (added : List Diagnostic) :
    CutShort room (full.recordAll added) (short.recordAll added) := by
  induction added generalizing full short with
  | nil => exact cutShort
  | cons diagnostic added ih => exact ih (cutShort.record diagnostic)

end DiagnosticLog

namespace Session

open DiagnosticLog

/-- How what a step did on a sink with limited room compares with what it did on
a sink that kept everything. -/
structure Outcome.AgreesUpTo (room : Nat) (full short : Outcome) : Prop where
  answer : short.answer = full.answer
  recorded : short.recorded = full.recorded
  flagged : short.log.flagged = full.log.flagged
  diagnostics : short.log.diagnostics = full.log.diagnostics
  bytes : short.log.sink.bytes = full.log.sink.bytes.take room

theorem cutShort_outcome {room : Nat} {full short : DiagnosticLog}
    (cutShort : CutShort room full short) (step : Step) :
    CutShort room (outcome full step).log (outcome short step).log := by
  rw [(outcome_eq full full step).2.2, (outcome_eq short full step).2.2]
  exact cutShort.recordAll _

theorem agreesUpTo_outcome {room : Nat} {full short : DiagnosticLog}
    (cutShort : CutShort room full short) (step : Step) :
    (outcome full step).AgreesUpTo room (outcome short step) := by
  obtain ⟨answer, recorded, -⟩ := outcome_eq short full step
  have reached := cutShort_outcome cutShort step
  exact ⟨answer, recorded, reached.flagged, reached.diagnostics, reached.bytes⟩

theorem agreesUpTo_run {room : Nat} {full short : DiagnosticLog}
    (cutShort : CutShort room full short) (steps : List Step) :
    List.Forall₂ (Outcome.AgreesUpTo room) (run full steps)
      (run short steps) := by
  induction steps generalizing full short with
  | nil => exact .nil
  | cons step steps ih =>
      exact .cons (agreesUpTo_outcome cutShort step)
        (ih (cutShort_outcome cutShort step))

/-- However little a sink keeps, every step of a session answers, records and
flags what it does on a sink that keeps everything, and the bytes in the sink are
the first of those in the other one.  The write of a line that does not fit fails
where the room ends, and its diagnostic is kept all the same. -/
theorem run_limited_agrees (room : Nat) (steps : List Step) :
    List.Forall₂ (Outcome.AgreesUpTo room)
        (run (onSink .unlimited) steps) (run (onSink (.limited room)) steps) ∧
      ∀ (log : DiagnosticLog) (diagnostic : Diagnostic),
        log.record diagnostic =
            { sink := (log.sink.writeFragments diagnostic.fragments).1
              flagged := true
              diagnostics := log.diagnostics.push diagnostic } ∧
          (log.sink.writeFragments diagnostic.fragments).2 =
            log.sink.fits (diagnostic.display ++ "\n") := by
  refine ⟨agreesUpTo_run (cutShort_onSink room) steps, ?_⟩
  intro log diagnostic
  refine ⟨log.record_eq_writeFragments diagnostic, ?_⟩
  rw [Sink.succeeds_writeFragments, diagnostic.join_fragments]

end Session
end Lox
