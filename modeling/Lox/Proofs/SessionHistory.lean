import Lox.Session

/-!
# What a session leaves behind

Every step of a session answers and records what it would on a log of its own:
nothing that happened before has an influence on it.  From this follows that a
log only grows, and that its flag, its diagnostics and the lines in its sink stay
in step, however many scans, reports and walks share it.
-/

namespace Lox

namespace DiagnosticLog

/-- The bytes of diagnostics written one to a line. -/
def writtenLines (diagnostics : List Diagnostic) : List UInt8 :=
  diagnostics.flatMap fun diagnostic => Sink.encode (diagnostic.display ++ "\n")

/-- What holds of a log whose sink has kept everything since it was empty. -/
structure InStep (log : DiagnosticLog) : Prop where
  unlimited : log.sink.room = none
  flagged : log.flagged = true ↔ log.diagnostics.toList ≠ []
  written : log.sink.bytes = writtenLines log.diagnostics.toList

theorem inStep_onSink : (onSink .unlimited).InStep :=
  ⟨rfl, by simp [onSink], rfl⟩

theorem InStep.record {log : DiagnosticLog} (inStep : log.InStep)
    (diagnostic : Diagnostic) : (log.record diagnostic).InStep := by
  obtain ⟨bytes, room⟩ :=
    Sink.bytes_write_of_unlimited inStep.unlimited (diagnostic.display ++ "\n")
  refine ⟨room, by simp [DiagnosticLog.record], ?_⟩
  change (log.sink.write (diagnostic.display ++ "\n")).bytes = _
  rw [bytes, inStep.written]
  simp [writtenLines, DiagnosticLog.record]

theorem InStep.recordAll {log : DiagnosticLog} (inStep : log.InStep)
    (added : List Diagnostic) : (log.recordAll added).InStep := by
  induction added generalizing log with
  | nil => exact inStep
  | cons diagnostic added ih => exact ih (inStep.record diagnostic)

end DiagnosticLog

namespace Session

open DiagnosticLog

/-- A step answers the same on every log, and records the same on it. -/
theorem exists_perform_eq (step : Step) :
    ∃ answer added, ∀ log : DiagnosticLog,
      perform log step = (answer, log.recordAll added) := by
  cases step with
  | scan source => exact ⟨_, _, fun _ => rfl⟩
  | error line message =>
      exact ⟨.nothing, [⟨.custom message, line, ""⟩], fun _ => rfl⟩
  | report line location message =>
      exact ⟨.nothing, [⟨.custom message, line, location⟩], fun _ => rfl⟩
  | record diagnostic => exact ⟨.nothing, [diagnostic], fun _ => rfl⟩
  | look => exact ⟨.nothing, [], fun _ => rfl⟩
  | walk source calls thenScan =>
      cases thenScan with
      | false => exact ⟨_, [], fun _ => rfl⟩
      | true => exact ⟨_, _, fun _ => rfl⟩

theorem outcome_of_perform_eq {log : DiagnosticLog} {step : Step}
    {answer : Answer} {added : List Diagnostic}
    (performed : perform log step = (answer, log.recordAll added)) :
    (outcome log step).answer = answer ∧
      (outcome log step).recorded = added ∧
      (outcome log step).log = log.recordAll added := by
  refine ⟨?_, ?_, ?_⟩
  · simp [outcome, performed]
  · simp [outcome, performed, diagnostics_recordAll]
  · simp [outcome, performed]

/-- A step on any log does what it does on another, and the log grows by what it
records. -/
theorem outcome_eq (log other : DiagnosticLog) (step : Step) :
    (outcome log step).answer = (outcome other step).answer ∧
      (outcome log step).recorded = (outcome other step).recorded ∧
      (outcome log step).log = log.recordAll (outcome other step).recorded := by
  obtain ⟨answer, added, performed⟩ := exists_perform_eq step
  obtain ⟨answerEq, recordedEq, logEq⟩ := outcome_of_perform_eq (performed log)
  obtain ⟨otherAnswer, otherRecorded, -⟩ :=
    outcome_of_perform_eq (performed other)
  rw [otherAnswer, otherRecorded]
  exact ⟨answerEq, recordedEq, logEq⟩

theorem length_run (log : DiagnosticLog) (steps : List Step) :
    (run log steps).length = steps.length := by
  induction steps generalizing log with
  | nil => rfl
  | cons step steps ih => simp [run, ih]

theorem run_append (log : DiagnosticLog) (first second : List Step) :
    run log (first ++ second) =
      run log first ++ run (afterAll log first) second := by
  induction first generalizing log with
  | nil => rfl
  | cons step first ih => simp [run, ih, afterAll, outcome]

/-- Each outcome of a run is that of its step on the log that the steps before
it have left. -/
theorem getElem?_run (log : DiagnosticLog) (earlier : List Step) (step : Step)
    (later : List Step) :
    (run log (earlier ++ step :: later))[earlier.length]? =
      some (outcome (afterAll log earlier) step) := by
  have passed : (run log earlier).length ≤ earlier.length :=
    Nat.le_of_eq (length_run log earlier)
  rw [run_append, List.getElem?_append_right passed, length_run, Nat.sub_self]
  rfl

theorem inStep_outcome {log : DiagnosticLog} (inStep : log.InStep)
    (step : Step) : (outcome log step).log.InStep := by
  rw [(outcome_eq log log step).2.2]
  exact inStep.recordAll _

theorem inStep_afterAll {log : DiagnosticLog} (inStep : log.InStep)
    (steps : List Step) : (afterAll log steps).InStep := by
  induction steps generalizing log with
  | nil => exact inStep
  | cons step steps ih => exact ih (inStep_outcome inStep step)

/-- How the outcome of a step follows on what a session did before, given what
the step does on a log of its own. -/
structure Outcome.Continues (done : Outcome) (before : DiagnosticLog)
    (step : Step) (alone : Outcome) : Prop where
  answer : done.answer = alone.answer
  recorded : done.recorded = alone.recorded
  appended : done.log.diagnostics.toList =
    before.diagnostics.toList ++ alone.recorded
  flagged : done.log.flagged = true ↔ done.log.diagnostics.toList ≠ []
  flagStays : before.flagged = true → done.log.flagged = true
  written : done.log.sink.bytes = writtenLines done.log.diagnostics.toList
  error : ∀ line message, step = .error line message →
    alone.recorded = [⟨.custom message, line, ""⟩]
  report : ∀ line location message, step = .report line location message →
    alone.recorded = [⟨.custom message, line, location⟩]
  record : ∀ diagnostic, step = .record diagnostic →
    alone.recorded = [diagnostic]
  walk : ∀ source calls, step = .walk source calls false → alone.recorded = []

theorem continues_outcome {log : DiagnosticLog} (inStep : log.InStep)
    (other : Sink) (step : Step) :
    (outcome log step).Continues log step (outcome (onSink other) step) := by
  obtain ⟨answer, recorded, logEq⟩ := outcome_eq log (onSink other) step
  have reached := inStep_outcome inStep step
  refine ⟨answer, recorded, ?_, reached.flagged, ?_, reached.written,
    ?_, ?_, ?_, ?_⟩
  · rw [logEq, diagnostics_recordAll]
  · intro raised
    rw [logEq, flagged_recordAll, raised, Bool.true_or]
  · rintro line message rfl
    rfl
  · rintro line location message rfl
    rfl
  · rintro diagnostic rfl
    rfl
  · rintro source calls rfl
    rfl

/-- Whatever a session has done before and does later, each of its steps does
what it would do on a log of its own, on any sink.  Its log grows by what the
step records, is flagged once it holds a diagnostic, and its sink holds all
diagnostics, one to a line. -/
theorem run_continues (other : Sink) (earlier : List Step) (step : Step)
    (later : List Step) :
    ∃ done,
      (run (onSink .unlimited) (earlier ++ step :: later))[earlier.length]? =
        some done ∧
      done.Continues (afterAll (onSink .unlimited) earlier) step
        (outcome (onSink other) step) ∧
      done.log = afterAll (onSink .unlimited) (earlier ++ [step]) := by
  refine ⟨_, getElem?_run _ earlier step later, ?_, ?_⟩
  · exact continues_outcome (inStep_afterAll inStep_onSink earlier) other step
  · simp [afterAll, outcome]

end Session
end Lox
