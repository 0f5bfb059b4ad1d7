import Lox.Scan
import Lox.Sink

/-!
# Logs of diagnostics

A log keeps diagnostics in the order in which they come, writes each to a sink
on a line, and remembers that there was one.  What becomes of the written line
has no influence on what the log keeps.
-/

namespace Lox

/-- The diagnostics of a session so far, the sink they are written to, and a
flag that the first of them raises for good. -/
structure DiagnosticLog where
  sink : Sink
  flagged : Bool
  diagnostics : Array Diagnostic

namespace DiagnosticLog

def onSink (sink : Sink) : DiagnosticLog :=
  ⟨sink, false, #[]⟩

/-- Keep a diagnostic, and write it to the sink with a newline behind it. -/
def record (log : DiagnosticLog) (diagnostic : Diagnostic) : DiagnosticLog where
  sink := log.sink.write (diagnostic.display ++ "\n")
  flagged := true
  diagnostics := log.diagnostics.push diagnostic

def recordAll (log : DiagnosticLog) (added : List Diagnostic) :
    DiagnosticLog :=
  added.foldl record log

/-- Keep a diagnostic with a message of the caller's own. -/
def report (log : DiagnosticLog) (line : Nat) (location message : String) :
    DiagnosticLog :=
  log.record ((Diagnostic.onLine line (.custom message)).located location)

/-- Keep a diagnostic with a message of the caller's own and no location. -/
def error (log : DiagnosticLog) (line : Nat) (message : String) :
    DiagnosticLog :=
  log.report line "" message

/-- Scan a source, and keep the diagnostics that this calls for. -/
def scan (log : DiagnosticLog) (source : String) :
    List Token × DiagnosticLog :=
  let result := Scan.ofSource source
  (result.tokens, log.recordAll result.diagnostics)

@[simp]
theorem recordAll_nil (log : DiagnosticLog) : log.recordAll [] = log := rfl

@[simp]
theorem recordAll_cons (log : DiagnosticLog) (diagnostic : Diagnostic)
    (added : List Diagnostic) :
    log.recordAll (diagnostic :: added) =
      (log.record diagnostic).recordAll added := rfl

theorem recordAll_append (log : DiagnosticLog)
    (first second : List Diagnostic) :
    log.recordAll (first ++ second) =
      (log.recordAll first).recordAll second := by
  simp [recordAll]

/-- What is recorded goes behind what was there before, in order. -/
theorem diagnostics_recordAll (log : DiagnosticLog)
    (added : List Diagnostic) :
    (log.recordAll added).diagnostics.toList =
      log.diagnostics.toList ++ added := by
  induction added generalizing log with
  | nil => simp
  | cons diagnostic added ih =>
      rw [recordAll_cons, ih]
      simp [record]

/-- The flag is raised by the first diagnostic and never lowered. -/
theorem flagged_recordAll (log : DiagnosticLog) (added : List Diagnostic) :
    (log.recordAll added).flagged = (log.flagged || !added.isEmpty) := by
  induction added generalizing log with
  | nil => simp
  | cons diagnostic added ih =>
      rw [recordAll_cons, ih]
      simp [record]

end DiagnosticLog
end Lox
