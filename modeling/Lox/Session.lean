import Lox.Cursor
import Lox.DiagnosticLog

/-!
# Sessions

A session is a list of steps that share one log.  A step scans a source, records
a diagnostic, looks at the log, or walks a source by hand.  Its outcome is its
answer together with what it added to the log.
-/

namespace Lox
namespace Session

inductive Step
  | scan (source : String)
  | error (line : Nat) (message : String)
  | report (line : Nat) (location message : String)
  | record (diagnostic : Diagnostic)
  | look
  | walk (source : String) (calls : List Cursor.Call) (thenScan : Bool)

/-- What a step returns.  A walk returns the reading of each call with the
cursor after it, and the tokens of its final scan if there is one. -/
inductive Answer
  | nothing
  | tokens (tokens : List Token)
  | walk (readings : List (Cursor.Reading × Cursor))
      (tokens : Option (List Token))

def perform (log : DiagnosticLog) : Step → Answer × DiagnosticLog
  | .scan source => (log.scan source).map .tokens id
  | .error line message => (.nothing, log.error line message)
  | .report line location message =>
      (.nothing, log.report line location message)
  | .record diagnostic => (.nothing, log.record diagnostic)
  | .look => (.nothing, log)
  | .walk source calls thenScan =>
      let start := Cursor.ofSource source
      let readings := start.performAll calls
      if thenScan then
        let scan := (start.afterAll calls).scan
        (.walk readings (some scan.tokens), log.recordAll scan.diagnostics)
      else
        (.walk readings none, log)

/-- What a step did: its answer, the diagnostics it recorded, the bytes it
wrote, and the log it left. -/
structure Outcome where
  answer : Answer
  recorded : List Diagnostic
  written : ByteArray
  log : DiagnosticLog

/-- Carry out a step, and set what it added apart from what was there. -/
def outcome (log : DiagnosticLog) (step : Step) : Outcome :=
  let (answer, reached) := perform log step
  { answer
    recorded := reached.diagnostics.toList.drop log.diagnostics.size
    written := reached.sink.writtenSince log.sink.held.size
    log := reached }

/-- Carry out steps in order, each on the log that the one before it left. -/
def run : DiagnosticLog → List Step → List Outcome
  | _, [] => []
  | log, step :: steps =>
      let first := outcome log step
      first :: run first.log steps

def afterAll (log : DiagnosticLog) (steps : List Step) : DiagnosticLog :=
  steps.foldl (fun reached step => (perform reached step).2) log

end Session
end Lox
