import Lox.Proofs.Lines
import Lox.Proofs.Placement
import Lox.Proofs.SessionHistory

/-!
# Lines in a sink

Each diagnostic is written with a newline behind it, so a reader may hope to find
the diagnostics again by splitting what a sink holds at newlines.  But locations and
messages are free text, and a newline in them ends a line early.  This file proves
which lines a reader finds, and that they are the diagnostics one for one exactly
when nobody has supplied a newline.
-/

namespace Lox

namespace Piece

/-- A text has one part more than it has newlines to split it at. -/
theorem length_splitOn_newline (text : List Char) :
    (text.splitOn '\n').length = text.count '\n' + 1 := by
  induction text using lineInduction with
  | line line inside =>
      rw [List.splitOn_eq_singleton inside, List.count_eq_zero.mpr inside]
      rfl
  | newline line rest inside ih =>
      rw [List.splitOn_append_cons_self_of_not_mem inside, List.length_cons, ih,
        List.count_append, List.count_eq_zero.mpr inside, List.count_cons_self]
      omega

end Piece

/-- The lines of a text that may hold newlines itself. -/
def splitLines (text : String) : List String :=
  (text.toList.splitOn '\n').map String.ofList

theorem length_splitLines (text : String) :
    (splitLines text).length = text.toList.count '\n' + 1 := by
  rw [splitLines, List.length_map, Piece.length_splitOn_newline]

theorem splitLines_of_newline_notMem {text : String}
    (single : '\n' ∉ text.toList) : splitLines text = [text] := by
  simp [splitLines, List.splitOn_eq_singleton single]

namespace Sink

/-- The lines that a sink holds, if they can be read: nothing may be cut inside a
character, and the last line has to be ended. -/
def lines? (sink : Sink) : Option (List String) := do
  let text ← decode? sink.held
  let parts := text.toList.splitOn '\n'
  if parts.getLast? = some [] then
    return parts.dropLast.map String.ofList
  else
    none

theorem decode?_toUTF8 (text : String) : decode? text.toUTF8 = some text := by
  unfold decode? String.fromUTF8?
  exact dif_pos text.isValidUTF8

theorem held_eq_toUTF8 {sink : Sink} {text : String}
    (bytes : sink.bytes = encode text) : sink.held = text.toUTF8 :=
  ByteArray.ext (Array.toList_inj.mp bytes)

theorem encode_join (texts : List String) :
    encode (String.join texts) = texts.flatMap encode := by
  induction texts with
  | nil => rfl
  | cons text texts ih =>
      rw [String.join_cons, encode_append, ih, List.flatMap_cons]

theorem splitOn_ended (texts : List String) :
    (texts.flatMap fun text => (text ++ "\n").toList).splitOn '\n' =
      (texts.flatMap fun text => text.toList.splitOn '\n') ++ [[]] := by
  induction texts with
  | nil => rfl
  | cons text texts ih =>
      rw [List.flatMap_cons, String.toList_append, List.append_assoc]
      change (text.toList ++ '\n' ::
        texts.flatMap fun text => (text ++ "\n").toList).splitOn '\n' = _
      rw [List.splitOn_append_cons_self, ih, List.flatMap_cons, List.append_assoc]

/-- Texts that are each written with a newline behind them are read as their own
lines. -/
theorem lines?_of_bytes {sink : Sink} {texts : List String}
    (bytes : sink.bytes = texts.flatMap fun text => encode (text ++ "\n")) :
    sink.lines? = some (texts.flatMap splitLines) := by
  have joined : sink.bytes =
      encode (String.join (texts.map fun text => text ++ "\n")) := by
    rw [encode_join, List.flatMap_map, bytes]
  have parts : (String.join (texts.map fun text => text ++ "\n")).toList.splitOn
      '\n' = (texts.flatMap fun text => text.toList.splitOn '\n') ++ [[]] := by
    rw [String.toList_join, List.flatMap_map, splitOn_ended]
  rw [lines?, held_eq_toUTF8 joined, decode?_toUTF8]
  simp only [Option.bind_eq_bind, Option.bind_some, parts, List.getLast?_concat,
    List.dropLast_concat, List.map_flatMap]
  rfl

end Sink

/-- The free text of a diagnostic. -/
def Diagnostic.wording (diagnostic : Diagnostic) : List Char :=
  diagnostic.location.toList ++ diagnostic.cause.message.toList

theorem newline_notMem_toString (number : Nat) :
    '\n' ∉ (toString number).toList := by
  rw [Nat.toString_eq_ofList_toDigits, String.toList_ofList]
  intro member
  have digit := Nat.isDigit_of_mem_toDigits (by decide) (by decide) member
  exact absurd digit (by decide)

/-- What is put around the free text of a diagnostic has no newline. -/
theorem Diagnostic.count_newline_display (diagnostic : Diagnostic) :
    diagnostic.display.toList.count '\n' = diagnostic.wording.count '\n' := by
  have noNewline := List.count_eq_zero.mpr
    (newline_notMem_toString diagnostic.line)
  simp only [display, wording, String.toList_append, List.count_append, noNewline]
  simp

/-- A scan words what it records itself, without newlines. -/
theorem PlacedPiece.newline_notMem_wording_diagnosticsFrom (position : Position)
    (pieces : List Piece) :
    '\n' ∉ (diagnosticsFrom position pieces).flatMap Diagnostic.wording := by
  rw [List.mem_flatMap]
  rintro ⟨diagnostic, recorded, member⟩
  obtain ⟨⟨piece, place⟩, -, found⟩ := List.mem_filterMap.mp recorded
  cases piece with
  | stray character =>
      obtain rfl := Option.some.inj found
      simp [Diagnostic.wording, Diagnostic.onLine, Cause.message] at member
  | _ => simp [diagnostic?] at found

namespace DiagnosticLog

/-- The messages of the diagnostics of a log, in order. -/
def messages (log : DiagnosticLog) : List String :=
  log.diagnostics.toList.map Diagnostic.display

/-- The free text of all diagnostics of a log. -/
def wording (log : DiagnosticLog) : List Char :=
  log.diagnostics.toList.flatMap Diagnostic.wording

theorem InStep.lines? {log : DiagnosticLog} (inStep : log.InStep) :
    log.sink.lines? = some (log.messages.flatMap splitLines) := by
  apply Sink.lines?_of_bytes
  rw [inStep.written, writtenLines, messages, List.flatMap_map]

theorem length_flatMap_splitLines (diagnostics : List Diagnostic) :
    ((diagnostics.map Diagnostic.display).flatMap splitLines).length =
      diagnostics.length +
        (diagnostics.flatMap Diagnostic.wording).count '\n' := by
  induction diagnostics with
  | nil => rfl
  | cons diagnostic diagnostics ih =>
      rw [List.map_cons, List.flatMap_cons, List.length_append, ih,
        length_splitLines, diagnostic.count_newline_display, List.flatMap_cons,
        List.count_append, List.length_cons]
      omega

theorem length_lines (log : DiagnosticLog) :
    (log.messages.flatMap splitLines).length =
      log.diagnostics.size + log.wording.count '\n' := by
  rw [messages, length_flatMap_splitLines, Array.length_toList, wording]

/-- Messages are lines as they are when no free text has a newline. -/
theorem lines_eq_messages_iff (log : DiagnosticLog) :
    log.messages.flatMap splitLines = log.messages ↔ '\n' ∉ log.wording := by
  constructor
  · intro same
    have lengths := congrArg List.length same
    rw [length_lines, messages, List.length_map, Array.length_toList] at lengths
    exact List.count_eq_zero.mp (by omega)
  · intro single
    have alone : ∀ message ∈ log.messages, splitLines message = [message] := by
      intro message member
      obtain ⟨diagnostic, recorded, rfl⟩ := List.mem_map.mp member
      apply splitLines_of_newline_notMem
      rw [← List.count_eq_zero, diagnostic.count_newline_display,
        List.count_eq_zero]
      intro inside
      exact single (List.mem_flatMap.mpr ⟨diagnostic, recorded, inside⟩)
    rw [List.flatMap_congr alone, List.flatMap_singleton']

end DiagnosticLog

namespace Session

open DiagnosticLog

/-- The free text that a step supplies. -/
def Step.wording : Step → List Char
  | .error _ message => message.toList
  | .report _ location message => location.toList ++ message.toList
  | .record diagnostic => diagnostic.wording
  | .scan _ | .look | .walk _ _ _ => []

/-- The newlines in what a step records are those that it was given. -/
theorem count_newline_recorded (log : DiagnosticLog) (step : Step) :
    ((outcome log step).recorded.flatMap Diagnostic.wording).count '\n' =
      step.wording.count '\n' := by
  -- It is enough to know what the step records.
  have ofAdded {answer : Answer} (added : List Diagnostic)
      (performed : perform log step = (answer, log.recordAll added))
      (same : (added.flatMap Diagnostic.wording).count '\n' =
        step.wording.count '\n') :
      ((outcome log step).recorded.flatMap Diagnostic.wording).count '\n' =
        step.wording.count '\n' := by
    rw [(outcome_of_perform_eq performed).2.1, same]
  have scanned (position : Position) (text : List Char) :
      ((Scan.fromPosition position text).diagnostics.flatMap
        Diagnostic.wording).count '\n' = 0 :=
    List.count_eq_zero.mpr
      (PlacedPiece.newline_notMem_wording_diagnosticsFrom position _)
  cases step with
  | scan source => exact ofAdded _ rfl (scanned .origin source.toList)
  | error line message =>
      refine ofAdded [⟨.custom message, line, ""⟩] rfl ?_
      simp [Diagnostic.wording, Cause.message, Step.wording]
  | report line location message =>
      refine ofAdded [⟨.custom message, line, location⟩] rfl ?_
      simp [Diagnostic.wording, Cause.message, Step.wording]
  | record diagnostic =>
      refine ofAdded [diagnostic] rfl ?_
      simp [Step.wording]
  | look => exact ofAdded [] rfl rfl
  | walk source calls thenScan =>
      cases thenScan with
      | false => exact ofAdded [] rfl rfl
      | true => exact ofAdded _ rfl (scanned _ _)

theorem count_newline_wording_afterAll (log : DiagnosticLog)
    (steps : List Step) :
    (afterAll log steps).wording.count '\n' =
      log.wording.count '\n' + (steps.flatMap Step.wording).count '\n' := by
  induction steps generalizing log with
  | nil => rfl
  | cons step steps ih =>
      have reached : (outcome log step).log.wording =
          log.wording ++ (outcome log step).recorded.flatMap
            Diagnostic.wording := by
        rw [wording, (outcome_eq log log step).2.2, diagnostics_recordAll,
          List.flatMap_append, wording]
      change (afterAll (outcome log step).log steps).wording.count '\n' = _
      rw [ih, reached, List.count_append, count_newline_recorded,
        List.flatMap_cons, List.count_append, Nat.add_assoc]

/-- What a reader finds who splits the sink of a session at newlines: for each
diagnostic one line, and one more for each newline in the free text that a step has
supplied.  The lines are the diagnostics one for one exactly when there are no such
newlines. -/
theorem lines_afterAll (steps : List Step) :
    let log := afterAll (onSink .unlimited) steps
    (∃ lines, log.sink.lines? = some lines ∧
      lines.length =
        log.diagnostics.size + (steps.flatMap Step.wording).count '\n') ∧
    (log.sink.lines? = some (log.diagnostics.toList.map Diagnostic.display) ↔
      ∀ step ∈ steps, '\n' ∉ step.wording) := by
  intro log
  have found : log.sink.lines? = some (log.messages.flatMap splitLines) :=
    (inStep_afterAll inStep_onSink steps).lines?
  have newlines : log.wording.count '\n' =
      (steps.flatMap Step.wording).count '\n' :=
    (count_newline_wording_afterAll _ steps).trans (Nat.zero_add _)
  refine ⟨⟨_, found, ?_⟩, ?_⟩
  · rw [length_lines, newlines]
  · rw [found, Option.some.injEq, ← messages, lines_eq_messages_iff,
      ← List.count_eq_zero, newlines, List.count_eq_zero, List.mem_flatMap]
    simp only [not_exists, not_and]

/-- A message of two lines is one diagnostic, and a reader takes it for two. -/
theorem lines_of_message_with_newline :
    let log := afterAll (onSink .unlimited) [.error 1 "a\nb"]
    log.diagnostics.size = 1 ∧
      log.sink.lines? = some ["[line 1] Error: a", "b"] ∧
      log.sink.lines? ≠
        some (log.diagnostics.toList.map Diagnostic.display) := by
  decide

end Session
end Lox
