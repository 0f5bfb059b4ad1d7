import Lox.Proofs.Placement
import Lox.Session

/-!
# Walking through a source

A cursor that has taken some steps stands behind as many characters of its source,
or at the end if there are not so many.  This file proves that all its answers are
those of that place, and that a scan which starts there is the scan of what remains,
moved behind what was passed.  Newlines that were passed do not count.
-/

namespace Lox

namespace Scan

theorem tokens_fromPosition (position : Position) (text : List Char) :
    (fromPosition position text).tokens =
      PlacedPiece.tokensFrom position (Piece.cut text) ++
        [endTokenAt (position.afterAll (Piece.cut text))] := by
  rw [fromPosition, ofPieces_eq, tokens]

/-- Scanning a text elsewhere moves all tokens and changes nothing else. -/
theorem tokens_fromPosition_moved (position : Position) (text : List Char)
    (bytes lines : Nat) :
    (fromPosition (position.moved bytes lines) text).tokens =
      (fromPosition position text).tokens.map fun token =>
        token.moved bytes lines := by
  rw [tokens_fromPosition, tokens_fromPosition, List.map_append,
    PlacedPiece.tokensFrom_moved, Position.moved_afterAll]
  rfl

theorem diagnostics_fromPosition_moved (position : Position) (text : List Char)
    (bytes lines : Nat) :
    (fromPosition (position.moved bytes lines) text).diagnostics =
      (fromPosition position text).diagnostics.map fun diagnostic =>
        diagnostic.moved lines :=
  PlacedPiece.diagnosticsFrom_moved position (Piece.cut text) bytes lines

end Scan

namespace Cursor

/-- The cursor behind a number of characters of a source, or at the end of it. -/
def behind (source : List Char) (steps : Nat) : Cursor where
  position := ⟨TextBytes.byteLength (source.take steps), 1⟩
  rest := source.drop steps

/-- How many steps a call asks for. -/
def Call.steps : Call → Nat
  | .advance => 1
  | .advanceBy steps => steps
  | .peek | .atEnd | .line | .remainder => 0

/-- What the steps of a call passed, according to its answer. -/
def Call.passed : Call → Reading → List (Option Char)
  | .advance, .character next => [next]
  | .advanceBy _, .characters passed => passed
  | _, _ => []

def stepsOf : List Call → Nat
  | [] => 0
  | call :: calls => call.steps + stepsOf calls

/-- What all steps of some calls passed, one by one. -/
def passedBy (calls : List Call) (readings : List (Reading × Cursor)) :
    List (Option Char) :=
  (calls.zip readings).flatMap fun answered =>
    answered.1.passed answered.2.1

theorem ofSource_eq_behind (source : String) :
    ofSource source = behind source.toList 0 :=
  rfl

/-- A step returns the character it passes.  Past the end there is none, and no
place further on either. -/
theorem advance_behind (source : List Char) (steps : Nat) :
    (behind source steps).advance =
      (source[steps]?, behind source (steps + 1)) := by
  have nextEq : (source.drop steps).head? = source[steps]? := by
    rw [List.head?_drop]
  have restEq : source.drop (steps + 1) = (source.drop steps).tail :=
    List.tail_drop.symm
  cases rest : source.drop steps with
  | nil =>
      -- Past the end, taking more characters takes no more.
      have past : source.length ≤ steps := List.drop_eq_nil_iff.mp rest
      rw [← nextEq, rest]
      simp [advance, behind, rest, restEq, List.take_of_length_le past,
        List.take_of_length_le (Nat.le_succ_of_le past)]
  | cons next others =>
      rw [← nextEq, rest]
      have takenEq : source.take (steps + 1) = source.take steps ++ [next] := by
        rw [List.take_add_one, ← nextEq, rest]
        rfl
      simp [advance, behind, rest, restEq, takenEq]

theorem advanceBy_behind (source : List Char) (steps count : Nat) :
    (behind source steps).advanceBy count =
      ((List.range' steps count).map fun step => source[step]?,
        behind source (steps + count)) := by
  induction count generalizing steps with
  | zero => rfl
  | succ count ih =>
      rw [advanceBy, advance_behind]
      simp only [ih, List.range'_succ, List.map_cons, Prod.mk.injEq, true_and]
      rw [Nat.add_right_comm, Nat.add_assoc]

/-- A call passes the characters it asks for and leads behind them. -/
theorem perform_behind (source : List Char) (steps : Nat) (call : Call) :
    call.passed ((behind source steps).perform call).1 =
        (List.range' steps call.steps).map (fun step => source[step]?) ∧
      ((behind source steps).perform call).2 =
        behind source (steps + call.steps) := by
  cases call with
  | advance =>
      rw [perform, advance_behind]
      exact ⟨rfl, rfl⟩
  | advanceBy count =>
      rw [perform, advanceBy_behind]
      exact ⟨rfl, rfl⟩
  | peek | atEnd | line | remainder => exact ⟨rfl, rfl⟩

theorem afterAll_behind (source : List Char) (steps : Nat)
    (calls : List Call) :
    (behind source steps).afterAll calls =
      behind source (steps + stepsOf calls) := by
  induction calls generalizing steps with
  | nil => rfl
  | cons call calls ih =>
      change ((behind source steps).perform call).2.afterAll calls = _
      rw [(perform_behind source steps call).2, ih, stepsOf, Nat.add_assoc]

theorem passedBy_behind (source : List Char) (steps : Nat)
    (calls : List Call) :
    passedBy calls ((behind source steps).performAll calls) =
      (List.range' steps (stepsOf calls)).map fun step => source[step]? := by
  induction calls generalizing steps with
  | nil => rfl
  | cons call calls ih =>
      obtain ⟨passed, reached⟩ := perform_behind source steps call
      have others := ih (steps + call.steps)
      rw [← reached] at others
      change call.passed ((behind source steps).perform call).1 ++
        passedBy calls (((behind source steps).perform call).2.performAll calls) = _
      rw [passed, others, ← List.map_append]
      simp [stepsOf]

/-- Each answer is that of the cursor as the calls before have left it. -/
theorem getElem?_performAll (cursor : Cursor) (earlier : List Call)
    (call : Call) (later : List Call) :
    (cursor.performAll (earlier ++ call :: later))[earlier.length]? =
      some ((cursor.afterAll earlier).perform call) := by
  induction earlier generalizing cursor with
  | nil => rfl
  | cons first earlier ih => exact ih (cursor.perform first).2

/-- What the answers of a cursor are that has taken a number of steps through a
source. -/
structure StandsBehind (cursor : Cursor) (source : String) (steps : Nat) :
    Prop where
  whole : String.ofList (source.toList.take steps) ++ cursor.remainder = source
  peek : cursor.peek = cursor.remainder.toList.head?
  atEnd_iff : cursor.atEnd = true ↔ cursor.remainder = ""
  peek_eq_none_iff : cursor.peek = none ↔ cursor.remainder = ""
  line : cursor.line = 1
  passes : cursor.advance.1 = source.toList[steps]?
  stays : cursor.remainder = "" → cursor.advance = (none, cursor)

theorem remainder_eq_empty_iff (cursor : Cursor) :
    cursor.remainder = "" ↔ cursor.rest = [] := by
  rw [remainder, ← String.toList_inj, String.toList_ofList]
  rfl

theorem standsBehind_behind (source : String) (steps : Nat) :
    (behind source.toList steps).StandsBehind source steps where
  whole := by
    rw [remainder, ← String.ofList_append, behind, List.take_append_drop,
      String.ofList_toList]
  peek := by rw [remainder, String.toList_ofList, Cursor.peek]
  atEnd_iff := by rw [remainder_eq_empty_iff, atEnd, List.isEmpty_iff]
  peek_eq_none_iff := by
    rw [remainder_eq_empty_iff, Cursor.peek, List.head?_eq_none_iff]
  line := rfl
  passes := by rw [advance_behind]
  stays := by
    rw [remainder_eq_empty_iff]
    intro nothing
    rw [advance, nothing]

/-- What calls to a cursor in front of a source return, and where they lead it. -/
structure Answered (source : String) (calls : List Call)
    (readings : List (Reading × Cursor)) (reached : Cursor) : Prop where
  reached : reached.StandsBehind source (stepsOf calls)
  passed : passedBy calls readings =
    (List.range (stepsOf calls)).map fun step => source.toList[step]?
  each : ∀ earlier call later, calls = earlier ++ call :: later →
    ∃ cursor : Cursor, cursor.StandsBehind source (stepsOf earlier) ∧
      readings[earlier.length]? = some (cursor.perform call)

theorem afterAll_ofSource (source : String) (calls : List Call) :
    (ofSource source).afterAll calls =
      behind source.toList (stepsOf calls) := by
  rw [ofSource_eq_behind, afterAll_behind, Nat.zero_add]

theorem answered_performAll (source : String) (calls : List Call) :
    Answered source calls ((ofSource source).performAll calls)
      ((ofSource source).afterAll calls) where
  reached := by
    rw [afterAll_ofSource]
    exact standsBehind_behind source _
  passed := by
    rw [ofSource_eq_behind, passedBy_behind, List.range_eq_range']
  each := by
    rintro earlier call later rfl
    refine ⟨_, standsBehind_behind source (stepsOf earlier), ?_⟩
    rw [← afterAll_ofSource]
    exact getElem?_performAll _ earlier call later

/-- A scan from a cursor is a scan of what remains, moved behind what was passed.
No line was counted on the way. -/
theorem scan_behind (source : String) (steps : Nat) :
    (behind source.toList steps).scan.tokens =
        (Scan.ofSource (behind source.toList steps).remainder).tokens.map
          (fun token => token.moved
            (TextBytes.byteLength (source.toList.take steps)) 0) ∧
      (behind source.toList steps).scan.diagnostics =
        (Scan.ofSource (behind source.toList steps).remainder).diagnostics := by
  have start : (behind source.toList steps).position =
      Position.origin.moved
        (TextBytes.byteLength (source.toList.take steps)) 0 := by
    simp [behind, Position.origin, Position.moved]
  rw [scan, start, Scan.tokens_fromPosition_moved,
    Scan.diagnostics_fromPosition_moved, Scan.ofSource, remainder,
    String.toList_ofList]
  exact ⟨rfl, List.map_id _⟩

theorem getLast?_tokens_scan_behind (source : String) (steps : Nat) :
    (behind source.toList steps).scan.tokens.getLast? = some {
      kind := .endOfInput
      lexeme := ""
      literal := none
      line := 1 + (behind source.toList steps).remainder.toList.count '\n'
      span := ⟨source.utf8ByteSize, source.utf8ByteSize⟩
    } := by
  have bytes : TextBytes.byteLength (source.toList.take steps) +
      TextBytes.byteLength (source.toList.drop steps) = source.utf8ByteSize := by
    rw [← TextBytes.byteLength_append, List.take_append_drop,
      TextBytes.byteLength_toList]
  rw [scan, Scan.tokens_fromPosition, List.getLast?_concat,
    Position.afterAll_cut, remainder, String.toList_ofList]
  simp [Scan.endTokenAt, Position.moved, behind, bytes]

end Cursor

namespace Session

open Cursor

/-- A walk with any calls passes the characters of its source in order, answers
from where that leads it, and leaves the log alone.  A scan at its end reads what
remains as if that stood alone, and records the same for it; only the spans of its
tokens count from the beginning of the source. -/
theorem perform_walk (log : DiagnosticLog) (source : String)
    (calls : List Call) :
    ∃ readings reached tokens,
      (ofSource source).afterAll calls = reached ∧
      Answered source calls readings reached ∧
      perform log (.walk source calls false) = (.walk readings none, log) ∧
      perform log (.walk source calls true) =
        (.walk readings (some tokens), (log.scan reached.remainder).2) ∧
      tokens = (log.scan reached.remainder).1.map (fun token => token.moved
        (TextBytes.byteLength (source.toList.take (stepsOf calls))) 0) ∧
      tokens.getLast? = some {
        kind := .endOfInput
        lexeme := ""
        literal := none
        line := 1 + reached.remainder.toList.count '\n'
        span := ⟨source.utf8ByteSize, source.utf8ByteSize⟩
      } := by
  obtain ⟨tokens, diagnostics⟩ := scan_behind source (stepsOf calls)
  have ends := getLast?_tokens_scan_behind source (stepsOf calls)
  rw [← afterAll_ofSource] at tokens diagnostics ends
  refine ⟨_, _, _, rfl, answered_performAll source calls, rfl, ?_, tokens, ends⟩
  rw [DiagnosticLog.scan, ← diagnostics]
  rfl

end Session
end Lox
