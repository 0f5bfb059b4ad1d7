import Lox.DiagnosticLog
import Lox.Proofs.Boundaries

/-!
# Pieces in their places

The tokens and the diagnostics of a scan are read off its pieces one by one.
This file says how far a list of pieces moves a position, how the results for
two lists of pieces make up those for both together, and that starting elsewhere
only moves them.  It ends with what a log shows of a scan.
-/

namespace Lox

namespace TextBytes

theorem byteLength_toList (source : String) :
    byteLength source.toList = source.utf8ByteSize := by
  have sizes (text : List Char) :
      (String.ofList text).utf8ByteSize = byteLength text := by
    induction text with
    | nil => rfl
    | cons first rest ih => simp [String.ofList_cons, ih]
  rw [← sizes, String.ofList_toList]

end TextBytes

def Span.moved (span : Span) (bytes : Nat) : Span :=
  ⟨span.start + bytes, span.stop + bytes⟩

/-- A token that many bytes and lines further on. -/
def Token.moved (token : Token) (bytes lines : Nat) : Token :=
  { token with line := token.line + lines, span := token.span.moved bytes }

def Diagnostic.moved (diagnostic : Diagnostic) (lines : Nat) : Diagnostic :=
  { diagnostic with line := diagnostic.line + lines }

namespace Piece

theorem count_newline_text {piece : Piece} (wellFormed : piece.WellFormed) :
    piece.text.count '\n' = if piece = newline then 1 else 0 := by
  cases piece with
  | symbol sign => cases sign <;> rfl
  | comment body =>
      have noLine : body.count '\n' = 0 := List.count_eq_zero.mpr wellFormed
      simp [text, noLine]
  | blank character =>
      have different : character ≠ '\n' := by
        rintro rfl
        simp [WellFormed, isBlank] at wellFormed
      simp [text, different]
  | newline => rfl
  | stray character =>
      have different := ((isUnexpected_iff character).mp wellFormed).2.2.2.1
      simp [text, different]

end Piece

namespace Position

def moved (position : Position) (bytes lines : Nat) : Position :=
  ⟨position.offset + bytes, position.line + lines⟩

theorem after_eq_moved (position : Position) {piece : Piece}
    (wellFormed : piece.WellFormed) :
    position.after piece =
      position.moved piece.byteLength (piece.text.count '\n') := by
  rw [Piece.count_newline_text wellFormed]
  cases piece <;> rfl

/-- Pieces move a position by their bytes and by the newlines in them. -/
theorem afterAll_eq_moved (position : Position) {pieces : List Piece}
    (wellFormed : ∀ piece ∈ pieces, piece.WellFormed) :
    position.afterAll pieces =
      position.moved (TextBytes.byteLength (pieces.flatMap Piece.text))
        ((pieces.flatMap Piece.text).count '\n') := by
  induction pieces generalizing position with
  | nil => rfl
  | cons piece pieces ih =>
      have formed := List.forall_mem_cons.mp wellFormed
      change (position.after piece).afterAll pieces = _
      rw [ih _ formed.2, after_eq_moved position formed.1]
      simp [moved, Piece.byteLength, Nat.add_assoc]

theorem afterAll_cut (position : Position) (text : List Char) :
    position.afterAll (Piece.cut text) =
      position.moved (TextBytes.byteLength text) (text.count '\n') := by
  rw [afterAll_eq_moved position fun _ => Piece.wellFormed_of_mem_cut,
    Piece.flatMap_text_cut]

/-- The position that a text leads to from the beginning of a source. -/
def behind (before : List Char) : Position :=
  ⟨TextBytes.byteLength before, 1 + before.count '\n'⟩

theorem after_behind (before : List Char) {piece : Piece}
    (wellFormed : piece.WellFormed) :
    (behind before).after piece = behind (before ++ piece.text) := by
  rw [after_eq_moved _ wellFormed]
  simp [behind, moved, Piece.byteLength, Nat.add_assoc]

/-- Pieces lead from behind a text to behind the text with them. -/
theorem afterAll_behind (before : List Char) {pieces : List Piece}
    (wellFormed : ∀ piece ∈ pieces, piece.WellFormed) :
    (behind before).afterAll pieces =
      behind (before ++ pieces.flatMap Piece.text) := by
  induction pieces generalizing before with
  | nil => simp [afterAll]
  | cons piece pieces ih =>
      have formed := List.forall_mem_cons.mp wellFormed
      change ((behind before).after piece).afterAll pieces = _
      rw [after_behind before formed.1, ih _ formed.2, List.flatMap_cons,
        List.append_assoc]

theorem afterAll_origin_cut (text : List Char) :
    origin.afterAll (Piece.cut text) = behind text := by
  have formed : ∀ piece ∈ Piece.cut text, piece.WellFormed :=
    fun _ => Piece.wellFormed_of_mem_cut
  have reached := afterAll_behind [] formed
  rwa [Piece.flatMap_text_cut, List.nil_append] at reached

theorem afterAll_append (position : Position) (first second : List Piece) :
    position.afterAll (first ++ second) =
      (position.afterAll first).afterAll second := by
  simp [afterAll]

theorem offset_lt_after (position : Position) (piece : Piece) :
    position.offset < (position.after piece).offset :=
  Nat.lt_add_of_pos_right piece.byteLength_pos

theorem offset_le_afterAll (position : Position) (pieces : List Piece) :
    position.offset ≤ (position.afterAll pieces).offset := by
  induction pieces generalizing position with
  | nil => exact Nat.le_refl _
  | cons piece pieces ih =>
      have here := position.offset_lt_after piece
      have later := ih (position.after piece)
      exact here.le.trans later

theorem moved_after (position : Position) (piece : Piece) (bytes lines : Nat) :
    (position.moved bytes lines).after piece =
      (position.after piece).moved bytes lines := by
  cases piece <;> simp [moved, after] <;> omega

theorem moved_afterAll (position : Position) (pieces : List Piece)
    (bytes lines : Nat) :
    (position.moved bytes lines).afterAll pieces =
      (position.afterAll pieces).moved bytes lines := by
  induction pieces generalizing position with
  | nil => rfl
  | cons piece pieces ih =>
      change ((position.moved bytes lines).after piece).afterAll pieces = _
      rw [moved_after, ih]
      rfl

end Position

namespace PlacedPiece

def tokensFrom (position : Position) (pieces : List Piece) : List Token :=
  (placeFrom position pieces).filterMap token?

def diagnosticsFrom (position : Position) (pieces : List Piece) :
    List Diagnostic :=
  (placeFrom position pieces).filterMap diagnostic?

@[simp]
theorem tokensFrom_nil (position : Position) : tokensFrom position [] = [] :=
  rfl

@[simp]
theorem diagnosticsFrom_nil (position : Position) :
    diagnosticsFrom position [] = [] :=
  rfl

theorem tokensFrom_cons (position : Position) (piece : Piece)
    (pieces : List Piece) :
    tokensFrom position (piece :: pieces) =
      (token? ⟨piece, position⟩).toList ++
        tokensFrom (position.after piece) pieces := by
  cases piece <;> rfl

theorem diagnosticsFrom_cons (position : Position) (piece : Piece)
    (pieces : List Piece) :
    diagnosticsFrom position (piece :: pieces) =
      (diagnostic? ⟨piece, position⟩).toList ++
        diagnosticsFrom (position.after piece) pieces := by
  cases piece <;> rfl

theorem tokensFrom_append (position : Position) (first second : List Piece) :
    tokensFrom position (first ++ second) =
      tokensFrom position first ++
        tokensFrom (position.afterAll first) second := by
  simp only [tokensFrom, placeFrom_append, List.filterMap_append]

theorem diagnosticsFrom_append (position : Position)
    (first second : List Piece) :
    diagnosticsFrom position (first ++ second) =
      diagnosticsFrom position first ++
        diagnosticsFrom (position.afterAll first) second := by
  simp only [diagnosticsFrom, placeFrom_append, List.filterMap_append]

theorem mem_tokensFrom {position : Position} {pieces : List Piece}
    {token : Token} :
    token ∈ tokensFrom position pieces ↔
      ∃ before piece behind, pieces = before ++ piece :: behind ∧
        token? ⟨piece, position.afterAll before⟩ = some token := by
  constructor
  · intro member
    induction pieces generalizing position with
    | nil => simp at member
    | cons piece pieces ih =>
        rw [tokensFrom_cons, List.mem_append, Option.mem_toList] at member
        rcases member with here | later
        · exact ⟨[], piece, pieces, rfl, here⟩
        · obtain ⟨before, other, behind, rfl, found⟩ := ih later
          exact ⟨piece :: before, other, behind, rfl, found⟩
  · rintro ⟨before, piece, behind, rfl, found⟩
    rw [tokensFrom_append, tokensFrom_cons, found]
    simp

theorem token?_moved (piece : Piece) (position : Position)
    (bytes lines : Nat) :
    token? ⟨piece, position.moved bytes lines⟩ =
      (token? ⟨piece, position⟩).map fun token => token.moved bytes lines := by
  cases piece with
  | symbol sign =>
      simp [token?, Token.moved, Span.moved, span, Position.moved,
        Position.after, Nat.add_right_comm]
  | _ => rfl

theorem diagnostic?_moved (piece : Piece) (position : Position)
    (bytes lines : Nat) :
    diagnostic? ⟨piece, position.moved bytes lines⟩ =
      (diagnostic? ⟨piece, position⟩).map fun diagnostic =>
        diagnostic.moved lines := by
  cases piece <;> rfl

/-- Placing pieces elsewhere moves their tokens and changes nothing else. -/
theorem tokensFrom_moved (position : Position) (pieces : List Piece)
    (bytes lines : Nat) :
    tokensFrom (position.moved bytes lines) pieces =
      (tokensFrom position pieces).map fun token =>
        token.moved bytes lines := by
  induction pieces generalizing position with
  | nil => rfl
  | cons piece pieces ih =>
      rw [tokensFrom_cons, tokensFrom_cons, token?_moved,
        Position.moved_after, ih, List.map_append, Option.toList_map]

theorem diagnosticsFrom_moved (position : Position) (pieces : List Piece)
    (bytes lines : Nat) :
    diagnosticsFrom (position.moved bytes lines) pieces =
      (diagnosticsFrom position pieces).map fun diagnostic =>
        diagnostic.moved lines := by
  induction pieces generalizing position with
  | nil => rfl
  | cons piece pieces ih =>
      rw [diagnosticsFrom_cons, diagnosticsFrom_cons, diagnostic?_moved,
        Position.moved_after, ih, List.map_append, Option.toList_map]

end PlacedPiece

theorem Scan.ofPieces_eq (position : Position) (pieces : List Piece) :
    ofPieces position pieces =
      { content := PlacedPiece.tokensFrom position pieces
        endToken := endTokenAt (position.afterAll pieces)
        diagnostics := PlacedPiece.diagnosticsFrom position pieces } :=
  rfl

namespace DiagnosticLog

/-- What a scan returns, less the token for the end of the input. -/
def content (log : DiagnosticLog) (source : String) : List Token :=
  (log.scan source).1.dropLast

/-- What a log holds after a scan. -/
def recorded (log : DiagnosticLog) (source : String) : List Diagnostic :=
  (log.scan source).2.diagnostics.toList

theorem scan_tokens_eq (log : DiagnosticLog) (source : String) :
    (log.scan source).1 =
      PlacedPiece.tokensFrom .origin (Piece.cut source.toList) ++
        [Scan.endTokenAt
          (Position.origin.afterAll (Piece.cut source.toList))] :=
  rfl

theorem diagnostics_scan (log : DiagnosticLog) (source : String) :
    (log.scan source).2.diagnostics.toList =
      log.diagnostics.toList ++
        PlacedPiece.diagnosticsFrom .origin (Piece.cut source.toList) :=
  log.diagnostics_recordAll _

theorem content_eq (log : DiagnosticLog) (source : String) :
    log.content source =
      PlacedPiece.tokensFrom .origin (Piece.cut source.toList) := by
  simp [content, scan, Scan.tokens, Scan.ofSource, Scan.fromPosition,
    Scan.ofPieces, PlacedPiece.tokensFrom]

theorem recorded_onSink (sink : Sink) (source : String) :
    (onSink sink).recorded source =
      PlacedPiece.diagnosticsFrom .origin (Piece.cut source.toList) := by
  simp [recorded, scan, diagnostics_recordAll, onSink, Scan.ofSource,
    Scan.fromPosition, Scan.ofPieces, PlacedPiece.diagnosticsFrom]

end DiagnosticLog
end Lox
