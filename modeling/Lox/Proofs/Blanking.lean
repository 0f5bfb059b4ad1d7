import Lox.Proofs.Layout
import Lox.Proofs.Lines

/-!
# Pieces written over with spaces

Spaces that take as many bytes as a piece leave all that is behind it at its place.
This file proves that any pieces can be written over in this way, if they are
neither symbols nor newlines: the others are read as before, so the tokens of a
scan stay the same in every respect, and of the diagnostics those of other pieces
are left.
-/

namespace Lox

/-- A space for each of a number of bytes. -/
def Gap.ofBytes (bytes : Nat) : Gap where
  text := List.replicate bytes ' '
  spaces := by
    intro character member
    rw [List.eq_of_mem_replicate member]
    decide

theorem Gap.byteLength_ofBytes (bytes : Nat) :
    TextBytes.byteLength (ofBytes bytes).text = bytes := by
  induction bytes with
  | zero => rfl
  | succ bytes ih =>
      change Char.utf8Size ' ' + TextBytes.byteLength (ofBytes bytes).text = _
      rw [ih, Nat.add_comm]
      rfl

theorem Gap.head?_ofBytes {bytes : Nat} (positive : 0 < bytes) :
    (ofBytes bytes).text.head? = some ' ' := by
  rw [ofBytes, List.head?_replicate, if_neg positive.ne']

/-- A choice of pieces that are to be written over. -/
structure Blanking where
  hides : Piece → Bool
  keepsSymbols : ∀ sign, hides (.symbol sign) = false
  keepsNewlines : hides .newline = false

namespace Blanking

variable (blanking : Blanking)

/-- What stands in the place of a piece. -/
def textOf (piece : Piece) : List Char :=
  if blanking.hides piece then (Gap.ofBytes piece.byteLength).text
  else piece.text

/-- The pieces that stand in the place of a piece. -/
def piecesOf (piece : Piece) : List Piece :=
  if blanking.hides piece then
    (Gap.ofBytes piece.byteLength).text.map Layout.spacePiece
  else
    [piece]

/-- A text with the chosen pieces written over. -/
def apply (text : List Char) : List Char :=
  (Piece.cut text).flatMap blanking.textOf

@[simp]
theorem apply_nil : blanking.apply [] = [] := by
  simp [apply]

theorem apply_text_append {piece : Piece} {rest : List Char}
    (stands : piece.StandsBefore rest) :
    blanking.apply (piece.text ++ rest) =
      blanking.textOf piece ++ blanking.apply rest := by
  rw [apply, Piece.cut_text_append stands, List.flatMap_cons, apply]

/-- A text begins as before, or with a space where it did not begin with a
newline. -/
theorem head?_apply {text : List Char} {next : Char}
    (head : (blanking.apply text).head? = some next) :
    text.head? = some next ∨
      next = ' ' ∧ ∃ first, text.head? = some first ∧ first ≠ '\n' := by
  have nonempty : text ≠ [] := by
    rintro rfl
    simp at head
  obtain ⟨piece, rest, stands, rfl⟩ := Piece.exists_piece_of_ne_nil nonempty
  obtain ⟨first, others, starts⟩ :=
    List.exists_cons_of_ne_nil piece.text_ne_nil
  rw [blanking.apply_text_append stands, textOf] at head
  split at head
  next hidden =>
    rw [List.head?_append, Gap.head?_ofBytes piece.byteLength_pos,
      Option.some_or] at head
    refine .inr ⟨(Option.some.inj head).symm, first, by simp [starts], ?_⟩
    rintro rfl
    have line := Piece.eq_newline_of_head? stands.wellFormed (by simp [starts])
    rw [line, blanking.keepsNewlines] at hidden
    exact absurd hidden (by decide)
  next =>
    rw [starts] at head
    exact .inl (by simpa [starts] using head)

/-- A piece still ends where it did when pieces behind it are written over. -/
theorem standsBefore_apply {piece : Piece} {rest : List Char}
    (stands : piece.StandsBefore rest) :
    piece.StandsBefore (blanking.apply rest) := by
  refine ⟨stands.wellFormed, ?_⟩
  intro next head
  rcases blanking.head?_apply head with same | ⟨rfl, first, begins, notLine⟩
  · exact stands.ends next same
  · cases piece with
    | symbol sign =>
        intro continued
        exact Layout.continuation?_notMem_spaces continued (by decide)
    | comment body =>
        -- Behind a comment there is a newline, which is never written over.
        exact absurd (stands.eq_newline_of_comment begins) notLine
    | _ => exact id

/-- Where pieces are written over, spaces are read and all others as before. -/
theorem cut_apply (text : List Char) :
    Piece.cut (blanking.apply text) =
      (Piece.cut text).flatMap blanking.piecesOf := by
  induction text using Piece.cutInduction with
  | nil => simp
  | piece piece rest stands ih =>
      rw [blanking.apply_text_append stands, Piece.cut_text_append stands,
        List.flatMap_cons, ← ih, textOf, piecesOf]
      split
      next => exact Layout.cut_gap_append _ _
      next => exact Piece.cut_text_append (blanking.standsBefore_apply stands)

theorem afterAll_piecesOf (position : Position) {piece : Piece}
    (formed : piece.WellFormed) :
    position.afterAll (blanking.piecesOf piece) = position.after piece := by
  unfold piecesOf
  split
  next hidden =>
    have notNewline : piece ≠ .newline := by
      rintro rfl
      rw [blanking.keepsNewlines] at hidden
      exact absurd hidden (by decide)
    have spacesFormed : ∀ space ∈
        (Gap.ofBytes piece.byteLength).text.map Layout.spacePiece,
        space.WellFormed := by
      simp only [List.forall_mem_map]
      intro character member
      exact Layout.wellFormed_spacePiece
        ((Gap.ofBytes piece.byteLength).spaces character member)
    have noLine : (Gap.ofBytes piece.byteLength).text.count '\n' = 0 :=
      List.count_eq_zero.mpr fun member =>
        absurd (List.eq_of_mem_replicate member) (by decide)
    rw [Position.afterAll_eq_moved position spacesFormed,
      Position.after_eq_moved position formed, Layout.flatMap_text_spacePieces,
      Gap.byteLength_ofBytes, noLine, Piece.count_newline_text formed,
      if_neg notNewline]
  next => rfl

theorem afterAll_flatMap_piecesOf (position : Position) {pieces : List Piece}
    (formed : ∀ piece ∈ pieces, piece.WellFormed) :
    position.afterAll (pieces.flatMap blanking.piecesOf) =
      position.afterAll pieces := by
  induction pieces generalizing position with
  | nil => rfl
  | cons piece pieces ih =>
      obtain ⟨here, later⟩ := List.forall_mem_cons.mp formed
      rw [List.flatMap_cons, Position.afterAll_append,
        blanking.afterAll_piecesOf position here, ih _ later]
      rfl

/-- The diagnostic that is left of a placed piece. -/
def diagnostic? (placed : PlacedPiece) : Option Diagnostic :=
  if blanking.hides placed.piece then none else placed.diagnostic?

theorem results_piecesOf (position : Position) (piece : Piece) :
    PlacedPiece.tokensFrom position (blanking.piecesOf piece) =
        (PlacedPiece.token? ⟨piece, position⟩).toList ∧
      PlacedPiece.diagnosticsFrom position (blanking.piecesOf piece) =
        (blanking.diagnostic? ⟨piece, position⟩).toList := by
  unfold piecesOf diagnostic?
  split
  next hidden =>
    have noToken : PlacedPiece.token? ⟨piece, position⟩ = none := by
      cases piece with
      | symbol sign =>
          rw [blanking.keepsSymbols] at hidden
          exact absurd hidden (by decide)
      | _ => rfl
    rw [noToken]
    exact Layout.nothing_of_spacePieces position _
  next =>
    rw [PlacedPiece.tokensFrom_cons, PlacedPiece.diagnosticsFrom_cons,
      PlacedPiece.tokensFrom_nil, PlacedPiece.diagnosticsFrom_nil,
      List.append_nil, List.append_nil]
    exact ⟨rfl, rfl⟩

/-- Pieces that are written over lose their diagnostics, and nothing else is
changed by that. -/
theorem results_flatMap_piecesOf (position : Position) {pieces : List Piece}
    (formed : ∀ piece ∈ pieces, piece.WellFormed) :
    PlacedPiece.tokensFrom position (pieces.flatMap blanking.piecesOf) =
        PlacedPiece.tokensFrom position pieces ∧
      PlacedPiece.diagnosticsFrom position (pieces.flatMap blanking.piecesOf) =
        (PlacedPiece.placeFrom position pieces).filterMap
          blanking.diagnostic? := by
  induction pieces generalizing position with
  | nil => exact ⟨rfl, rfl⟩
  | cons piece pieces ih =>
      obtain ⟨here, later⟩ := List.forall_mem_cons.mp formed
      obtain ⟨tokens, diagnostics⟩ := blanking.results_piecesOf position piece
      obtain ⟨otherTokens, otherDiagnostics⟩ := ih (position.after piece) later
      constructor
      · rw [List.flatMap_cons, PlacedPiece.tokensFrom_append,
          blanking.afterAll_piecesOf position here, tokens, otherTokens,
          PlacedPiece.tokensFrom_cons]
      · rw [List.flatMap_cons, PlacedPiece.diagnosticsFrom_append,
          blanking.afterAll_piecesOf position here, diagnostics,
          otherDiagnostics, PlacedPiece.placeFrom, List.filterMap_cons]
        cases blanking.diagnostic? ⟨piece, position⟩ <;> rfl

/-- A scan of a source with pieces written over is the scan of the source without
the diagnostics of these pieces. -/
theorem ofSource_apply (source : String) :
    Scan.ofSource (String.ofList (blanking.apply source.toList)) =
      { Scan.ofSource source with
        diagnostics := (PlacedPiece.placeFrom .origin
          (Piece.cut source.toList)).filterMap blanking.diagnostic? } := by
  have formed : ∀ piece ∈ Piece.cut source.toList, piece.WellFormed :=
    fun _ => Piece.wellFormed_of_mem_cut
  obtain ⟨tokens, diagnostics⟩ := blanking.results_flatMap_piecesOf .origin formed
  have ends := blanking.afterAll_flatMap_piecesOf .origin formed
  rw [← blanking.cut_apply] at tokens diagnostics ends
  rw [Scan.ofSource, String.toList_ofList, Scan.fromPosition, Scan.ofPieces_eq,
    tokens, diagnostics, ends]
  rfl

end Blanking
end Lox
