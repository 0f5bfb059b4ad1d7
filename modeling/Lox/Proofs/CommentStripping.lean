import Lox.Proofs.Lines
import Lox.Proofs.Placement

/-!
# Sources without their comments

A source can be stripped of its comments line by line, each line cut off where
its first two adjacent slashes stand.  This file proves that scanning a source
accounts for what this leaves: its symbols are the lexemes, one behind the other,
its unexpected characters are the diagnostics, and all else in it are spaces.
-/

namespace Lox
namespace Piece

/-- A line up to its first two adjacent slashes. -/
def uncommented : List Char → List Char
  | [] => []
  | '/' :: '/' :: _ => []
  | character :: rest => character :: uncommented rest

/-- A text with every line cut off where its comment begins. -/
def stripComments (text : List Char) : List Char :=
  ['\n'].intercalate ((text.splitOn '\n').map uncommented)

/-- The text of a piece, unless it is a comment. -/
def plainText : Piece → List Char
  | comment _ => []
  | piece => piece.text

theorem uncommented_cons {character : Char} {rest : List Char}
    (apart : character = '/' → rest.head? ≠ some '/') :
    uncommented (character :: rest) = character :: uncommented rest := by
  rw [uncommented]
  rintro tail rfl rfl
  exact apart rfl rfl

theorem uncommented_append {first rest : List Char}
    (apart : ∀ before behind, first = before ++ '/' :: behind →
      (behind ++ rest).head? ≠ some '/') :
    uncommented (first ++ rest) = first ++ uncommented rest := by
  induction first with
  | nil => rfl
  | cons character first ih =>
      have later : ∀ before behind, first = before ++ '/' :: behind →
          (behind ++ rest).head? ≠ some '/' := by
        intro before behind parts
        exact apart (character :: before) behind (by rw [parts]; rfl)
      have here : character = '/' → (first ++ rest).head? ≠ some '/' := by
        rintro rfl
        exact apart [] first rfl
      rw [List.cons_append, uncommented_cons here, ih later, List.cons_append]

theorem plainText_of_ne {piece : Piece}
    (noComment : ∀ body, piece ≠ comment body) :
    piece.plainText = piece.text := by
  cases piece with
  | comment body => exact absurd rfl (noComment body)
  | _ => rfl

theorem flatMap_plainText_cut_line {line : List Char} (inside : '\n' ∉ line) :
    (cut line).flatMap plainText = uncommented line := by
  refine cutLineInduction ?_ ?_ ?_ line inside
  · simp [uncommented]
  · intro body formed
    rw [cut_text formed]
    simp [plainText, text, uncommented]
  · intro piece rest stands noComment ih
    rw [cut_text_append stands, List.flatMap_cons, ih, plainText_of_ne noComment]
    exact (uncommented_append fun before behind =>
      stands.slash_apart noComment).symm

/-- The pieces of a text that are not comments make up the text without its
comments. -/
theorem flatMap_plainText_cut (source : List Char) :
    (cut source).flatMap plainText = stripComments source :=
  flatMap_cut_eq_mapLines rfl (fun _ => flatMap_plainText_cut_line) source

end Piece

inductive Fate
  | lexeme
  | diagnostic
  | space
  | comment
  deriving DecidableEq

namespace Fate

def ofPiece : Piece → Fate
  | .symbol _ => lexeme
  | .comment _ => comment
  | .blank _ => space
  | .newline => space
  | .stray _ => diagnostic

/-- Every character of some pieces together with its fate. -/
def ofPieces (pieces : List Piece) : List (Char × Fate) :=
  pieces.flatMap fun piece =>
    piece.text.map fun character => (character, ofPiece piece)

def select (fates : List (Char × Fate)) (fate : Fate) : List Char :=
  (fates.filter fun marked => decide (marked.2 = fate)).map Prod.fst

def textOf (fate : Fate) (piece : Piece) : List Char :=
  if ofPiece piece = fate then piece.text else []

theorem map_fst_ofPieces (pieces : List Piece) :
    (ofPieces pieces).map Prod.fst = pieces.flatMap Piece.text := by
  simp [ofPieces, List.map_flatMap, Function.comp_def]

theorem select_ofPieces (pieces : List Piece) (fate : Fate) :
    select (ofPieces pieces) fate = pieces.flatMap (textOf fate) := by
  induction pieces with
  | nil => rfl
  | cons piece pieces ih =>
      have here : select (piece.text.map fun character =>
          (character, ofPiece piece)) fate = textOf fate piece := by
        by_cases same : ofPiece piece = fate <;>
          simp [select, textOf, same, List.filter_map, Function.comp_def]
      rw [List.flatMap_cons, ← here, ← ih]
      simp [select, ofPieces]

theorem filter_not_comment_ofPieces (pieces : List Piece) :
    ((ofPieces pieces).filter fun marked =>
        decide (marked.2 ≠ comment)).map Prod.fst =
      pieces.flatMap Piece.plainText := by
  induction pieces with
  | nil => rfl
  | cons piece pieces ih =>
      have here : ((piece.text.map fun character =>
          (character, ofPiece piece)).filter fun marked =>
            decide (marked.2 ≠ comment)).map Prod.fst = piece.plainText := by
        cases piece <;>
          simp [ofPiece, Piece.plainText, List.filter_map, Function.comp_def]
      rw [List.flatMap_cons, ← here, ← ih]
      simp [ofPieces]

theorem mem_spaces_of_mem_textOf {piece : Piece} (formed : piece.WellFormed)
    {character : Char} (member : character ∈ textOf space piece) :
    character ∈ Piece.spaces := by
  cases piece with
  | blank blank =>
      obtain rfl : character = blank := by
        simpa [textOf, ofPiece, Piece.text] using member
      exact (Piece.mem_spaces_iff character).mpr (.inl formed)
  | newline =>
      obtain rfl : character = '\n' := by
        simpa [textOf, ofPiece, Piece.text] using member
      decide
  | _ => simp [textOf, ofPiece] at member

/-- Of the characters of a piece, those of symbols make up a lexeme. -/
theorem filter_alphabet_plainText {piece : Piece} (formed : piece.WellFormed) :
    (piece.plainText.filter fun character =>
      decide (character ∈ Symbol.alphabet)) = textOf lexeme piece := by
  cases piece with
  | symbol sign => cases sign <;> rfl
  | comment body => rfl
  | blank character =>
      have space := (Piece.mem_spaces_iff character).mpr (.inl formed)
      have noLetter := Piece.notMem_alphabet_of_mem_spaces space
      simp [Piece.plainText, Piece.text, textOf, ofPiece, noLetter]
  | newline => rfl
  | stray character =>
      have neither := of_decide_eq_true formed
      simp [Piece.plainText, Piece.text, textOf, ofPiece, neither.1]

theorem filter_isUnexpected_plainText {piece : Piece}
    (formed : piece.WellFormed) :
    piece.plainText.filter Piece.isUnexpected = textOf diagnostic piece := by
  cases piece with
  | symbol sign => cases sign <;> rfl
  | comment body => rfl
  | blank character =>
      have space := (Piece.mem_spaces_iff character).mpr (.inl formed)
      have expected : Piece.isUnexpected character = false := by
        simp [Piece.isUnexpected, space]
      simp [Piece.plainText, Piece.text, textOf, ofPiece, expected]
  | newline => rfl
  | stray character =>
      have unexpected : Piece.isUnexpected character = true := formed
      simp [Piece.plainText, Piece.text, textOf, ofPiece, unexpected]

theorem flatMap_textOf_lexeme_cut (source : List Char) :
    (Piece.cut source).flatMap (textOf lexeme) =
      (Piece.stripComments source).filter fun character =>
        decide (character ∈ Symbol.alphabet) := by
  rw [← Piece.flatMap_plainText_cut, List.filter_flatMap]
  apply List.flatMap_congr
  intro piece member
  exact (filter_alphabet_plainText (Piece.wellFormed_of_mem_cut member)).symm

theorem flatMap_textOf_diagnostic_cut (source : List Char) :
    (Piece.cut source).flatMap (textOf diagnostic) =
      (Piece.stripComments source).filter Piece.isUnexpected := by
  rw [← Piece.flatMap_plainText_cut, List.filter_flatMap]
  apply List.flatMap_congr
  intro piece member
  exact (filter_isUnexpected_plainText
    (Piece.wellFormed_of_mem_cut member)).symm

/-- The lexemes of placed pieces are the texts of the symbols among them. -/
theorem flatMap_lexeme_tokensFrom (position : Position) (pieces : List Piece) :
    (PlacedPiece.tokensFrom position pieces).flatMap
        (fun token => token.lexeme.toList) =
      pieces.flatMap (textOf lexeme) := by
  induction pieces generalizing position with
  | nil => rfl
  | cons piece pieces ih =>
      rw [PlacedPiece.tokensFrom_cons, List.flatMap_append, ih,
        List.flatMap_cons]
      cases piece <;>
        simp [PlacedPiece.token?, textOf, ofPiece, Piece.text]

/-- The diagnostics of placed pieces name the stray characters among them. -/
theorem map_cause_diagnosticsFrom (position : Position) (pieces : List Piece) :
    (PlacedPiece.diagnosticsFrom position pieces).map
        (fun diagnostic => (diagnostic.cause, diagnostic.location)) =
      (pieces.flatMap (textOf diagnostic)).map fun character =>
        (Cause.unexpectedCharacter character, "") := by
  induction pieces generalizing position with
  | nil => rfl
  | cons piece pieces ih =>
      rw [PlacedPiece.diagnosticsFrom_cons, List.map_append, ih,
        List.flatMap_cons, List.map_append]
      cases piece <;>
        simp [PlacedPiece.diagnostic?, textOf, ofPiece, Piece.text,
          Diagnostic.onLine]

end Fate

namespace DiagnosticLog

theorem flatMap_lexeme_scan (log : DiagnosticLog) (source : String) :
    ((log.scan source).1.flatMap fun token => token.lexeme.toList) =
      (Piece.cut source.toList).flatMap (Fate.textOf .lexeme) := by
  rw [scan_tokens_eq, List.flatMap_append, Fate.flatMap_lexeme_tokensFrom]
  simp [Scan.endTokenAt]

theorem map_cause_recorded (sink : Sink) (source : String) :
    (((onSink sink).recorded source).map fun diagnostic =>
        (diagnostic.cause, diagnostic.location)) =
      ((Piece.cut source.toList).flatMap (Fate.textOf .diagnostic)).map
        fun character => (Cause.unexpectedCharacter character, "") := by
  rw [recorded_onSink, Fate.map_cause_diagnosticsFrom]

/-- The flag is raised by unexpected characters and by nothing else. -/
theorem flagged_scan_onSink_iff (sink : Sink) (source : String) :
    ((onSink sink).scan source).2.flagged = true ↔
      ∃ character ∈ Piece.stripComments source.toList,
        Piece.isUnexpected character = true := by
  have raised : ((onSink sink).scan source).2.flagged = true ↔
      (onSink sink).recorded source ≠ [] := by
    simp [recorded, scan, flagged_recordAll, diagnostics_recordAll, onSink]
  have empty : (onSink sink).recorded source = [] ↔
      (Piece.stripComments source.toList).filter Piece.isUnexpected = [] := by
    rw [← Fate.flatMap_textOf_diagnostic_cut,
      ← List.map_eq_nil_iff (f := fun diagnostic : Diagnostic =>
        (diagnostic.cause, diagnostic.location)),
      map_cause_recorded, List.map_eq_nil_iff]
  rw [raised, ne_eq, empty, List.filter_eq_nil_iff]
  simp

/-- A scan accounts for every character of its source.  Without the comments,
the symbols are the lexemes, one behind the other, and each unexpected character
has a diagnostic of its own; together with the spaces and the comments that is
all there is. -/
theorem scan_accounts (sink : Sink) (source : String) :
    String.join (((onSink sink).scan source).1.map fun token => token.lexeme) =
        String.ofList ((Piece.stripComments source.toList).filter
          fun character => decide (character ∈ Symbol.alphabet)) ∧
      (((onSink sink).scan source).2.diagnostics.toList.map fun diagnostic =>
          (diagnostic.cause, diagnostic.location)) =
        ((Piece.stripComments source.toList).filter Piece.isUnexpected).map
          (fun character => (Cause.unexpectedCharacter character, "")) ∧
      (((onSink sink).scan source).2.flagged = true ↔
        ∃ character ∈ Piece.stripComments source.toList,
          Piece.isUnexpected character = true) ∧
      ∃ fates : List (Char × Fate),
        fates.map Prod.fst = source.toList ∧
          Fate.select fates .lexeme =
            ((onSink sink).scan source).1.flatMap
              (fun token => token.lexeme.toList) ∧
          (Fate.select fates .diagnostic).map Cause.unexpectedCharacter =
            ((onSink sink).scan source).2.diagnostics.toList.map
              (fun diagnostic => diagnostic.cause) ∧
          (∀ character ∈ Fate.select fates .space,
            character ∈ Piece.spaces) ∧
          (fates.filter fun marked =>
              decide (marked.2 ≠ .comment)).map Prod.fst =
            Piece.stripComments source.toList := by
  have lexemes := flatMap_lexeme_scan (onSink sink) source
  have causes := map_cause_recorded sink source
  refine ⟨?_, ?_, ?_, Fate.ofPieces (Piece.cut source.toList), ?_, ?_, ?_, ?_, ?_⟩
  · rw [← String.toList_inj, String.toList_join, String.toList_ofList,
      List.flatMap_map, lexemes, Fate.flatMap_textOf_lexeme_cut]
  · exact causes.trans (by rw [Fate.flatMap_textOf_diagnostic_cut])
  · exact flagged_scan_onSink_iff sink source
  · rw [Fate.map_fst_ofPieces, Piece.flatMap_text_cut]
  · rw [Fate.select_ofPieces, lexemes]
  · rw [Fate.select_ofPieces]
    have onlyCauses := congrArg (List.map Prod.fst) causes
    rw [List.map_map, List.map_map] at onlyCauses
    exact onlyCauses.symm
  · intro character member
    rw [Fate.select_ofPieces] at member
    obtain ⟨piece, cutMember, textMember⟩ := List.mem_flatMap.mp member
    exact Fate.mem_spaces_of_mem_textOf
      (Piece.wellFormed_of_mem_cut cutMember) textMember
  · rw [Fate.filter_not_comment_ofPieces, Piece.flatMap_plainText_cut]

end DiagnosticLog
end Lox
