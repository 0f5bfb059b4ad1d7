import Lox.Proofs.Blanking
import Lox.Proofs.CommentStripping

/-!
# Text of comments

A comment can be written over with spaces, as many as it has bytes.  This file
proves that a scan does not notice: it returns the same tokens and records the same
diagnostics, so whatever a comment says has no influence on it.
-/

namespace Lox
namespace Piece

/-- A line with a space for each byte from its first two adjacent slashes on. -/
def blankComment (line : List Char) : List Char :=
  let plain := uncommented line
  plain ++ (Gap.ofBytes (TextBytes.byteLength (line.drop plain.length))).text

/-- A text with the comments of all lines written over. -/
def blankComments (text : List Char) : List Char :=
  mapLines blankComment text

theorem blankComment_append {first rest : List Char}
    (apart : ∀ before behind, first = before ++ '/' :: behind →
      (behind ++ rest).head? ≠ some '/') :
    blankComment (first ++ rest) = first ++ blankComment rest := by
  simp [blankComment, uncommented_append apart]

end Piece

namespace Blanking

/-- Comments are written over, and nothing else. -/
def comments : Blanking where
  hides
    | .comment _ => true
    | _ => false
  keepsSymbols _ := rfl
  keepsNewlines := rfl

theorem textOf_comments_of_ne {piece : Piece}
    (noComment : ∀ body, piece ≠ .comment body) :
    comments.textOf piece = piece.text := by
  cases piece with
  | comment body => exact absurd rfl (noComment body)
  | _ => rfl

theorem apply_comments_line {line : List Char} (inside : '\n' ∉ line) :
    comments.apply line = Piece.blankComment line := by
  refine Piece.cutLineInduction ?_ ?_ ?_ line inside
  · simp [apply, Piece.blankComment, Piece.uncommented, Gap.ofBytes]
  · intro body formed
    rw [apply, Piece.cut_text formed]
    simp [textOf, comments, Piece.blankComment, Piece.uncommented,
      Piece.byteLength, Piece.text]
  · intro piece rest stands noComment ih
    rw [comments.apply_text_append stands, ih, textOf_comments_of_ne noComment]
    exact (Piece.blankComment_append fun before behind =>
      stands.slash_apart noComment).symm

/-- Comments that are found line by line are those that are read. -/
theorem apply_comments (source : List Char) :
    comments.apply source = Piece.blankComments source :=
  Piece.flatMap_cut_eq_mapLines rfl (fun _ => apply_comments_line) source

theorem diagnostic?_comments : comments.diagnostic? = PlacedPiece.diagnostic? := by
  funext ⟨piece, position⟩
  cases piece <;> rfl

end Blanking

namespace DiagnosticLog

theorem ofSource_blankComments (source : String) :
    Scan.ofSource (String.ofList (Piece.blankComments source.toList)) =
      Scan.ofSource source := by
  rw [← Blanking.apply_comments, Blanking.ofSource_apply,
    Blanking.diagnostic?_comments]
  rfl

/-- Comments that are written over with spaces leave every token and every
diagnostic of a scan as it was.  Hence sources that differ in the text of their
comments only, and not in the bytes that it takes, scan alike. -/
theorem scan_blankComments (log : DiagnosticLog) (source : String) :
    log.scan (String.ofList (Piece.blankComments source.toList)) =
        log.scan source ∧
      ∀ other : String,
        Piece.blankComments other.toList = Piece.blankComments source.toList →
          log.scan other = log.scan source := by
  have same (text : String) :
      log.scan (String.ofList (Piece.blankComments text.toList)) =
        log.scan text := by
    rw [scan, scan, ofSource_blankComments]
  refine ⟨same source, ?_⟩
  intro other alike
  rw [← same other, alike, same source]

/-- A character of two bytes leaves two spaces, and a slash by itself stays. -/
example :
    Piece.blankComment ['/', ' ', '/', '/', 'é'] =
      ['/', ' ', ' ', ' ', ' ', ' '] := by
  decide

end DiagnosticLog
end Lox
