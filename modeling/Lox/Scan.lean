import Lox.Diagnostic
import Lox.Piece
import Lox.Token

/-!
# Scanning a source text

The pieces of a text are placed one behind the other, each at the position
where the one before it ends.  A placed symbol is a token, and a placed stray
character a diagnostic; comments, blanks and newlines only move the position.
Scanning never stops early, and its last token marks the end of the input.
-/

namespace Lox

/-- A place in a source: the bytes before it, and the line it is on. -/
structure Position where
  offset : Nat
  line : Nat
  deriving DecidableEq

namespace Position

def origin : Position := ⟨0, 1⟩

/-- The place behind a piece.  Only a newline leads to another line. -/
def after (position : Position) (piece : Piece) : Position where
  offset := position.offset + piece.byteLength
  line :=
    match piece with
    | .newline => position.line + 1
    | _ => position.line

def afterAll (position : Position) (pieces : List Piece) : Position :=
  pieces.foldl after position

end Position

/-- A piece and the place where it starts. -/
structure PlacedPiece where
  piece : Piece
  position : Position
  deriving DecidableEq

namespace PlacedPiece

def placeFrom : Position → List Piece → List PlacedPiece
  | _, [] => []
  | position, piece :: pieces =>
      ⟨piece, position⟩ :: placeFrom (position.after piece) pieces

def span (placed : PlacedPiece) : Span :=
  ⟨placed.position.offset, (placed.position.after placed.piece).offset⟩

/-- The token that a placed piece is, if it is a symbol. -/
def token? (placed : PlacedPiece) : Option Token :=
  match placed.piece with
  | .symbol sign =>
      some {
        kind := .symbol sign
        lexeme := String.ofList sign.spelling
        literal := none
        line := placed.position.line
        span := placed.span
      }
  | _ => none

/-- The diagnostic that a placed piece calls for, if it is a stray character. -/
def diagnostic? (placed : PlacedPiece) : Option Diagnostic :=
  match placed.piece with
  | .stray character =>
      some (.onLine placed.position.line (.unexpectedCharacter character))
  | _ => none

theorem placeFrom_append (position : Position) (first second : List Piece) :
    placeFrom position (first ++ second) =
      placeFrom position first ++
        placeFrom (position.afterAll first) second := by
  induction first generalizing position with
  | nil => rfl
  | cons piece first ih =>
      simp only [List.cons_append, placeFrom, ih, Position.afterAll,
        List.foldl_cons]

end PlacedPiece

/-- What scanning a text results in. -/
structure Scan where
  content : List Token
  endToken : Token
  /-- A diagnostic for each stray character. -/
  diagnostics : List Diagnostic

namespace Scan

/-- Every token of a scan, the one for the end of the input last. -/
def tokens (scan : Scan) : List Token :=
  scan.content ++ [scan.endToken]

/-- The token for the end of the input, which covers nothing. -/
def endTokenAt (position : Position) : Token where
  kind := .endOfInput
  lexeme := ""
  literal := none
  line := position.line
  span := ⟨position.offset, position.offset⟩

/-- The result of placing pieces from a position on. -/
def ofPieces (position : Position) (pieces : List Piece) : Scan :=
  let placed := PlacedPiece.placeFrom position pieces
  { content := placed.filterMap PlacedPiece.token?
    endToken := endTokenAt (position.afterAll pieces)
    diagnostics := placed.filterMap PlacedPiece.diagnostic? }

/-- Scan a text that stands at a given position of its source. -/
def fromPosition (position : Position) (text : List Char) : Scan :=
  ofPieces position (Piece.cut text)

def ofSource (source : String) : Scan :=
  fromPosition .origin source.toList

end Scan
end Lox
