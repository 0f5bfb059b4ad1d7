import Lox.Symbol
import Lox.TextBytes

/-!
# Lexical pieces

Every source text falls into consecutive pieces: symbols, comments, blanks,
newlines, and characters that the language has no use for.  A piece is the
longest that can be read where it starts.  The main statements say that cutting
a text into pieces neither loses nor adds a character.
-/

namespace Lox

/-- The smallest parts into which a source text is cut. -/
inductive Piece
  | symbol (sign : Symbol)
  | comment (body : List Char)
  | blank (character : Char)
  | newline
  | stray (character : Char)
  deriving DecidableEq

namespace Piece

/-- The text that a piece is read from.  The body of a comment follows its two
slashes. -/
def text : Piece → List Char
  | symbol sign => sign.spelling
  | comment body => '/' :: '/' :: body
  | blank character => [character]
  | newline => ['\n']
  | stray character => [character]

def byteLength (piece : Piece) : Nat :=
  TextBytes.byteLength piece.text

/-- The characters that separate pieces without ending a line. -/
def isBlank (character : Char) : Bool :=
  character == ' ' || character == '\r' || character == '\t'

/-- The part of a text before its first newline. -/
def lineOf (text : List Char) : List Char :=
  text.takeWhile fun character => character != '\n'

/-- A text from its first newline on. -/
def behindLine (text : List Char) : List Char :=
  text.dropWhile fun character => character != '\n'

/-- Read a comparison symbol, which takes a directly following equal sign with
it. -/
def readComparison (alone extended : Symbol) : List Char → Piece × List Char
  | '=' :: rest => (symbol extended, rest)
  | rest => (symbol alone, rest)

/-- Read behind a slash.  A second one begins a comment, which runs up to, but
not including, the end of its line.  That is what the pattern `^//.*` matches, under
the assumptions that `CommentMatcher` names. -/
def readSlash : List Char → Piece × List Char
  | '/' :: rest => (comment (lineOf rest), behindLine rest)
  | rest => (symbol .slash, rest)

/-- Read the first piece of the text that starts with a given character, and
return what follows that piece. -/
def read (first : Char) (rest : List Char) : Piece × List Char :=
  match Symbol.punctuation? first, Symbol.comparison? first with
  | some mark, _ => (symbol mark, rest)
  | none, some (alone, extended) => readComparison alone extended rest
  | none, none =>
      if first = '/' then readSlash rest
      else if first = '\n' then (newline, rest)
      else if isBlank first then (blank first, rest)
      else (stray first, rest)

@[simp]
theorem lineOf_append_behindLine (text : List Char) :
    lineOf text ++ behindLine text = text :=
  List.takeWhile_append_dropWhile

theorem text_readComparison {mark : Char} {alone extended : Symbol}
    (found : Symbol.comparison? mark = some (alone, extended))
    (rest : List Char) :
    (readComparison alone extended rest).1.text ++
        (readComparison alone extended rest).2 =
      mark :: rest := by
  obtain ⟨aloneSpelling, extendedSpelling⟩ :=
    Symbol.spelling_of_comparison? found
  unfold readComparison
  split <;> simp [text, aloneSpelling, extendedSpelling]

theorem text_readSlash (rest : List Char) :
    (readSlash rest).1.text ++ (readSlash rest).2 = '/' :: rest := by
  unfold readSlash
  split <;> simp [text, Symbol.spelling]

theorem text_read (first : Char) (rest : List Char) :
    (read first rest).1.text ++ (read first rest).2 = first :: rest := by
  unfold read
  split
  next mark _ found =>
    simp [text, Symbol.spelling_of_punctuation? found]
  next alone extended _ found =>
    exact text_readComparison found rest
  next =>
    split
    next slash => rw [slash, text_readSlash]
    next =>
      split
      next line => simp [text, line]
      next => split <;> simp [text]

theorem text_ne_nil (piece : Piece) : piece.text ≠ [] := by
  cases piece with
  | symbol sign => exact sign.spelling_ne_nil
  | _ => simp [text]

theorem length_read_le (first : Char) (rest : List Char) :
    (read first rest).2.length ≤ rest.length := by
  have lengths := congrArg List.length (text_read first rest)
  have positive := List.length_pos_iff.mpr (read first rest).1.text_ne_nil
  simp only [List.length_append, List.length_cons] at lengths
  omega

def cut : List Char → List Piece
  | [] => []
  | first :: rest =>
      let reading := read first rest
      reading.1 :: cut reading.2
termination_by text => text.length
decreasing_by
  have shorter := length_read_le first rest
  simp only [List.length_cons]
  omega

@[simp]
theorem cut_nil : cut [] = [] := by
  rw [cut]

theorem cut_cons (first : Char) (rest : List Char) :
    cut (first :: rest) =
      (read first rest).1 :: cut (read first rest).2 := by
  rw [cut]

/-- The pieces of a text, written one behind the other, are the text. -/
theorem flatMap_text_cut (source : List Char) :
    (cut source).flatMap text = source := by
  fun_induction cut source with
  | case1 => rfl
  | case2 first rest reading ih =>
      rw [List.flatMap_cons, ih]
      exact text_read first rest

end Piece
end Lox
