/-!
# Symbols of the language

The nineteen punctuation marks and operators of Lox, their spellings, and the
two ways in which a character can begin one.  A punctuation mark is complete by
itself; a comparison character also stands for a longer symbol together with an
equal sign that directly follows it.  The slash is neither, since two slashes
begin a comment.
-/

namespace Lox

inductive Symbol
  | leftParen
  | rightParen
  | leftBrace
  | rightBrace
  | comma
  | dot
  | minus
  | plus
  | semicolon
  | slash
  | star
  | bang
  | bangEqual
  | equal
  | equalEqual
  | greater
  | greaterEqual
  | less
  | lessEqual
  deriving DecidableEq

namespace Symbol

def all : List Symbol :=
  [leftParen, rightParen, leftBrace, rightBrace, comma, dot, minus, plus,
    semicolon, slash, star, bang, bangEqual, equal, equalEqual, greater,
    greaterEqual, less, lessEqual]

/-- The one way of writing a symbol in a source text. -/
def spelling : Symbol → List Char
  | leftParen => ['(']
  | rightParen => [')']
  | leftBrace => ['{']
  | rightBrace => ['}']
  | comma => [',']
  | dot => ['.']
  | minus => ['-']
  | plus => ['+']
  | semicolon => [';']
  | slash => ['/']
  | star => ['*']
  | bang => ['!']
  | bangEqual => ['!', '=']
  | equal => ['=']
  | equalEqual => ['=', '=']
  | greater => ['>']
  | greaterEqual => ['>', '=']
  | less => ['<']
  | lessEqual => ['<', '=']

def name : Symbol → String
  | leftParen => "LeftParen"
  | rightParen => "RightParen"
  | leftBrace => "LeftBrace"
  | rightBrace => "RightBrace"
  | comma => "Comma"
  | dot => "Dot"
  | minus => "Minus"
  | plus => "Plus"
  | semicolon => "Semicolon"
  | slash => "Slash"
  | star => "Star"
  | bang => "Bang"
  | bangEqual => "BangEqual"
  | equal => "Equal"
  | equalEqual => "EqualEqual"
  | greater => "Greater"
  | greaterEqual => "GreaterEqual"
  | less => "Less"
  | lessEqual => "LessEqual"

/-- The symbol that a punctuation mark is, whatever follows it. -/
def punctuation? : Char → Option Symbol
  | '(' => some leftParen
  | ')' => some rightParen
  | '{' => some leftBrace
  | '}' => some rightBrace
  | ',' => some comma
  | '.' => some dot
  | '-' => some minus
  | '+' => some plus
  | ';' => some semicolon
  | '*' => some star
  | _ => none

/-- The two symbols that a comparison character begins: the one it is alone,
and the one it forms with a directly following equal sign. -/
def comparison? : Char → Option (Symbol × Symbol)
  | '!' => some (bang, bangEqual)
  | '=' => some (equal, equalEqual)
  | '<' => some (less, lessEqual)
  | '>' => some (greater, greaterEqual)
  | _ => none

theorem mem_all (symbol : Symbol) : symbol ∈ all := by
  cases symbol <;> decide

theorem spelling_ne_nil (symbol : Symbol) : symbol.spelling ≠ [] := by
  cases symbol <;> decide

theorem spelling_injective {first second : Symbol}
    (same : first.spelling = second.spelling) : first = second := by
  revert same
  cases first <;> cases second <;> decide

theorem spelling_of_punctuation? {mark : Char} {symbol : Symbol}
    (found : punctuation? mark = some symbol) : symbol.spelling = [mark] := by
  unfold punctuation? at found
  split at found <;> cases found <;> rfl

theorem spelling_of_comparison? {mark : Char} {alone extended : Symbol}
    (found : comparison? mark = some (alone, extended)) :
    alone.spelling = [mark] ∧ extended.spelling = [mark, '='] := by
  unfold comparison? at found
  split at found <;> cases found <;> exact ⟨rfl, rfl⟩

end Symbol
end Lox
