import Lox.Kind
import Lox.NumberText
import Lox.Span

/-!
# Tokens

A token records what it is, the text it was read from, the literal value it
stands for, if any, the line it starts on, and the bytes of the source that it
covers.
-/

namespace Lox

inductive Literal
  | text (value : String)
  | number (value : Float)

namespace Literal

/-- Equality of literal values.  Numbers compare as numbers do: a zero equals
the zero of the other sign, and what is not a number equals nothing. -/
def sameValue : Literal → Literal → Bool
  | .text first, .text second => first == second
  | .number first, .number second => first == second
  | _, _ => false

instance : BEq Literal := ⟨sameValue⟩

def display : Literal → String
  | .text value => value
  | .number value => NumberStyle.plain.text value

end Literal

/-- A token and where it comes from. -/
structure Token where
  kind : Kind
  lexeme : String
  literal : Option Literal
  line : Nat
  span : Span
  deriving BEq

namespace Token

def isOneOf (token : Token) (kinds : List Kind) : Bool :=
  kinds.contains token.kind

def isEndOfInput (token : Token) : Bool :=
  token.kind == .endOfInput

/-- A token in listings: its kind, its lexeme and its value, or nil when it has
none. -/
def display (token : Token) : String :=
  let value :=
    match token.literal with
    | some literal => literal.display
    | none => "nil"
  token.kind.name ++ " " ++ token.lexeme ++ " " ++ value

theorem isOneOf_iff (token : Token) (kinds : List Kind) :
    token.isOneOf kinds = true ↔ token.kind ∈ kinds := by
  simp [isOneOf]

theorem isEndOfInput_iff (token : Token) :
    token.isEndOfInput = true ↔ token.kind = .endOfInput := by
  simp [isEndOfInput]

end Token
end Lox
