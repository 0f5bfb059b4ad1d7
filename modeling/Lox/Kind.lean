import Lox.Symbol

/-!
# Kinds of tokens

A token is a symbol, an identifier, a literal, a keyword, or the end of the
input.  The scanner produces symbols and the end of the input; the other kinds
belong to the vocabulary of the language, and tokens of them can be built by
hand.
-/

namespace Lox

inductive Keyword
  | andWord
  | classWord
  | elseWord
  | falseWord
  | funWord
  | forWord
  | ifWord
  | nilWord
  | orWord
  | printWord
  | returnWord
  | superWord
  | thisWord
  | trueWord
  | varWord
  | whileWord
  deriving DecidableEq

namespace Keyword

def all : List Keyword :=
  [andWord, classWord, elseWord, falseWord, funWord, forWord, ifWord, nilWord,
    orWord, printWord, returnWord, superWord, thisWord, trueWord, varWord,
    whileWord]

def name : Keyword → String
  | andWord => "And"
  | classWord => "Class"
  | elseWord => "Else"
  | falseWord => "False"
  | funWord => "Fun"
  | forWord => "For"
  | ifWord => "If"
  | nilWord => "Nil"
  | orWord => "Or"
  | printWord => "Print"
  | returnWord => "Return"
  | superWord => "Super"
  | thisWord => "This"
  | trueWord => "True"
  | varWord => "Var"
  | whileWord => "While"

theorem mem_all (keyword : Keyword) : keyword ∈ all := by
  cases keyword <;> decide

end Keyword

inductive Kind
  | symbol (sign : Symbol)
  | identifier
  | string
  | number
  | keyword (word : Keyword)
  | endOfInput
  deriving DecidableEq

namespace Kind

def all : List Kind :=
  Symbol.all.map .symbol ++ [.identifier, .string, .number] ++
    Keyword.all.map .keyword ++ [.endOfInput]

def name : Kind → String
  | .symbol sign => sign.name
  | .identifier => "Identifier"
  | .string => "String"
  | .number => "Number"
  | .keyword word => word.name
  | .endOfInput => "EOF"

def ofName? (name : String) : Option Kind :=
  all.find? fun kind => kind.name == name

theorem mem_all (kind : Kind) : kind ∈ all := by
  cases kind <;> simp [all, Symbol.mem_all, Keyword.mem_all]

/-- No two kinds share a name, so a name determines its kind. -/
theorem ofName?_name (kind : Kind) : ofName? kind.name = some kind := by
  cases kind with
  | symbol sign => cases sign <;> decide
  | keyword word => cases word <;> decide
  | _ => decide

end Kind
end Lox
