import Lox.QuotedText

/-!
# Diagnostics

A diagnostic says what is wrong, on which line, and optionally where on it.  The
location is free text that stands directly behind the word for an error, so it
brings its own leading space.
-/

namespace Lox

/-- What is wrong. -/
inductive Cause
  | unexpectedCharacter (character : Char)
  | custom (message : String)
  deriving DecidableEq

namespace Cause

def name : Cause → String
  | .unexpectedCharacter _ => "UnexpectedCharacter"
  | .custom _ => "Custom"

/-- What a reader is told is wrong. -/
def message : Cause → String
  | .unexpectedCharacter _ => "Unexpected character."
  | .custom message => message

/-- Advice on how to mend a cause, where there is any. -/
def tip? : Cause → Option String
  | .unexpectedCharacter character =>
      some ("Character " ++ QuotedText.ofCharacter character ++
        " is not part of the language, remove it or move it into a comment")
  | .custom _ => none

end Cause

/-- A cause, the line it is found on, and free text on where. -/
structure Diagnostic where
  cause : Cause
  line : Nat
  location : String
  deriving DecidableEq

namespace Diagnostic

def onLine (line : Nat) (cause : Cause) : Diagnostic :=
  ⟨cause, line, ""⟩

/-- A diagnostic at another location, which replaces the one it had. -/
def located (diagnostic : Diagnostic) (location : String) : Diagnostic :=
  { diagnostic with location }

/-- A diagnostic as one message: the line, the location and the cause. -/
def display (diagnostic : Diagnostic) : String :=
  "[line " ++ toString diagnostic.line ++ "] Error" ++ diagnostic.location ++
    ": " ++ diagnostic.cause.message

/-- Text of a tip, which is empty where there is no advice. -/
def tipText (tip : Option String) : String :=
  tip.getD ""

end Diagnostic
end Lox
