import Lox.Diagnostic
import Lox.Token

/-!
# Values spelled out for inspection

Inspected text shows how a value is built: names of types and fields, texts in
quotation marks, numbers marked as such.  Unlike plain text it tells apart a
number and the text that looks like it.
-/

namespace Lox
namespace Inspection

def withFields (name : String) (fields : List (String × String)) : String :=
  let entries := fields.map fun field => field.1 ++ ": " ++ field.2
  name ++ " \x7b " ++ ", ".intercalate entries ++ " \x7d"

def wrapping (name content : String) : String :=
  name ++ "(" ++ content ++ ")"

def optional : Option String → String
  | none => "None"
  | some content => wrapping "Some" content

def ofSpan (span : Span) : String :=
  withFields "Span"
    [("start", toString span.start), ("end", toString span.stop)]

def ofLiteral : Literal → String
  | .text value => wrapping "String" (QuotedText.ofText value)
  | .number value => wrapping "Number" (NumberStyle.inspected.text value)

def ofToken (token : Token) : String :=
  withFields "Token"
    [("kind", token.kind.name),
      ("lexeme", QuotedText.ofText token.lexeme),
      ("literal", optional (token.literal.map ofLiteral)),
      ("line", toString token.line),
      ("span", ofSpan token.span)]

def ofCause : Cause → String
  | .unexpectedCharacter character =>
      withFields "UnexpectedCharacter"
        [("character", QuotedText.ofCharacter character)]
  | .custom message =>
      withFields "Custom" [("message", QuotedText.ofText message)]

def ofDiagnostic (diagnostic : Diagnostic) : String :=
  withFields "Error"
    [("internal_error", ofCause diagnostic.cause),
      ("line", toString diagnostic.line),
      ("location", QuotedText.ofText diagnostic.location)]

end Inspection
end Lox
