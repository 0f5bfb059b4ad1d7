import Lox.UnprintableCharacters

/-!
# Quoted text

Text between two delimiters, with a backslash before whatever could not stand
there as it is: the delimiter, the backslash itself, and characters that have
no printed form of their own.
-/

namespace Lox
namespace QuotedText

/-- The delimiter of a single character. -/
def apostrophe : Char := '\x27'

/-- The delimiter of a text. -/
def quotationMark : Char := '\x22'

/-- Code point of a character, in hexadecimal digits between braces. -/
def codePointEscape (character : Char) : List Char :=
  ['\\', 'u', '\x7b'] ++ Nat.toDigits 16 character.toNat ++ ['\x7d']

/-- How a character is written between a pair of delimiters. -/
def escape (delimiter character : Char) : List Char :=
  if character = delimiter ∨ character = '\\' then
    ['\\', character]
  else if character = '\x00' then
    ['\\', '0']
  else if character = '\t' then
    ['\\', 't']
  else if character = '\n' then
    ['\\', 'n']
  else if character = '\r' then
    ['\\', 'r']
  else if UnprintableCharacters.isUnprintable character then
    codePointEscape character
  else
    [character]

/-- Text between a pair of delimiters. -/
def between (delimiter : Char) (text : List Char) : String :=
  String.ofList (delimiter :: text.flatMap (escape delimiter) ++ [delimiter])

def ofCharacter (character : Char) : String :=
  between apostrophe [character]

def ofText (text : String) : String :=
  between quotationMark text.toList

end QuotedText
end Lox
