import DesignTokens.Decimal.NumberText

/-!
# Faults in JSON text

What can be wrong with a JSON text, and where: a fault points at one character, by its
offset from the start of the text and by its line and column.
-/

namespace DesignTokens.Json

/-- What is wrong with the text. -/
inductive Fault where
  | byteOrderMark
  | expectingValue
  | expectingName
  | expectingColon
  | expectingComma
  | unterminatedString
  | controlCharacter
  | invalidEscape
  | invalidUnicodeEscape
  | extraData
deriving DecidableEq, Repr

/-- The fault in words. -/
def Fault.message : Fault → String
  | .byteOrderMark => "Unexpected UTF-8 BOM (decode using utf-8-sig)"
  | .expectingValue => "Expecting value"
  | .expectingName => "Expecting property name enclosed in double quotes"
  | .expectingColon => "Expecting ':' delimiter"
  | .expectingComma => "Expecting ',' delimiter"
  | .unterminatedString => "Unterminated string starting at"
  | .controlCharacter => "Invalid control character at"
  | .invalidEscape => "Invalid \\escape"
  | .invalidUnicodeEscape => "Invalid \\uXXXX escape"
  | .extraData => "Extra data"

/-- A fault and the character that it is at; lines and columns count from one. -/
structure SyntaxError where
  fault : Fault
  offset : Nat
  line : Nat
  column : Nat
deriving DecidableEq, Repr

/-- The fault at an offset of a text. -/
def SyntaxError.locate (fault : Fault) (text : List Char) (offset : Nat) : SyntaxError :=
  let before := text.take offset
  { fault := fault
    offset := offset
    line := before.count '\n' + 1
    column := (before.reverse.takeWhile (· != '\n')).length + 1 }

private def decimal (n : Nat) : String :=
  String.ofList (Decimal.natText n)

/-- The fault in words, with its place. -/
def SyntaxError.message (e : SyntaxError) : String :=
  e.fault.message ++ ": line " ++ decimal e.line ++ " column " ++ decimal e.column ++
    " (char " ++ decimal e.offset ++ ")"

end DesignTokens.Json
