import DesignTokens.Decimal.NumberText
import DesignTokens.Text.Printable
import DesignTokens.Value.Basic

/-!
# Values as literals

A value in a notation from which its type can be told: the three words start with a capital,
a double keeps its point, and texts inside a list or an object stand in quotes. It serves
where a value of any type is used as a key.

* `Value.literal` is the notation of a value.
* `Value.keyText` is the key that a value stands for: a text stands for itself.
-/

namespace DesignTokens

namespace Text

/-- At least `count` hexadecimal digits, in small letters. -/
def hexDigits (count n : Nat) : List Char :=
  let digits := Nat.toDigits 16 n
  List.replicate (count - digits.length) '0' ++ digits

/-- A character between quotes. A character that is not shown is written by its number. -/
def quotedChar (quote c : Char) : List Char :=
  -- the quote around the text and the backslash itself need a backslash
  if c = quote ∨ c = '\\' then ['\\', c]
  else if c = '\n' then ['\\', 'n']
  else if c = '\r' then ['\\', 'r']
  else if c = '\t' then ['\\', 't']
  else if isPrintable c then [c]
  else if c.toNat < 0x100 then '\\' :: 'x' :: hexDigits 2 c.toNat
  else if c.toNat < 0x10000 then '\\' :: 'u' :: hexDigits 4 c.toNat
  else '\\' :: 'U' :: hexDigits 8 c.toNat

/-- A text in single quotes, or in double ones if that saves a backslash. -/
def quoted (text : List Char) : List Char :=
  let quote := if text.contains '\'' ∧ ¬ text.contains '"' then '"' else '\''
  quote :: text.flatMap (quotedChar quote) ++ [quote]

end Text

namespace Value

mutual

/-- The notation of a value. -/
def literal : Value → String
  | .null => "None"
  | .bool b => if b then "True" else "False"
  | .int n => String.ofList (Decimal.intText n)
  | .float x => Decimal.floatText x
  | .str s => String.ofList (Text.quoted s.toList)
  | .list items => "[" ++ ", ".intercalate (itemLiterals items) ++ "]"
  | .object fields => "\x7b" ++ ", ".intercalate (fieldLiterals fields) ++ "\x7d"

/-- The notation of every item. -/
def itemLiterals : List Value → List String
  | [] => []
  | v :: rest => literal v :: itemLiterals rest

/-- The notation of every field. -/
def fieldLiterals : Fields → List String
  | [] => []
  | (key, v) :: rest =>
    (String.ofList (Text.quoted key.toList) ++ ": " ++ literal v) :: fieldLiterals rest

end

/-- The key that a value stands for. -/
def keyText : Value → String
  | .str s => s
  | v => v.literal

end Value

end DesignTokens
