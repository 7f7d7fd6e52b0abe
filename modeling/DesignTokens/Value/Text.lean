import DesignTokens.Value.Basic
import DesignTokens.Decimal.NumberText

/-!
# The plain text of a value

How a value stands in a style sheet, or in a text that an alias is part of.

* `Value.text`: the items of a list are separated by commas, the fields of an object by
  spaces; nothing is quoted.
* `Value.textWithUnit` adds a unit to a number; a length of zero needs none.
-/

namespace DesignTokens.Value

/-- An integral double is written as the integer it is equal to. -/
def floatText (x : Float) : String :=
  match (Decimal.Binary.ofFloat x).whole? with
  | some n => String.ofList (Decimal.intText n)
  | none => Decimal.floatText x

mutual

/-- The plain text of a value. -/
def text : Value → String
  | .null => ""
  | .bool b => if b then "true" else "false"
  | .int n => String.ofList (Decimal.intText n)
  | .float x => floatText x
  | .str s => s
  | .list items => ", ".intercalate (itemTexts items)
  | .object fields => " ".intercalate (fieldTexts fields)

/-- The text of every item. -/
def itemTexts : List Value → List String
  | [] => []
  | v :: rest => text v :: itemTexts rest

/-- The text of the value of every field. -/
def fieldTexts : Fields → List String
  | [] => []
  | (_, v) :: rest => text v :: fieldTexts rest

end

/-- Whether a value is a number equal to zero. -/
def isZero : Value → Bool
  | .int n => n == 0
  | .float x => x == 0.0
  | _ => false

/-- Whether a value is a number; the truth values are none. -/
def isNumber : Value → Bool
  | .int _ => true
  | .float _ => true
  | _ => false

/-- The text of a value with a unit after it if it is a number. -/
def textWithUnit (unit : String) (v : Value) : String :=
  if v.isNumber then v.text ++ unit else v.text

/-- The text of a length: a bare number counts pixels, and zero has no unit. -/
def lengthText (v : Value) : String :=
  if v.isZero then "0" else v.textWithUnit "px"

theorem fieldTexts_eq_map (fields : Fields) : fieldTexts fields = fields.map fun f => text f.2 := by
  induction fields with
  | nil => rfl
  | cons f rest ih => simp [fieldTexts, ih]

end DesignTokens.Value
