import DesignTokens.Token.Basic
import DesignTokens.Value.Text

/-!
# Values in a style sheet

How the value of a declaration is written, depending on the tag of its token: lengths and
durations get their units, a list of control points becomes an easing function, and the record
of a shadow becomes its parts in their order. Everything else is plain text.
-/

namespace DesignTokens

/-- The parts of a shadow: two offsets, blur and spread as lengths, then the colour; a shadow
that is cast inwards says so first. A length that is missing is zero. -/
def shadowText (fields : Fields) : String :=
  let length := fun key => ((Value.field? fields key).getD (.int 0)).lengthText
  let color := ((Value.field? fields "color").getD (.str "")).text
  let parts := [length "offsetX", length "offsetY", length "blur", length "spread", color]
  " ".intercalate
    (if Value.field? fields "inset" = some (.bool true) then "inset" :: parts else parts)

/-- Writes a value according to a tag. -/
def formatValue (type : TokenType) (value : Value) : String :=
  match type, value with
  | .shadow, .object fields => shadowText fields
  | .cubicBezier, .list points => "cubic-bezier(" ++ (Value.list points).text ++ ")"
  | .duration, value => value.textWithUnit "ms"
  | .dimension, value => value.lengthText
  | _, value => value.text

end DesignTokens
