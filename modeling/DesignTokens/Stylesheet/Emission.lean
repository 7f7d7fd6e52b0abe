import DesignTokens.Color.Conversion
import DesignTokens.Diagnostic
import DesignTokens.Stylesheet.Declaration
import DesignTokens.Stylesheet.Order
import DesignTokens.Stylesheet.ValueText

/-!
# From tokens to declarations

Every token becomes one declaration, in the section of its category and in the bucket of its
theme. A colour is converted on the way or, if it cannot be, flagged.

* `Token.declare` is the declaration of a token.
* `Token.derivation?` is the conversion of its colour, `Token.colorWarning?` the warning that
  there is none.
* `LabelledSection.ofTokens` and `Emission.ofTokens` collect them in the order in which they
  are written; `colorWarnings` lists the warnings in the same order.
-/

namespace DesignTokens

namespace Token

/-- How a token's value is written. -/
def valueText (t : Token) : String :=
  formatValue t.effectiveType t.value

/-- Whether a token is a colour that cannot be converted. -/
def isUnparseable (t : Token) : Bool :=
  t.effectiveType = .color && !isColor t.valueText.toList

/-- The declaration of a token in a section. -/
def declare (label : String) (t : Token) : Declaration :=
  { name := t.propertyName
    value := t.valueText
    sectionLabel := label
    unparseable := t.isUnparseable }

/-- The converted colour of a token, if it is a colour that can be converted. -/
def derivation? (t : Token) : Option Derivation :=
  if t.effectiveType = .color ∧ t.isUnparseable = false then
    (oklchOfText? t.valueText.toList).map fun converted =>
      { name := t.propertyName
        source := t.valueText
        converted := String.ofList converted
        bucket := t.bucket }
  else none

/-- The warning about a colour that cannot be converted. -/
def colorWarning? (t : Token) : Option Diagnostic :=
  if t.isUnparseable then some (.unparseableColor t.propertyName t.valueText) else none

end Token

/-- The section of tokens that are in order already. -/
def LabelledSection.ofTokens (label : String) (tokens : List Token) : LabelledSection :=
  { label := label
    declarations :=
      ByBucket.of fun b => (tokens.filter fun t => t.bucket = b).map (Token.declare label) }

/-- The groups of tokens, each in the order in which it is written. -/
def orderedGroups (tokens : List Token) : List (Category × List Token) :=
  (Category.groups tokens).map fun group => (group.1, group.1.order group.2)

/-- All tokens in the order in which they are written. -/
def emissionOrder (tokens : List Token) : List Token :=
  (orderedGroups tokens).flatMap Prod.snd

/-- The sections of tokens, and their converted colours if these are asked for. -/
def Emission.ofTokens (oklch : Bool) (tokens : List Token) : Emission :=
  { sections :=
      (orderedGroups tokens).map fun group => LabelledSection.ofTokens group.1.label group.2
    derivations :=
      if oklch then (emissionOrder tokens).filterMap Token.derivation? else [] }

/-- The warnings about colours, if these are checked. -/
def colorWarnings (checkColors : Bool) (tokens : List Token) : List Diagnostic :=
  if checkColors then (emissionOrder tokens).filterMap Token.colorWarning? else []

end DesignTokens
