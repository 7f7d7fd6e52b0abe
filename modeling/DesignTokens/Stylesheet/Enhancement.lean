import DesignTokens.Stylesheet.Declaration
import DesignTokens.Text.DecimalDigit
import DesignTokens.Text.Search

/-!
# Progressive enhancement

What newer browsers are offered on top of the declarations, computed from the declarations
alone.

* `propertySyntax?` infers the type of a property from its name, and `propertyRules` registers
  each typed property once, with the value of its first declaration.
* `isStateful` tells the colours that get derived states; `interactionStates` and
  `relativeShades` derive them, bucket by bucket.
* `lightDarkPairs` joins the two values of a colour that both themes declare.
-/

namespace DesignTokens

/-! ### Registered properties -/

/-- The types of properties, by the beginning of their names. The first beginning that fits
decides; a shadow has no type of its own. -/
def propertySyntaxes : List (String × Option String) :=
  [("color-", some "<color>"),
   ("shadow-", none),
   ("size-", some "<length>"),
   ("space-", some "<length>"),
   ("border-width-", some "<length>"),
   ("blur-", some "<length>"),
   ("radius-", some "<length>"),
   ("font-size-", some "<length>"),
   ("line-height-", some "<length>"),
   ("opacity-", some "<number>"),
   ("z-", some "<integer>"),
   ("font-weight-", some "<number>"),
   ("duration-", some "<time>")]

/-- Whether a name starts with a text. -/
def startsWith (front name : String) : Bool :=
  front.toList.isPrefixOf name.toList

/-- The type of a property, if its name tells one. -/
def propertySyntax? (name : String) : Option String :=
  (propertySyntaxes.find? fun entry => startsWith entry.1 name).bind Prod.snd

/-- The rule that registers a property. -/
def propertyRule (name syntaxText value : String) : String :=
  "@property --" ++ name ++ " \x7b\n  syntax: '" ++ syntaxText ++
    "';\n  inherits: true;\n  initial-value: " ++ value ++ ";\n\x7d"

/-- The value of the first declaration of a name. -/
def firstValue? (name : String) (declarations : List Declaration) : Option String :=
  (declarations.find? fun d => d.name = name).map (·.value)

/-- The names that are declared, each once, in the order of their first declarations. -/
def declaredNames (declarations : List Declaration) : List String :=
  (declarations.map (·.name)).eraseDups

/-- One rule for each typed property, shared declarations before those of the dark theme. -/
def propertyRules (root dark : List Declaration) : List String :=
  (declaredNames (root ++ dark)).filterMap fun name =>
    match propertySyntax? name, firstValue? name (root ++ dark) with
    | some syntaxText, some value => some (propertyRule name syntaxText value)
    | _, _ => none

/-! ### Derived states -/

/-- Whether a text ends in a dash and a number, up to one line feed after it. -/
def endsInNumber (text : List Char) : Bool :=
  let backwards :=
    match text.reverse with
    | '\n' :: rest => rest
    | all => all
  match backwards.takeWhile Text.isDigit, backwards.dropWhile Text.isDigit with
  | _ :: _, '-' :: _ => true
  | _, _ => false

/-- Whether a property is an accent or an action colour. Such a colour is not one of a shadow or
an overlay, nor a variant that is numbered by its opacity, nor the plain white and black that
belong to no theme. -/
def isStateful (name : String) : Bool :=
  match Text.afterPrefix? "color-".toList name.toList with
  | none => false
  | some rest =>
    let startsAs := fun (front : String) => front.toList.isPrefixOf rest
    let mentions := fun (word : String) => Text.occursIn word.toList rest
    if startsAs "shadow-" || mentions "overlay" || endsInNumber rest then false
    else startsAs "accent-" || (startsAs "modeless-" && !mentions "white" && !mentions "black")

/-- A state derived from a colour: the end of its name, and its value around the colour. -/
structure Variant where
  suffix : String
  before : String
  after : String

/-- The declaration of a state of a colour. -/
def Variant.declare (v : Variant) (d : Declaration) : Declaration :=
  { name := d.name ++ "-" ++ v.suffix
    value := v.before ++ "var(--" ++ d.name ++ ")" ++ v.after
    sectionLabel := d.sectionLabel }

/-- Whether states are derived from a declaration. -/
def Declaration.hasStates (d : Declaration) : Bool :=
  !d.unparseable && isStateful d.name

/-- The states of declarations, all states of one after those of the one before. -/
def derive (variants : List Variant) (declarations : List Declaration) : List Declaration :=
  (declarations.filter Declaration.hasStates).flatMap fun d => variants.map fun v => v.declare d

/-- Hover and active. -/
def interactionVariants : List Variant :=
  [⟨"hover", "color-mix(in oklch, ", " 90%, white)"⟩,
   ⟨"active", "color-mix(in oklch, ", " 80%, black)"⟩]

/-- Lighter and darker. -/
def shadeVariants : List Variant :=
  [⟨"lighter", "oklch(from ", " calc(l * 1.2) c h)"⟩,
   ⟨"darker", "oklch(from ", " calc(l * 0.8) c h)"⟩]

/-- The interaction states of declarations. -/
def interactionStates (declarations : ByBucket (List Declaration)) :
    ByBucket (List Declaration) :=
  declarations.map (derive interactionVariants)

/-- The shades of declarations. -/
def relativeShades (declarations : ByBucket (List Declaration)) : ByBucket (List Declaration) :=
  declarations.map (derive shadeVariants)

/-- Whether any bucket has a declaration. -/
def anyDeclared (declarations : ByBucket (List Declaration)) : Bool :=
  Bucket.all.any fun b => declarations.get b ≠ []

/-! ### Values of both themes -/

/-- The value of the last declaration of a name, which is the one that counts. -/
def lastValue? (name : String) : List Declaration → Option String
  | [] => none
  | d :: rest =>
    match lastValue? name rest with
    | some later => some later
    | none => if d.name = name then some d.value else none

/-- One declaration with both values for each colour that both themes declare, in the order of
the dark theme; the light value comes first. An empty light value counts as missing. -/
def lightDarkPairs (dark light : List Declaration) : List Declaration :=
  (declaredNames dark).filterMap fun name =>
    if startsWith "color-" name then
      match lastValue? name light, lastValue? name dark with
      | some lightValue, some darkValue =>
        if lightValue = "" then none
        else
          some { name := name, value := "light-dark(" ++ lightValue ++ ", " ++ darkValue ++ ")" }
      | _, _ => none
    else none

end DesignTokens
