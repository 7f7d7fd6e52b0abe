import DesignTokens.Diagnostic
import DesignTokens.Token.Basic
import DesignTokens.Value.Literal

/-!
# The legacy files

Nine files of fixed names hold maps of plain values. Each entry becomes a token whose path and
tag give its property the name and the text that such a source promises.

* `Legacy.files` lists the files in the order in which they are read, each with the tokens that
  it gives and the warnings about it.
-/

namespace DesignTokens

namespace Legacy

/-- The entries of a map inside another; anything else than a map counts as an empty one. -/
def group (data : Fields) (key : String) : Fields :=
  match Value.field? data key with
  | some (.object entries) => entries
  | _ => []

/-- The tokens of the entries of a map, each under the same first keys. -/
def entryTokens (type : TokenType) (head : String) (keys : List String) (entries : Fields) :
    List Token :=
  entries.map fun entry =>
    { path := ⟨head, keys ++ [entry.1]⟩, value := entry.2, type := type }

/-- The colours of both themes, then the shared ones. -/
def colorTokens (data : Fields) : List Token :=
  Mode.all.flatMap (fun mode =>
    (group data mode.text).map fun entry =>
      { path := ⟨"color", [entry.1, mode.text]⟩
        value := entry.2
        type := .color
        mode := some mode : Token }) ++
    entryTokens .color "color" [] (group data "shared")

/-- Sizes, then spaces. -/
def sizingTokens (data : Fields) : List Token :=
  entryTokens .dimension "size" [] (group data "size") ++
    entryTokens .dimension "space" [] (group data "space")

/-- The named weights of fonts. -/
def fontWeights (data : Fields) : Fields :=
  group (group data "primitive") "weight"

/-- The weight of a text style: the named weight, or else the name itself. -/
def styleWeight (weights : Fields) (weight : Value) : Value :=
  (Value.field? weights weight.keyText).getD (.str weight.keyText)

/-- The size, the line height and the weight of a text style, as far as they are set. -/
def textStyleTokens (weights : Fields) (name : String) : Value → List Token
  | .object style =>
    ((Value.field? style "fontSize").map fun size =>
      { path := ⟨"font", ["size", name]⟩, value := size, type := .dimension : Token }).toList ++
    ((Value.field? style "lineHeight").map fun height =>
      { path := ⟨"line-height", [name]⟩, value := height, type := .dimension : Token }).toList ++
    ((Value.field? style "fontWeight").map fun weight =>
      { path := ⟨"font-weight-composite", [name]⟩
        value := styleWeight weights weight
        type := .number : Token }).toList
  | _ => []

/-- The warning about a text style whose weight is not a named one. -/
def textStyleWarning? (weights : Fields) (name : String) : Value → Option Diagnostic
  | .object style =>
    match Value.field? style "fontWeight" with
    | none => none
    | some weight =>
      match Value.field? weights weight.keyText with
      | some _ => none
      | none =>
        some (.unresolvedReference ("font.weight." ++ weight.keyText)
          ("typography composite '" ++ name ++ "'"))
  | _ => none

/-- Families, weights, then the text styles. -/
def typographyTokens (data : Fields) : List Token :=
  entryTokens .fontFamily "font" ["family"] (group (group data "primitive") "family") ++
    entryTokens .number "font" ["weight"] (fontWeights data) ++
    (group data "composite").flatMap fun entry =>
      textStyleTokens (fontWeights data) entry.1 entry.2

/-- The warnings about text styles. -/
def typographyWarnings (data : Fields) : List Diagnostic :=
  (group data "composite").filterMap fun entry =>
    textStyleWarning? (fontWeights data) entry.1 entry.2

/-- The radii of corners. -/
def radiusTokens (data : Fields) : List Token :=
  entryTokens .dimension "radius" [] (group data "radius")

/-- The shadow of a level in a theme: the shape of the level with the colour that the theme gives
it. Without a colour there is no shadow. -/
def shadowToken? (data : Fields) (level : String) (geometry : Fields) (mode : Mode) :
    Option Token :=
  match Value.field? (group data mode.text) ("shadow-" ++ level) with
  | none => none
  -- a colour given as null counts as missing
  | some .null => none
  | some color =>
    let part := fun key => (Value.field? geometry key).getD (.int 0)
    some
      { path := ⟨"shadow", [level, mode.text]⟩
        value := .object
          [("offsetX", part "offsetX"), ("offsetY", part "offsetY"), ("blur", part "blurRadius"),
           ("spread", part "spreadRadius"), ("color", color)]
        type := .shadow
        mode := some mode }

/-- The shadows of a level. -/
def shadowTokensOf (data : Fields) (level : String) : Value → List Token
  | .object geometry => Mode.all.filterMap (shadowToken? data level geometry)
  | _ => []

/-- Shadows, then blurs. -/
def shadowTokens (data : Fields) : List Token :=
  (group data "geometry").flatMap (fun entry => shadowTokensOf data entry.1 entry.2) ++
    entryTokens .dimension "blur" [] (group data "blur")

/-- The widths of borders, then their styles. -/
def borderTokens (data : Fields) : List Token :=
  entryTokens .dimension "border" ["width"] (group data "width") ++
    entryTokens .other "border" ["style"] (group data "style")

/-- The entries of a map whose keys are named after it. -/
def namedTokens (type : TokenType) (name : String) (data : Fields) : List Token :=
  (group data name).map fun entry =>
    { path := ⟨name, [name ++ "-" ++ entry.1]⟩, value := entry.2, type := type }

/-- Durations, then easing functions. -/
def transitionTokens (data : Fields) : List Token :=
  namedTokens .duration "duration" data ++ namedTokens .cubicBezier "easing" data

/-- A file, the tokens that its content gives, and the warnings about it. -/
structure File where
  name : String
  tokens : Fields → List Token
  warnings : Fields → List Diagnostic

/-- The files in the order in which they are read. -/
def files : List File :=
  [⟨"colors.json", colorTokens, fun _ => []⟩,
   ⟨"sizing.json", sizingTokens, fun _ => []⟩,
   ⟨"typography.json", typographyTokens, typographyWarnings⟩,
   ⟨"radii.json", radiusTokens, fun _ => []⟩,
   ⟨"shadows.json", shadowTokens, fun _ => []⟩,
   ⟨"borders.json", borderTokens, fun _ => []⟩,
   ⟨"opacity.json", namedTokens .number "opacity", fun _ => []⟩,
   ⟨"z-index.json", namedTokens .number "z", fun _ => []⟩,
   ⟨"transitions.json", transitionTokens, fun _ => []⟩]

end Legacy

end DesignTokens
