import DesignTokens.Stylesheet.Enhancement
import DesignTokens.Text.Lines

/-!
# The text of a stylesheet

A stylesheet is a list of blocks, one below the other: a header, the rule of each bucket, the
same declarations again for pages that leave the theme to the operating system, and then, if
they are asked for, the converted colours and the enhancements, each behind a condition that
older browsers do not meet.

* `themeBlocks`, `oklchBlocks`, `modernBlocks` are the three parts.
* `Emission.css` is the whole text. Asking for more only adds blocks at the end.
-/

namespace DesignTokens

/-- Puts lines or blocks one below the other. -/
def stack (lines : List String) : String :=
  "\n".intercalate lines

/-- The two lines that a stylesheet starts with, and an empty one. -/
def headerBlocks : List String :=
  ["/* tokens.css — Generated from tokens/*.tokens.json */",
   "/* Do not edit manually. Run: tokensmith generate */\n"]

/-- The selector of a bucket. -/
def themeSelector : Bucket → String
  | .root => ":root"
  | .dark => ".dark"
  | .light => ".light"

/-- Selects a page that names no theme. -/
def noThemeSelector : String :=
  ":root:not(.dark):not(.light)"

/-- The declarations of a section in a bucket, led by its label; a section that has none leaves
no trace. -/
def sectionLines (b : Bucket) (s : LabelledSection) : List String :=
  match s.declarations.get b with
  | [] => []
  | declarations => ("\n  /* " ++ s.label ++ " */") :: declarations.map (Declaration.line 2)

/-- What stands between the braces of a bucket's rule. -/
def bucketBody (e : Emission) (b : Bucket) : String :=
  stack (e.sections.flatMap (sectionLines b))

/-- The rule of a bucket. -/
def themeRule (e : Emission) (b : Bucket) : String :=
  themeSelector b ++ " \x7b" ++ bucketBody e b ++ "\n\x7d\n"

/-- The body of a rule, two columns further to the right. -/
def nestedBody (e : Emission) (b : Bucket) : String :=
  String.ofList (Text.indent (bucketBody e b).toList)

/-- The rule of a theme for pages that leave the theme to the system. -/
def preferenceRule (e : Emission) (m : Mode) : String :=
  "@media (prefers-color-scheme: " ++ m.text ++ ") \x7b\n  " ++ noThemeSelector ++ " \x7b" ++
    nestedBody e (Bucket.ofMode (some m)) ++ "\n  \x7d\n\x7d"

/-- The rules of the buckets, then those for pages that name no theme. -/
def themeBlocks (e : Emission) : List String :=
  Bucket.all.map (themeRule e) ++
    ["/* OS preference fallback (when no .dark/.light class is set) */",
     preferenceRule e .dark ++ "\n",
     preferenceRule e .light]

/-- The rule of a bucket behind a condition; a bucket without declarations has no rule. -/
def innerRule (b : Bucket) (closing : String) : List Declaration → List String
  | [] => []
  | declarations =>
    ("  " ++ themeSelector b ++ " \x7b") :: declarations.map (Declaration.line 4) ++ [closing]

/-! ### Converted colours -/

/-- What a converted colour declares: itself, and the colour as it was under a name of its own. -/
def Derivation.overrides (d : Derivation) : List Declaration :=
  [{ name := d.name, value := d.converted }, { name := d.name ++ "-hex", value := d.source }]

/-- What the converted colours of a bucket declare. -/
def overridesIn (derivations : List Derivation) (b : Bucket) : List Declaration :=
  (derivations.filter fun d => d.bucket = b).flatMap Derivation.overrides

/-- The rule of a bucket for the converted colours. -/
def oklchThemeLines (derivations : List Derivation) (b : Bucket) : List String :=
  innerRule b "  \x7d\n" (overridesIn derivations b)

/-- The rule of a theme for the converted colours on pages that leave the theme to the system.
The rule of the light theme is the last one, and no empty line follows it. -/
def oklchPreferenceLines (derivations : List Derivation) (m : Mode) : List String :=
  match overridesIn derivations (Bucket.ofMode (some m)) with
  | [] => []
  | overrides =>
    ["  @media (prefers-color-scheme: " ++ m.text ++ ") \x7b",
     "    " ++ noThemeSelector ++ " \x7b"] ++
      overrides.map (Declaration.line 6) ++
      ["    \x7d", if m = .light then "  \x7d" else "  \x7d\n"]

/-- The converted colours, for browsers that know the notation. -/
def oklchBlocks (derivations : List Derivation) : List String :=
  match derivations with
  -- without converted colours there is not even the condition
  | [] => []
  | _ =>
    ["",
     "/* OKLCH color space — perceptually uniform, wider gamut */",
     "/* Hex fallbacks above; OKLCH overrides below for supporting browsers */",
     stack
      ("@supports (color: oklch(0% 0 0)) \x7b" ::
        Bucket.all.flatMap (oklchThemeLines derivations) ++
        Mode.all.flatMap (oklchPreferenceLines derivations) ++ ["\x7d"])]

/-! ### Enhancements -/

/-- The rule of a bucket for enhancements. No empty line follows the rule of the last bucket. -/
def conditionalLines (declarations : ByBucket (List Declaration)) (b : Bucket) : List String :=
  innerRule b (if b = .light then "  \x7d" else "  \x7d\n") (declarations.get b)

/-- Rules behind a condition. -/
def conditionalBlock (condition : String) (declarations : ByBucket (List Declaration)) : String :=
  stack
    (("@supports (" ++ condition ++ ") \x7b") ::
      Bucket.all.flatMap (conditionalLines declarations) ++ ["\x7d"])

/-- The declarations that hold both values of a colour. -/
def lightDarkBlock (pairs : List Declaration) : String :=
  stack
    (["@supports (color: light-dark(red, blue)) \x7b",
      "  :root \x7b",
      "    color-scheme: light dark;"] ++
      pairs.map (Declaration.line 4) ++ ["  \x7d", "\x7d"])

/-- The registered properties, if there are any. -/
def propertyBlocks (declarations : ByBucket (List Declaration)) : List String :=
  match propertyRules declarations.root declarations.dark with
  | [] => []
  | rules =>
    ["",
     "/* @property — typed custom properties (enables transitions, validation) */",
     "\n\n".intercalate rules]

/-- The interaction states, if there are any. -/
def stateBlocks (declarations : ByBucket (List Declaration)) : List String :=
  let states := interactionStates declarations
  if anyDeclared states then
    ["",
     "/* color-mix() — runtime hover/active derived states */",
     conditionalBlock "color: color-mix(in oklch, red, blue)" states]
  else []

/-- The colours of both themes, if there are any. -/
def lightDarkBlocks (declarations : ByBucket (List Declaration)) : List String :=
  match lightDarkPairs declarations.dark declarations.light with
  | [] => []
  | pairs =>
    ["",
     "/* light-dark() — single-property theme values (requires color-scheme on :root) */",
     lightDarkBlock pairs]

/-- The shades, if there are any. -/
def shadeBlocks (declarations : ByBucket (List Declaration)) : List String :=
  let shades := relativeShades declarations
  if anyDeclared shades then
    ["",
     "/* Relative color syntax — OKLCH shade generation */",
     conditionalBlock "color: oklch(from red l c h)" shades]
  else []

/-- The enhancements; the shades go with the converted colours. -/
def modernBlocks (oklch : Bool) (e : Emission) : List String :=
  let declarations := ByBucket.of e.declarations
  ["",
   "/* Modern CSS — progressive enhancement */",
   "/* Browser support: Chrome 111+, Safari 16.4+, Firefox 113+ */"] ++
    propertyBlocks declarations ++ stateBlocks declarations ++ lightDarkBlocks declarations ++
    (if oklch then shadeBlocks declarations else [])

/-! ### The whole -/

/-- The blocks of a stylesheet. -/
def Emission.blocks (oklch modernCss : Bool) (e : Emission) : List String :=
  headerBlocks ++ themeBlocks e ++ (if oklch then oklchBlocks e.derivations else []) ++
    (if modernCss then modernBlocks oklch e else [])

/-- The text of a stylesheet, which ends with a line feed. -/
def Emission.css (oklch modernCss : Bool) (e : Emission) : String :=
  stack (e.blocks oklch modernCss) ++ "\n"

end DesignTokens
