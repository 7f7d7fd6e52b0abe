import DesignTokens.Token.Basic

/-!
# Names and types of tokens

What the path of a token says about its declaration.

* `Token.namePath` is the part of the path that names it: the last key of a token with a theme
  is the theme.
* `Token.propertyName` is the name of its custom property.
* `Token.effectiveType` is its tag, or the tag that goes with its path.
-/

namespace DesignTokens

namespace Token

/-- The keys that name a token. The last key of a token with a theme is left out, unless it is
the only one. -/
def namePath (t : Token) : TokenPath :=
  match t.mode with
  | none => t.path
  | some _ => { t.path with tail := t.path.tail.dropLast }

/-- First keys under which a path of two keys is named by its last key alone. -/
def leafNamedHeads : List String :=
  ["size", "space", "radius", "blur", "opacity", "z", "duration", "easing"]

/-- The name of the custom property of a path. -/
def nameOfPath (path : TokenPath) : String :=
  match path.tail with
  | [] => path.head
  | second :: more =>
    if more = [] ∧ leafNamedHeads.contains path.head then second
    -- of a shadow only the level counts, whatever follows it
    else if path.head = "shadow" then "shadow-" ++ second
    else if path.head = "font-weight-composite" then
      "-".intercalate ("font-weight" :: second :: more)
    else "-".intercalate path.segments

/-- The name of a token's custom property. -/
def propertyName (t : Token) : String :=
  nameOfPath t.namePath

/-- The tag that goes with a first key. -/
def headType : String → TokenType
  | "color" => .color
  | "size" => .dimension
  | "space" => .dimension
  | "radius" => .dimension
  | "blur" => .dimension
  | "shadow" => .shadow
  | "opacity" => .number
  | "z" => .number
  | "duration" => .duration
  | "easing" => .cubicBezier
  | _ => .other

/-- The tag that goes with a path: a font's depends on its second key. -/
def pathType (path : TokenPath) : TokenType :=
  match path.tail with
  | second :: _ :: _ =>
    if path.head = "font" then
      match second with
      | "family" => .fontFamily
      | "weight" => .number
      | "size" => .dimension
      | _ => .other
    else headType path.head
  | _ => headType path.head

/-- The tag that decides how a token's value is written. -/
def effectiveType (t : Token) : TokenType :=
  if t.type = .other then pathType t.path else t.type

end Token

end DesignTokens
