import DesignTokens.Stylesheet.Category
import DesignTokens.Stylesheet.Naming

/-!
# The order of a section

Within a section the tokens stand in the order of the first keys that the category claims, and
otherwise as they were found.

The typography section is ordered by its text styles: families and weights come first, then
each style with its size, its line height and its weight together, then what belongs to no
style with a size, then everything else.

* `Role` is the part that a token plays in typography, with the style that it belongs to.
* `typographyOrder` and `headOrder` are the two orders, `Category.order` chooses.
-/

namespace DesignTokens

/-- The part a token plays in typography. -/
inductive Role where
  | family
  | weight
  | size (style : String)
  | lineHeight (style : String)
  | styleWeight (style : String)
  | unplaced
deriving DecidableEq, Repr

namespace Role

/-- The role of a path. -/
def ofPath (path : TokenPath) : Role :=
  match path.tail with
  | [] => .unplaced
  | second :: more =>
    if path.head = "font" then
      if more = [] then .unplaced
      else
        match second with
        | "family" => .family
        | "weight" => .weight
        | "size" => .size ("-".intercalate more)
        | _ => .unplaced
    else if path.head = "line-height" then .lineHeight ("-".intercalate (second :: more))
    else if path.head = "font-weight-composite" then
      .styleWeight ("-".intercalate (second :: more))
    else .unplaced

/-- The role of a token. -/
def ofToken (t : Token) : Role :=
  ofPath t.namePath

/-- The style that a size sets. -/
def sizeStyle? : Role → Option String
  | .size style => some style
  | _ => none

/-- The style that a role belongs to. -/
def style? : Role → Option String
  | .size style => some style
  | .lineHeight style => some style
  | .styleWeight style => some style
  | _ => none

end Role

/-- The tokens that play a role. -/
def withRole (role : Role) (tokens : List Token) : List Token :=
  tokens.filter fun t => Role.ofToken t = role

/-- The styles that have a size, in the order of their first sizes. -/
def sizedStyles (tokens : List Token) : List String :=
  (tokens.filterMap fun t => (Role.ofToken t).sizeStyle?).eraseDups

/-- The first size, line height and weight of a style, as far as there are any. -/
def styleTokens (tokens : List Token) (style : String) : List Token :=
  (withRole (.size style) tokens).take 1 ++ (withRole (.lineHeight style) tokens).take 1 ++
    (withRole (.styleWeight style) tokens).take 1

/-- The sizes, line heights and weights that are not the first of a style with a size. `met`
holds the roles already met. -/
def leftoverTokens (styles : List String) : (met : List Role) → List Token → List Token
  | _, [] => []
  | met, t :: rest =>
    let role := Role.ofToken t
    match role.style? with
    -- families, weights and the unplaced have places of their own
    | none => leftoverTokens styles met rest
    | some style =>
      -- the first of its role in a style with a size stands with that style
      if style ∈ styles ∧ role ∉ met then leftoverTokens styles (role :: met) rest
      else t :: leftoverTokens styles (role :: met) rest

/-- Families, weights, the styles one by one, then what is left over, then the rest. -/
def typographyOrder (tokens : List Token) : List Token :=
  let styles := sizedStyles tokens
  withRole .family tokens ++ withRole .weight tokens ++ styles.flatMap (styleTokens tokens) ++
    leftoverTokens styles [] tokens ++ withRole .unplaced tokens

/-- The tokens of each claimed first key, one key after the other, then the rest. -/
def headOrder (heads : List String) (tokens : List Token) : List Token :=
  heads.flatMap (fun head => tokens.filter fun t => t.path.head = head) ++
    tokens.filter fun t => t.path.head ∉ heads

/-- The order of the tokens of a category. -/
def Category.order (c : Category) (tokens : List Token) : List Token :=
  if c.kind = .typography then typographyOrder tokens else headOrder c.heads tokens

end DesignTokens
