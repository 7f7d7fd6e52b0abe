import DesignTokens.Alias.Expand
import DesignTokens.Token.Set

/-!
# Resolving a token set

The tokens of a set are expanded against the scopes that their layout allows.

* In the three-tier layout the tiers are expanded in order, the primitives against nothing, the
  semantic tokens against the primitives, the component tokens against the semantic tokens and
  then the primitives. The scope of a tier holds its expanded values. The primitives serve look-up
  only; the other two tiers go into the stylesheet.
* In the flat layout there is one scope, of all values as they are written.
* The legacy layout has no aliases.

A warning names the token in which the alias is written.
-/

namespace DesignTokens

namespace Token

/-- Expands the value of a token. -/
def expand (scopes : Scopes) (t : Token) : Expansion Token := do
  let value ← Alias.expand scopes t.path.dotted t.value
  return { t with value := value }

/-- Expands the values of tokens, in order. -/
def expandAll (scopes : Scopes) : List Token → Expansion (List Token)
  | [] => pure []
  | t :: rest => do
    let expanded ← t.expand scopes
    let more ← expandAll scopes rest
    return expanded :: more

end Token

namespace TokenSet

/-- The set with every tier expanded, each against those before it. -/
def expandTiers (s : TokenSet) : Expansion TokenSet := do
  let primitives ← Token.expandAll [] s.primitives
  -- a scope holds what its tier has become, not what was written
  let primitiveScope := Scope.ofTokens primitives
  let semantic ← Token.expandAll [primitiveScope] s.semantic
  let component ← Token.expandAll [Scope.ofTokens semantic, primitiveScope] s.component
  return { s with primitives := primitives, semantic := semantic, component := component }

/-- The tokens that reach the stylesheet, with their expanded values. -/
def resolve (s : TokenSet) : Expansion (List Token) :=
  match s.layout with
  | .legacy => pure s.primitives
  | .flatAlias => Token.expandAll [Scope.ofTokens s.primitives] s.primitives
  | .threeTier => do
    let expanded ← s.expandTiers
    return expanded.semantic ++ expanded.component

end TokenSet

end DesignTokens
