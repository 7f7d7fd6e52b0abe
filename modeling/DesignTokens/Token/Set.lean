import DesignTokens.Token.Basic

/-!
# Token sets

The tokens of one source, by tier. Only the three-tier layout fills all tiers; the other two
layouts keep all their tokens in the first.
-/

namespace DesignTokens

/-- How the files of a source are laid out. -/
inductive Layout where
  /-- nine files of fixed names, each a map of plain values -/
  | legacy
  /-- trees of tokens directly in the root of the source -/
  | flatAlias
  /-- the same trees, divided into one directory for each tier -/
  | threeTier
deriving DecidableEq, Repr

namespace Layout

/-- The written form of a layout. -/
def text : Layout → String
  | .legacy => "legacy"
  | .flatAlias => "flat-alias"
  | .threeTier => "three-tier"

/-- All layouts. -/
def all : List Layout :=
  [.legacy, .flatAlias, .threeTier]

/-- The layout with a written form. -/
def ofText? (text : String) : Option Layout :=
  all.find? (·.text = text)

end Layout

/-- The tiers, in the order in which they may refer to one another. -/
inductive Tier where
  | primitives
  | semantic
  | component
deriving DecidableEq, Repr

/-- The written form of a tier, which is also the name of its directory. -/
def Tier.text : Tier → String
  | .primitives => "primitives"
  | .semantic => "semantic"
  | .component => "component"

/-- How many tokens each tier holds. -/
structure TierCounts where
  primitives : Nat
  semantic : Nat
  component : Nat
deriving DecidableEq, Repr

/-- The tokens of one source. -/
structure TokenSet where
  layout : Layout
  primitives : List Token
  semantic : List Token := []
  component : List Token := []
deriving DecidableEq, Repr

/-- How many tokens each tier holds. -/
def TokenSet.counts (s : TokenSet) : TierCounts :=
  ⟨s.primitives.length, s.semantic.length, s.component.length⟩

end DesignTokens
