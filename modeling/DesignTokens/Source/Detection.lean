import DesignTokens.Source.TokenFile
import DesignTokens.Token.Set

/-!
# Which layout a source has

The layout shows in the directories alone; no file is read. A source whose tier of primitives
holds a tree of tokens is three-tier, otherwise one that holds such a tree itself is flat, and
any other is a legacy source.
-/

namespace DesignTokens

/-- The directory of a tier. -/
def tierDirectory (root : Location) (tier : Tier) : Location :=
  root.child tier.text

/-- The layout of the source in a directory. -/
def detectLayout (t : FileTree) (root : Location) : Except LoadError Layout :=
  if t.isDirectory root then
    -- tiers win over trees beside them
    if tokenFileNames t (tierDirectory root .primitives) ≠ [] then .ok .threeTier
    else if tokenFileNames t root ≠ [] then .ok .flatAlias
    else .ok .legacy
  else .error (.rootMissing root)

end DesignTokens
