import DesignTokens.Event
import DesignTokens.Source.Detection
import DesignTokens.Source.Legacy
import DesignTokens.Source.Tree
import DesignTokens.Traced

/-!
# Loading a source

The tokens of a source, as its layout says.

* `loadFiles` reads trees of tokens one after the other, `loadTier` those of a tier,
  `loadLegacyFiles` the nine fixed files.
* `loadTokens` loads a whole source. The first file that cannot be read decides the failure.
-/

namespace DesignTokens

/-- Loading records what it finds. -/
abbrev Loading := Traced Event LoadError

/-- The tokens of the files of a directory, in order. -/
def loadFiles (t : FileTree) (directory : Location) : List String → Except LoadError (List Token)
  | [] => .ok []
  | name :: rest => do
    let tree ← readTokenFile t (directory.child name)
    let more ← loadFiles t directory rest
    return flatten tree ++ more

/-- The tokens of the trees directly in a directory. -/
def loadDirectory (t : FileTree) (directory : Location) : Except LoadError (List Token) :=
  loadFiles t directory (tokenFileNames t directory)

/-- The tokens of a tier. The primitives must be there; another tier that is missing is empty. -/
def loadTier (t : FileTree) (root : Location) (tier : Tier) : Loading (List Token) :=
  let directory := tierDirectory root tier
  if t.isDirectory directory then Traced.ofExcept (loadDirectory t directory)
  else if tier = .primitives then Traced.fail (.tierMissing directory)
  else do
    Traced.record (.tierMissing tier directory)
    return []

/-- The tokens of all tiers. -/
def loadTiers (t : FileTree) (root : Location) : Loading TokenSet := do
  let primitives ← loadTier t root .primitives
  let semantic ← loadTier t root .semantic
  let component ← loadTier t root .component
  return {
    layout := .threeTier
    primitives := primitives
    semantic := semantic
    component := component }

/-- The tokens of the legacy files, in order. -/
def loadLegacyFiles (t : FileTree) (root : Location) : List Legacy.File → Loading (List Token)
  | [] => pure []
  | file :: rest => do
    let data ← Traced.ofExcept (readTokenFile t (root.child file.name))
    (⟨(file.warnings data).map .warned, .ok ()⟩ : Loading Unit)
    let more ← loadLegacyFiles t root rest
    return file.tokens data ++ more

/-- The tokens of a source with a given layout. -/
def loadLayout (t : FileTree) (root : Location) : Layout → Loading TokenSet
  | .threeTier => loadTiers t root
  | .flatAlias => do
    let tokens ← Traced.ofExcept (loadDirectory t root)
    return { layout := .flatAlias, primitives := tokens }
  | .legacy => do
    let tokens ← loadLegacyFiles t root Legacy.files
    return { layout := .legacy, primitives := tokens }

/-- Loads a source with a given layout. -/
def loadTokens (t : FileTree) (root : Location) (layout : Layout) : Loading TokenSet := do
  let set ← loadLayout t root layout
  Traced.record (.tokensLoaded layout set.counts)
  return set

end DesignTokens
