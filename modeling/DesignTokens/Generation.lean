import DesignTokens.Alias.Tiers
import DesignTokens.Source.Load
import DesignTokens.Stylesheet.Assembly
import DesignTokens.Stylesheet.Emission

/-!
# Generating a stylesheet

The whole way from a directory of token files to the text of a stylesheet: the layout is
detected, the tokens are loaded, their aliases expanded, the declarations made and put
together. Nothing is written, and each stage leaves its record.

* `Options` says where the tokens are, where the stylesheet goes, and what it offers.
* `Stylesheet` is the text with the counts that go with it.
* `generate` is the way.
-/

namespace DesignTokens

/-- What to generate from what. -/
structure Options where
  tokensDir : Location := Location.ofString "tokens"
  outputFile : Location := Location.ofString "generated/tokens.css"
  /-- adds the converted colours -/
  oklch : Bool := false
  /-- adds the enhancements -/
  modernCss : Bool := false
deriving DecidableEq, Repr

/-- Counts of what was loaded and declared. -/
structure Stats where
  tierCounts : TierCounts
  shared : Nat
  dark : Nat
  light : Nat
  converted : Nat
deriving DecidableEq, Repr

/-- The number of properties that a page with one theme has: the shared ones and those of the
larger theme. -/
def Stats.total (s : Stats) : Nat :=
  s.shared + max s.dark s.light

/-- A generated stylesheet. -/
structure Stylesheet where
  layout : Layout
  css : String
  stats : Stats
deriving DecidableEq, Repr

/-- The counts of a token set and of what became of it. -/
def Stats.of (set : TokenSet) (e : Emission) : Stats :=
  { tierCounts := set.counts
    shared := (e.declarations .root).length
    dark := (e.declarations .dark).length
    light := (e.declarations .light).length
    converted := e.derivations.length }

/-- A run that may end with a stylesheet. -/
abbrev Run := Traced Event GenerationError

/-- Detects the layout and loads the tokens. -/
def loadSource (t : FileTree) (root : Location) : Loading TokenSet := do
  let layout ← Traced.ofExcept (detectLayout t root)
  Traced.record (.layoutDetected layout root)
  loadTokens t root layout

/-- Expands the aliases of a token set. -/
def resolveSet (set : TokenSet) : Run (List Token) := do
  let tokens ← (set.resolve.mapLog Event.warned).mapError fun cycle =>
    GenerationError.cycle cycle.chain
  if set.layout = .threeTier then Traced.record (.tiersResolved set.counts)
  return tokens

/-- Makes the declarations; colours are checked when something is made of them. -/
def emitTokens (o : Options) (tokens : List Token) : Run Emission := do
  let emission := Emission.ofTokens o.oklch tokens
  (⟨(colorWarnings (o.oklch || o.modernCss) tokens).map .warned, .ok ()⟩ : Run Unit)
  Traced.record (.sectionsEmitted emission.sections.length emission.derivations.length)
  return emission

/-- Generates a stylesheet. -/
def generate (t : FileTree) (o : Options) : Run Stylesheet := do
  let set ← (loadSource t o.tokensDir).mapError GenerationError.load
  let tokens ← resolveSet set
  let emission ← emitTokens o tokens
  return {
    layout := set.layout
    css := emission.css o.oklch o.modernCss
    stats := Stats.of set emission }

end DesignTokens
