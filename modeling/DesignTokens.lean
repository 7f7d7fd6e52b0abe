import DesignTokens.Main
import DesignTokens.Proofs.Build
import DesignTokens.Proofs.Failures
import DesignTokens.Proofs.Generation
import DesignTokens.Proofs.LegacyNames
import DesignTokens.Proofs.Options
import DesignTokens.Proofs.PropertyCount
import DesignTokens.Proofs.Rebuild
import DesignTokens.Proofs.RepeatedTokens
import DesignTokens.Proofs.TokenOrder
import DesignTokens.Proofs.Alias.Composition
import DesignTokens.Proofs.Alias.Cycles
import DesignTokens.Proofs.Alias.FirstCycle
import DesignTokens.Proofs.Alias.Independence
import DesignTokens.Proofs.Alias.Reports
import DesignTokens.Proofs.Alias.Unwarned
import DesignTokens.Proofs.Color.Agreement
import DesignTokens.Proofs.Color.HexNotation
import DesignTokens.Proofs.Color.OklchText
import DesignTokens.Proofs.Decimal.TrailingZeros
import DesignTokens.Proofs.FileTree.Replacement
import DesignTokens.Proofs.Source.Leaves
import DesignTokens.Proofs.Stylesheet.Cascade
import DesignTokens.Proofs.Stylesheet.Colours
import DesignTokens.Proofs.Stylesheet.DeclarationLines
import DesignTokens.Proofs.Stylesheet.DerivedStates
import DesignTokens.Proofs.Stylesheet.Nesting
import DesignTokens.Proofs.Stylesheet.PropertyRules
import DesignTokens.Proofs.Stylesheet.Sections
import DesignTokens.Proofs.Stylesheet.ThemePairs
import DesignTokens.Proofs.Stylesheet.Typography
