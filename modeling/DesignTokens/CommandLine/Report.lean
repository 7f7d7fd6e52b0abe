import DesignTokens.Build
import DesignTokens.CommandLine.Console

/-!
# What the command prints

A successful build is reported on the output: the layout, the options, the warnings, the file
and the counts. Asked to be verbose, the command also prints each record of the run, with its
level and the part of the program that made it, where errors go.

* `reportLines` is the report.
* `logLine` is the line of a record.
-/

namespace DesignTokens.CommandLine

/-- A number in decimal digits. -/
def number (n : Nat) : String :=
  String.ofList (Decimal.natText n)

/-- The counts of the tiers. -/
def tiersText (c : TierCounts) : String :=
  number c.primitives ++ " primitives, " ++ number c.semantic ++ " semantic, " ++
    number c.component ++ " component"

/-- The line of a warning. -/
def warningLine (d : Diagnostic) : String :=
  "  Warning: " ++ Console.shown 11 d.text

/-- The report of a build. -/
def reportLines (o : Options) (sheet : Stylesheet) (warnings : List Diagnostic) : List String :=
  ["  Format: " ++ sheet.layout.text] ++
    (if o.oklch then ["  OKLCH:  enabled"] else []) ++
    (if o.modernCss then ["  Modern: enabled"] else []) ++
    (if sheet.layout = .threeTier then ["  Tiers: " ++ tiersText sheet.stats.tierCounts] else []) ++
    warnings.map warningLine ++
    ["Generated " ++ Console.shown 10 o.outputFile.text,
     "  :root    " ++ number sheet.stats.shared ++ " shared vars",
     "  .dark    " ++ number sheet.stats.dark ++ " themed vars",
     "  .light   " ++ number sheet.stats.light ++ " themed vars",
     "  Total    " ++ number sheet.stats.total ++ " unique custom properties"] ++
    (if o.oklch then ["  OKLCH    " ++ number sheet.stats.converted ++ " converted colors"] else [])

/-- The counts of the tiers by their names. -/
def countsText (c : TierCounts) : String :=
  "\x7b'primitives': " ++ number c.primitives ++ ", 'semantic': " ++ number c.semantic ++
    ", 'component': " ++ number c.component ++ "\x7d"

/-- The lines of a record. -/
def logLines : Event → List String
  | .layoutDetected layout root =>
    ["DEBUG tokensmith.core.format_detect: Detected " ++ layout.text ++ " token layout in " ++
        root.text,
     "INFO tokensmith.core.pipeline: Token format: " ++ layout.text]
  | .tierMissing tier directory =>
    ["DEBUG tokensmith.core.token_loader: No " ++ tier.text ++ " tier at " ++ directory.text ++
        ", treating as empty"]
  | .tokensLoaded layout counts =>
    ["DEBUG tokensmith.core.token_loader: Loaded " ++ layout.text ++ " tokens: " ++
        countsText counts]
  | .warned d => ["WARNING tokensmith.core.diagnostics: " ++ d.text]
  | .tiersResolved counts =>
    ["DEBUG tokensmith.core.references: Resolved tiers: " ++ tiersText counts]
  | .sectionsEmitted sections derivations =>
    ["DEBUG tokensmith.core.css_emitter: Emitted " ++ number sections ++ " sections, " ++
        number derivations ++ " OKLCH colors"]
  | .stylesheetWritten output => ["INFO tokensmith.core.pipeline: Generated " ++ output.text]
  | .propertiesCounted shared dark light total =>
    ["INFO tokensmith.core.pipeline: " ++ number shared ++ " shared, " ++ number dark ++
        " dark, " ++ number light ++ " light (" ++ number total ++
        " unique custom properties)"]
  | .warningsCounted count => ["INFO tokensmith.core.pipeline: " ++ number count ++ " warnings"]

end DesignTokens.CommandLine
