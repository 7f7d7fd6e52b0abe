import DesignTokens.Generation

/-!
# Building

Building generates a stylesheet and writes it. Every failure of the generation comes before
anything is written, and the writing replaces the file in one step, so a failed build leaves
every file as it was.
-/

namespace DesignTokens

/-- What a build leaves behind: its records and its result, and the files. -/
structure BuildOutcome where
  run : Traced Event BuildError Stylesheet
  files : FileTree

/-- The records of a stylesheet that was written. -/
def writtenEvents (o : Options) (sheet : Stylesheet) (warnings : Nat) : List Event :=
  [.stylesheetWritten o.outputFile,
   .propertiesCounted sheet.stats.shared sheet.stats.dark sheet.stats.light sheet.stats.total] ++
    if warnings = 0 then [] else [.warningsCounted warnings]

/-- Generates a stylesheet and writes it. -/
def build (env : Environment) (t : FileTree) (o : Options) : BuildOutcome :=
  let generated := generate t o
  match generated.result with
  -- nothing was touched yet
  | .error e => ⟨⟨generated.log, .error (.generation e)⟩, t⟩
  | .ok sheet =>
    match replaceFile env o.outputFile sheet.css.toUTF8 t with
    | .error e files => ⟨⟨generated.log, .error (.write e)⟩, files⟩
    | .ok _ files =>
      let warnings := (diagnostics generated.log).length
      ⟨⟨generated.log ++ writtenEvents o sheet warnings, .ok sheet⟩, files⟩

end DesignTokens
