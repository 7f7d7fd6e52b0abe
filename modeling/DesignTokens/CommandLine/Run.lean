import DesignTokens.CommandLine.Arguments
import DesignTokens.CommandLine.Report

/-!
# Running the command

The arguments and the files decide everything: what is printed, with which exit code the
program ends, and what becomes of the files.

* `Outcome` is what a run leaves behind.
* `run` is a run, on a console that shows no control sequences. Misused arguments end it with code
  2 and a failure with code 1. A failure that is not documented is not put into words; the outcome
  keeps it.
-/

namespace DesignTokens.CommandLine

/-- What a run leaves behind. -/
structure Outcome where
  exitCode : Nat
  output : String
  errors : String
  files : FileTree
  /-- the failure that ended the run without a report -/
  unreported : Option BuildError := none

/-- The version of the program. -/
def version : String := "0.1.0"

/-- The arguments that the program takes, on one line. -/
def usage : String :=
  "Usage: tokensmith [--version] generate [--tokens-dir DIR] [--output FILE] [--oklch] " ++
    "[--modern-css] [--verbose]\n"

/-- Ends each line with a line feed. -/
def printLines (lines : List String) : String :=
  String.join (lines.map fun line => line ++ "\n")

/-- The lines on which a failure is printed; only a documented one is put into words. `echo` is what
the console shows of a line. -/
def errorLines (echo : String → String) (e : BuildError) : List String :=
  match e.report? with
  | some report => [echo ("Error: " ++ report.text)]
  | none => []

/-- The failure itself if it has no report. -/
def unreported? (e : BuildError) : Option BuildError :=
  if e.report?.isSome then none else some e

/-- Builds, and prints how it went. -/
def runGenerate (echo : String → String) (env : Environment) (files : FileTree) (o : Options)
    (verbose : Bool) : Outcome :=
  let built := build env files o
  let log := if verbose then built.run.log.flatMap logLines else []
  match built.run.result with
  | .ok sheet =>
    { exitCode := 0
      output := printLines (reportLines o sheet (diagnostics built.run.log))
      errors := printLines log
      files := built.files }
  | .error e =>
    { exitCode := 1
      output := ""
      errors := printLines (log ++ errorLines echo e)
      files := built.files
      unreported := unreported? e }

/-- Runs the program. -/
def run (env : Options → Environment) (files : FileTree) (arguments : List String) : Outcome :=
  match parse arguments with
  | none => { exitCode := 2, output := "", errors := usage, files := files }
  | some .version =>
    { exitCode := 0, output := "tokensmith " ++ version ++ "\n", errors := "", files := files }
  | some .help => { exitCode := 0, output := usage, errors := "", files := files }
  | some (.generate o verbose) =>
    runGenerate Console.withoutSequences (env o) files o verbose

end DesignTokens.CommandLine
