import DesignTokens.FileTree.Replace
import DesignTokens.Json.SyntaxError
import DesignTokens.Value.Basic

/-!
# Failures

Why a stylesheet cannot be generated or written, and how that is said.

* `ErrorContext` and `ErrorReport`: a message, led by the file it is about.
* `LoadError`: the files of the source are missing or malformed.
* `GenerationError` adds aliases that lead back to themselves, `BuildError` the failures of
  writing.
* `GenerationError.report?` is the report of a documented failure. A file that is not text is
  none: it has no report.
-/

namespace DesignTokens

/-- The file that an error is about, with the path of a token in it if that is known. -/
structure ErrorContext where
  file : Location
  path : String := ""
deriving DecidableEq, Repr

/-- The file, with the path in brackets after it. -/
def ErrorContext.text (c : ErrorContext) : String :=
  if c.path = "" then c.file.text else c.file.text ++ " (" ++ c.path ++ ")"

/-- An error in words. -/
structure ErrorReport where
  message : String
  context : Option ErrorContext := none
deriving DecidableEq, Repr

/-- The message, on a line of its own after the context. -/
def ErrorReport.text (r : ErrorReport) : String :=
  match r.context with
  | some c => c.text ++ "\n" ++ r.message
  | none => r.message

/-- The three kinds of documented failures. -/
inductive FailureKind where
  | missingInput
  | malformedInput
  | cyclicReference
deriving DecidableEq, Repr

/-- Why the tokens of a source cannot be loaded. -/
inductive LoadError where
  | rootMissing (root : Location)
  | fileMissing (file : Location)
  | tierMissing (directory : Location)
  | notText (file : Location)
  | malformed (file : Location) (error : Json.SyntaxError)
  | notAnObject (file : Location) (found : Value)
deriving DecidableEq, Repr

/-- How a value that is not an object is named in a report. -/
def Value.kindText : Value → String
  | .null => "NoneType"
  | .bool _ => "bool"
  | .int _ => "int"
  | .float _ => "float"
  | .str _ => "str"
  | .list _ => "list"
  | .object _ => "dict"

/-- The path that a reference leads back to closes the chain. -/
def cycleMessage (chain : List String) : String :=
  "Cyclic token reference: " ++ " -> ".intercalate chain

/-- Why no stylesheet is generated. -/
inductive GenerationError where
  | load (error : LoadError)
  | cycle (chain : List String)
deriving DecidableEq, Repr

namespace LoadError

/-- The kind of a documented failure. -/
def kind? : LoadError → Option FailureKind
  | .rootMissing _ | .fileMissing _ | .tierMissing _ => some .missingInput
  | .malformed .. | .notAnObject .. => some .malformedInput
  | .notText _ => none

/-- The report of a documented failure. -/
def report? : LoadError → Option ErrorReport
  | .rootMissing root =>
    some { message := "Token directory not found: " ++ root.text, context := some { file := root } }
  | .fileMissing file =>
    some { message := "Token file not found: " ++ file.text, context := some { file := file } }
  | .tierMissing directory =>
    some
      { message := "Primitives tier not found: " ++ directory.text
        context := some { file := directory } }
  | .malformed file error =>
    some { message := "Invalid JSON: " ++ error.message, context := some { file := file } }
  | .notAnObject file found =>
    some
      { message := "Expected a JSON object at the top level, got " ++ found.kindText
        context := some { file := file } }
  | .notText _ => none

/-- Exactly the failures of a kind have a report. -/
theorem isSome_report? (e : LoadError) : e.report?.isSome = e.kind?.isSome := by
  cases e <;> rfl

end LoadError

namespace GenerationError

/-- The kind of a documented failure. -/
def kind? : GenerationError → Option FailureKind
  | .load error => error.kind?
  | .cycle _ => some .cyclicReference

/-- The report of a documented failure. -/
def report? : GenerationError → Option ErrorReport
  | .load error => error.report?
  | .cycle chain => some { message := cycleMessage chain }

end GenerationError

/-- Why no stylesheet is written. -/
inductive BuildError where
  | generation (error : GenerationError)
  | write (error : FileError)
deriving DecidableEq, Repr

/-- The report of a documented failure; a failure of the file system has none. -/
def BuildError.report? : BuildError → Option ErrorReport
  | .generation error => error.report?
  | .write _ => none

end DesignTokens
