/-!
# Diagnostics

What a run warns about without failing: a reference to a path that no scope defines, and a
colour that is in neither notation that can be converted.
-/

namespace DesignTokens

/-- A warning. -/
inductive Diagnostic where
  /-- An alias names a path that is not defined. The context says where it is written; an empty
  one is not mentioned. -/
  | unresolvedReference (ref context : String)
  /-- The value of a colour property is neither a hex colour nor an `oklch()` one. -/
  | unparseableColor (property value : String)
deriving DecidableEq, Repr

namespace Diagnostic

/-- The kind of a warning. -/
inductive Kind where
  | unresolvedReference
  | unparseableColor
deriving DecidableEq, Repr

/-- The written form of a kind. -/
def Kind.text : Kind → String
  | .unresolvedReference => "unresolved-reference"
  | .unparseableColor => "unparseable-color"

/-- The kind of a warning. -/
def kind : Diagnostic → Kind
  | .unresolvedReference .. => .unresolvedReference
  | .unparseableColor .. => .unparseableColor

/-- What a warning is about: the path that is not defined, or the property. -/
def subject : Diagnostic → String
  | .unresolvedReference ref _ => ref
  | .unparseableColor property _ => property

/-- The warning in words. -/
def message : Diagnostic → String
  | .unresolvedReference ref context =>
    "unresolved reference \x7b" ++ ref ++ "\x7d" ++
      (if context = "" then "" else " in " ++ context)
  | .unparseableColor _ value => "'" ++ value ++ "' is neither a hex color nor oklch()"

/-- The warning as one text. -/
def text (d : Diagnostic) : String :=
  d.kind.text ++ ": " ++ d.subject ++ ": " ++ d.message

/-- The subjects of the warnings of one kind, in the order of the warnings. -/
def subjectsOfKind (kind : Kind) (diagnostics : List Diagnostic) : List String :=
  (diagnostics.filter (·.kind = kind)).map subject

end Diagnostic

end DesignTokens
