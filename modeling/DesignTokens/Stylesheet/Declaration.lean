import DesignTokens.Token.Basic

/-!
# Declarations

A declaration gives a custom property its value. Declarations stand in labelled sections, by
bucket; a derivation pairs the colour of a declaration with its conversion.
-/

namespace DesignTokens

/-- One custom property and its value; the name is kept without its two leading dashes. -/
structure Declaration where
  name : String
  value : String
  /-- the label of the section that the declaration was made in -/
  sectionLabel : String := ""
  /-- a colour that cannot be converted -/
  unparseable : Bool := false
deriving DecidableEq, Repr

/-- The declaration as a line of a style sheet. -/
def Declaration.line (indent : Nat) (d : Declaration) : String :=
  String.ofList (List.replicate indent ' ') ++ "--" ++ d.name ++ ": " ++ d.value ++ ";"

/-- The colour of a declaration and its conversion. -/
structure Derivation where
  name : String
  source : String
  converted : String
  bucket : Bucket
deriving DecidableEq, Repr

/-- The declarations of a labelled section, by bucket. -/
structure LabelledSection where
  label : String
  declarations : ByBucket (List Declaration)
deriving DecidableEq, Repr

/-- What is written into a stylesheet: its sections, and the colours converted on the way. -/
structure Emission where
  sections : List LabelledSection
  derivations : List Derivation
deriving DecidableEq, Repr

/-- The declarations of a bucket, in the order of the sections. -/
def Emission.declarations (e : Emission) (b : Bucket) : List Declaration :=
  e.sections.flatMap fun s => s.declarations.get b

end DesignTokens
