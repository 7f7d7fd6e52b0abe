import DesignTokens.Text.Pieces

/-!
# Locations

A location names a file by the steps that lead to it. Steps that go nowhere (an empty one,
or a single point) are dropped when it is read; steps upwards are kept, because where they
lead depends on the directories that exist.

* `Location.ofString` reads a location.
* `Location.text` writes it: the empty relative location is a single point.
* `Location.child`, `Location.parent` and `Location.name` take it apart.
-/

namespace DesignTokens

/-- Where the steps of a location start. -/
inductive Anchor where
  | workingDirectory
  | root
  /-- a location that starts with exactly two slashes keeps them -/
  | doubleRoot
deriving DecidableEq, Repr

/-- A file name as a list of steps. -/
structure Location where
  anchor : Anchor
  steps : List String
deriving DecidableEq, Repr

namespace Location

/-- Where a written location starts. -/
def anchorOf : List Char → Anchor
  | '/' :: '/' :: '/' :: _ => .root
  | '/' :: '/' :: _ => .doubleRoot
  | '/' :: _ => .root
  | _ => .workingDirectory

/-- Reads a location. -/
def ofString (text : String) : Location :=
  { anchor := anchorOf text.toList
    steps :=
      ((Text.pieces '/' text.toList).map String.ofList).filter fun step => step ≠ "" ∧ step ≠ "." }

/-- Writes a location. -/
def text (l : Location) : String :=
  match l.anchor with
  | .workingDirectory => if l.steps = [] then "." else "/".intercalate l.steps
  | .root => "/" ++ "/".intercalate l.steps
  | .doubleRoot => "//" ++ "/".intercalate l.steps

/-- One step further. -/
def child (l : Location) (step : String) : Location :=
  { l with steps := l.steps ++ [step] }

/-- One step less; the empty location is its own parent. -/
def parent (l : Location) : Location :=
  { l with steps := l.steps.dropLast }

/-- The last step, or nothing. -/
def name (l : Location) : String :=
  l.steps.getLastD ""

@[simp] theorem parent_child (l : Location) (step : String) : (l.child step).parent = l := by
  simp [child, parent]

@[simp] theorem name_child (l : Location) (step : String) : (l.child step).name = step := by
  simp [child, name]

end Location

end DesignTokens
