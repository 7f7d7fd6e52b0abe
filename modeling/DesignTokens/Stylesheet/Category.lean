import DesignTokens.Token.Basic

/-!
# Categories

Tokens are sorted into sections by the first key of their path. Nine standard categories
claim certain keys; every other key has a section of its own, named after it, so that no
token is left out. A key that happens to be the label of a standard category joins that
section instead, so that each label stands once.

* `Category.standard` lists the standard categories in the order in which they are written.
* `Category.ofHead` is the category of a first key.
* `Category.groups` sorts tokens into categories.
-/

namespace DesignTokens

/-- What a category is about. -/
inductive CategoryKind where
  | color
  | dimension
  | typography
  | shadow
  | opacity
  | zIndex
  | motion
  /-- any key that no standard category claims -/
  | catchAll
deriving DecidableEq, Repr

/-- The written form of a kind. -/
def CategoryKind.text : CategoryKind → String
  | .color => "color"
  | .dimension => "dimension"
  | .typography => "typography"
  | .shadow => "shadow"
  | .opacity => "opacity"
  | .zIndex => "z_index"
  | .motion => "motion"
  | .catchAll => "catch_all"

/-- A labelled section and the first keys that it claims, in the order of their tokens. -/
structure Category where
  label : String
  kind : CategoryKind
  heads : List String
deriving DecidableEq, Repr

namespace Category

/-- The standard categories, in the order in which they are written. -/
def standard : List Category :=
  [⟨"colors", .color, ["color"]⟩,
   ⟨"sizing", .dimension, ["size", "space"]⟩,
   ⟨"typography", .typography, ["font", "line-height", "font-weight-composite"]⟩,
   ⟨"radii", .dimension, ["radius"]⟩,
   ⟨"shadows", .shadow, ["shadow", "blur"]⟩,
   ⟨"borders", .dimension, ["border"]⟩,
   ⟨"opacity", .opacity, ["opacity"]⟩,
   ⟨"z-index", .zIndex, ["z"]⟩,
   ⟨"transitions", .motion, ["duration", "easing"]⟩]

/-- The category of a key that no standard category claims. -/
def catchAll (head : String) : Category :=
  ⟨head, .catchAll, [head]⟩

/-- The category of a first key. -/
def ofHead (head : String) : Category :=
  (standard.find? fun c => c.heads.contains head).getD (catchAll head)

/-- Whether tokens with a first key stand in the section of a standard category: the category
claims the key, or has it as its label. -/
def holds (c : Category) (head : String) : Bool :=
  c.heads.contains head || c.label == head

/-- Whether no standard section takes a first key. -/
def isOther (head : String) : Bool :=
  !standard.any fun c => c.holds head

/-- The first keys that have sections of their own, in the order in which they are met. -/
def otherHeads (tokens : List Token) : List String :=
  ((tokens.map (·.path.head)).filter isOther).eraseDups

/-- The tokens of a category, in their order. -/
def members (c : Category) (tokens : List Token) : List Token :=
  tokens.filter fun t => c.holds t.path.head

/-- All categories that may have members: the standard ones, then the others. -/
def sectionsOf (tokens : List Token) : List Category :=
  standard ++ (otherHeads tokens).map catchAll

/-- The categories that have members, each with its members. -/
def groups (tokens : List Token) : List (Category × List Token) :=
  ((sectionsOf tokens).map fun c => (c, c.members tokens)).filter fun group => group.2 ≠ []

end Category

end DesignTokens
