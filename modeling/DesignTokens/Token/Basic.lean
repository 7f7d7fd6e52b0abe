import DesignTokens.Value.Basic

/-!
# Tokens

A token is one leaf of a tree of design decisions: the keys that lead to it, its value, a
tag for the kind of value, and the theme it belongs to.

* `TokenPath` is a chain of keys that is never empty.
* `TokenType` is the tag, `Mode` the theme, `Bucket` the theme or none.
* `ByBucket` holds one thing for each bucket.
* `Token` puts them together.
-/

namespace DesignTokens

/-- The tag of a token, which decides how its value is written. -/
inductive TokenType where
  | color
  | dimension
  | number
  | duration
  | cubicBezier
  | shadow
  | fontFamily
  | other
deriving DecidableEq, Repr

namespace TokenType

/-- The written form of a tag. -/
def text : TokenType → String
  | .color => "color"
  | .dimension => "dimension"
  | .number => "number"
  | .duration => "duration"
  | .cubicBezier => "cubicBezier"
  | .shadow => "shadow"
  | .fontFamily => "fontFamily"
  | .other => "other"

/-- All tags. -/
def all : List TokenType :=
  [.color, .dimension, .number, .duration, .cubicBezier, .shadow, .fontFamily, .other]

/-- The tag with a written form. -/
def ofText? (text : String) : Option TokenType :=
  all.find? (·.text = text)

/-- The tag that a `$type` entry stands for. A font weight is written like any number, and
whatever is not a known tag counts as `other`. -/
def ofValue : Value → TokenType
  | .str "fontWeight" => .number
  | .str text => (ofText? text).getD .other
  | _ => .other

end TokenType

/-- The theme of a token. -/
inductive Mode where
  | dark
  | light
deriving DecidableEq, Repr

namespace Mode

/-- The written form of a theme. -/
def text : Mode → String
  | .dark => "dark"
  | .light => "light"

/-- Both themes, in the order in which they are written. -/
def all : List Mode :=
  [.dark, .light]

/-- The theme with a written form. -/
def ofText? (text : String) : Option Mode :=
  all.find? (·.text = text)

theorem ofText?_eq_some_iff {text : String} {m : Mode} :
    ofText? text = some m ↔ text = m.text := by
  refine ⟨fun h => ?_, ?_⟩
  · have found := List.find?_some h
    exact (of_decide_eq_true found).symm
  · rintro rfl
    cases m <;> decide

end Mode

/-- Where a declaration goes: to all themes, or to one of them. -/
inductive Bucket where
  | root
  | dark
  | light
deriving DecidableEq, Repr

namespace Bucket

/-- The written form of a bucket. -/
def text : Bucket → String
  | .root => "root"
  | .dark => "dark"
  | .light => "light"

/-- All buckets, in the order in which they are written. -/
def all : List Bucket :=
  [.root, .dark, .light]

/-- The bucket with a written form. -/
def ofText? (text : String) : Option Bucket :=
  all.find? (·.text = text)

/-- A token without a theme is shared by both. -/
def ofMode : Option Mode → Bucket
  | none => .root
  | some .dark => .dark
  | some .light => .light

end Bucket

/-- One thing for each bucket. -/
structure ByBucket (α : Type) where
  root : α
  dark : α
  light : α
deriving DecidableEq, Repr

namespace ByBucket

variable {α β : Type}

/-- The thing for a bucket. -/
def get (x : ByBucket α) : Bucket → α
  | .root => x.root
  | .dark => x.dark
  | .light => x.light

/-- One thing for each bucket, computed from the bucket. -/
def of (f : Bucket → α) : ByBucket α :=
  ⟨f .root, f .dark, f .light⟩

/-- Changes the thing of each bucket. -/
def map (f : α → β) (x : ByBucket α) : ByBucket β :=
  of fun b => f (x.get b)

@[simp] theorem get_of (f : Bucket → α) (b : Bucket) : (of f).get b = f b := by
  cases b <;> rfl

@[simp] theorem get_map (f : α → β) (x : ByBucket α) (b : Bucket) :
    (x.map f).get b = f (x.get b) := by
  cases b <;> rfl

end ByBucket

/-- The keys that lead from the root of a tree to a token: at least one. -/
structure TokenPath where
  head : String
  tail : List String
deriving DecidableEq, Repr

namespace TokenPath

/-- All keys. -/
def segments (path : TokenPath) : List String :=
  path.head :: path.tail

/-- The path with the given keys, if there are any. -/
def ofSegments? : List String → Option TokenPath
  | [] => none
  | head :: tail => some ⟨head, tail⟩

/-- The name of a path in an alias: its keys, separated by points. -/
def dotted (path : TokenPath) : String :=
  ".".intercalate path.segments

theorem ofSegments?_segments (path : TokenPath) : ofSegments? path.segments = some path := rfl

end TokenPath

/-- A design token. -/
structure Token where
  path : TokenPath
  value : Value
  type : TokenType := .other
  mode : Option Mode := none
deriving DecidableEq, Repr

/-- The bucket of a token's declaration. -/
def Token.bucket (t : Token) : Bucket :=
  Bucket.ofMode t.mode

end DesignTokens
