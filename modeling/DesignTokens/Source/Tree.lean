import DesignTokens.Token.Basic

/-!
# Trees of tokens

A tree of tokens is an object of objects. An object with a `$value` is a token; any other is
a group of what is below it. Keys that start with a dollar sign say something about the
object that they are in: its type, which counts for everything below that has no type of its
own, and its theme.

* `flatten` collects the tokens of a tree in the order in which they are written.
-/

namespace DesignTokens

namespace TokenPath

/-- The path of a key under the keys of a group, which are none at the root. -/
def under (group : List String) (key : String) : TokenPath :=
  match group with
  | [] => ⟨key, []⟩
  | head :: tail => ⟨head, tail ++ [key]⟩

theorem segments_under (group : List String) (key : String) :
    (under group key).segments = group ++ [key] := by
  cases group <;> rfl

end TokenPath

/-- Whether a key says something about its object. -/
def isMetaKey (key : String) : Bool :=
  key.toList.head? == some '$'

/-- The theme that an object names among its extensions. -/
def modeOf (node : Fields) : Option Mode :=
  match Value.field? node "$extensions" with
  | some (.object extensions) =>
    match Value.field? extensions "mode" with
    | some (.str name) => Mode.ofText? name
    | _ => none
  | _ => none

theorem modeOf_eq_some_iff {node : Fields} {m : Mode} : modeOf node = some m ↔ ∃ extensions,
    Value.field? node "$extensions" = some (.object extensions) ∧
      Value.field? extensions "mode" = some (.str m.text) := by
  constructor
  · intro h
    unfold modeOf at h
    split at h
    next extensions found =>
      split at h
      next name named => exact ⟨extensions, found, Mode.ofText?_eq_some_iff.1 h ▸ named⟩
      next => cases h
    next => cases h
  · rintro ⟨extensions, found, named⟩
    simp only [modeOf, found, named]
    exact Mode.ofText?_eq_some_iff.2 rfl

/-- The type entry that counts in an object: its own, or else that of the group around it. -/
def typeEntry (inherited : Value) (node : Fields) : Value :=
  (Value.field? node "$type").getD inherited

mutual

/-- The tokens below the fields of a group. -/
def flattenFields (type : Value) (group : List String) : Fields → List Token
  | [] => []
  | (key, node) :: rest =>
    (if isMetaKey key then [] else flattenNode type group key node) ++
      flattenFields type group rest

/-- The token that a node is, or the tokens below it. -/
def flattenNode (type : Value) (group : List String) (key : String) : Value → List Token
  | .object node =>
    match Value.field? node "$value" with
    -- what else the object holds is not looked at: a token has no tokens below it
    | some value =>
      [{ path := TokenPath.under group key
         value := value
         type := TokenType.ofValue (typeEntry type node)
         mode := modeOf node }]
    | none => flattenFields (typeEntry type node) (group ++ [key]) node
  | _ => []

end

/-- The tokens of a tree. -/
def flatten (tree : Fields) : List Token :=
  flattenFields (typeEntry .null tree) [] tree

end DesignTokens
