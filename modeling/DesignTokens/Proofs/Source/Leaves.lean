import DesignTokens.Proofs.Json.DistinctKeys
import DesignTokens.Proofs.Source.Ways
import Mathlib.Data.List.Forall2

/-!
# The leaves of a tree of tokens

A tree of tokens is walked with a type and a group of keys in hand. Here what a token is made of is
read off the way that leads to it: the keys, the last object, and the nearest type from there back
to the root.

* `Way.IsLeaf` — the object of a way has a `$value`, none that is passed has one, and no key is a
  meta key.
* `leaves` — the ways of a tree that lead to such objects, `Way.Describes` — what the token of a way
  is.
* `flatten_collects_leaves` — the tokens of a tree are those of its leaves, in order. If keys are
  distinct, as they are in a tree that is read, no path of a token continues that of another.
-/

namespace DesignTokens

namespace Way

/-- All objects of a way, from the root to the last. -/
def nodes (tree : Fields) (way : Way) : List Fields :=
  tree :: way.passed.map Prod.snd ++ [way.node]

/-- A way to a token: its object has a value, nothing that is passed has one, and no key says
something about the object around it. -/
def IsLeaf (way : Way) : Prop :=
  (∀ key ∈ way.keys, isMetaKey key = false) ∧
    (Value.field? way.node "$value").isSome ∧
    ∀ step ∈ way.passed, Value.field? step.2 "$value" = none

instance : DecidablePred IsLeaf := fun _ =>
  inferInstanceAs (Decidable (_ ∧ _))

end Way

/-- The type that counts for the last of some objects: that of the nearest one which has an entry
for it, whatever it is. -/
def nearestType (nodes : List Fields) : TokenType :=
  match nodes.reverse.findSome? (Value.field? · "$type") with
  | some entry => TokenType.ofValue entry
  | none => .other

/-- The ways to the tokens of a tree, in the order of the tree. -/
def leaves (tree : Fields) : List Way :=
  (ways tree).filter (·.IsLeaf)

theorem mem_leaves_iff {tree : Fields} {way : Way} :
    way ∈ leaves tree ↔ Leads tree way ∧ way.IsLeaf := by
  rw [leaves, List.mem_filter, mem_ways_iff_leads, decide_eq_true_iff]

/-- What the token of a way is. -/
structure Way.Describes (tree : Fields) (way : Way) (t : Token) : Prop where
  path : t.path.segments = way.keys
  value : Value.field? way.node "$value" = some t.value
  type : t.type = nearestType (way.nodes tree)
  mode : ∀ m, t.mode = some m ↔ ∃ extensions,
    Value.field? way.node "$extensions" = some (.object extensions) ∧
      Value.field? extensions "mode" = some (.str m.text)

/-! ### The tokens of a tree -/

namespace Way

/-- The token of a way, for a type and a group of keys from above. -/
def token (type : Value) (group : List String) (way : Way) : Token where
  path := TokenPath.under (group ++ way.passed.map Prod.fst) way.key
  value := (Value.field? way.node "$value").getD .null
  type := TokenType.ofValue (((way.passed.map Prod.snd) ++ [way.node]).foldl typeEntry type)
  mode := modeOf way.node

theorem token_through (type : Value) (group : List String) (key : String) (node : Fields)
    (way : Way) : (way.through key node).token type group =
      way.token (typeEntry type node) (group ++ [key]) := by
  simp only [token, through, List.map_cons, List.cons_append, List.foldl_cons, List.append_assoc,
    List.nil_append]

theorem isLeaf_last_iff {key : String} {node : Fields} :
    IsLeaf ⟨[], key, node⟩ ↔ isMetaKey key = false ∧ (Value.field? node "$value").isSome := by
  simp [IsLeaf, keys]

theorem isLeaf_through_iff {key : String} {node : Fields} {way : Way} :
    (way.through key node).IsLeaf ↔
      isMetaKey key = false ∧ Value.field? node "$value" = none ∧ way.IsLeaf := by
  rw [IsLeaf, keys_through, List.forall_mem_cons, through, List.forall_mem_cons, IsLeaf]
  tauto

/-- Nothing below a meta key is a token. -/
theorem not_isLeaf_of_isMetaKey {key : String} {value : Value} {way : Way}
    (isMeta : isMetaKey key) (h : way ∈ waysInto key value) : ¬ way.IsLeaf := by
  obtain ⟨node, rfl, rfl | ⟨next, -, rfl⟩⟩ := mem_waysInto_iff.1 h
  · simp [isLeaf_last_iff, isMeta]
  · simp [isLeaf_through_iff, isMeta]

/-- A token hides the leaves below it. -/
theorem filter_through_of_value {key : String} {node : Fields} {value : Value}
    (token : Value.field? node "$value" = some value) (l : List Way) :
    (l.map (through key node)).filter (·.IsLeaf) = [] := by
  rw [List.filter_eq_nil_iff, List.forall_mem_map]
  intro way _
  simp [isLeaf_through_iff, token]

/-- A group passes on the leaves below it. -/
theorem filter_through_of_group {key : String} {node : Fields} (plain : isMetaKey key = false)
    (group : Value.field? node "$value" = none) (l : List Way) :
    (l.map (through key node)).filter (·.IsLeaf) =
      (l.filter (·.IsLeaf)).map (through key node) := by
  rw [List.filter_map]
  congr 2
  funext way
  simp [isLeaf_through_iff, group, plain]

end Way

theorem flattenFields_eq_flatMap (type : Value) (group : List String) (fields : Fields) :
    flattenFields type group fields = fields.flatMap fun field =>
      if isMetaKey field.1 then [] else flattenNode type group field.1 field.2 := by
  induction fields with
  | nil => rfl
  | cons field rest ih => rw [flattenFields, ih, List.flatMap_cons]

/-- A node gives the tokens of the leaves that the ways into it lead to, if it does so where it is a
group. -/
theorem flattenNode_eq_map {type value : Value} {group : List String} {key : String}
    (plain : isMetaKey key = false)
    (below : ∀ node, value = .object node →
      flattenFields (typeEntry type node) (group ++ [key]) node =
        ((ways node).filter (·.IsLeaf)).map (Way.token (typeEntry type node) (group ++ [key]))) :
    flattenNode type group key value =
      ((waysInto key value).filter (·.IsLeaf)).map (Way.token type group) := by
  cases value with
  | object node =>
    rw [flattenNode, waysInto, List.filter_cons]
    cases hvalue : Value.field? node "$value" with
    | some value =>
      have isLeaf : Way.IsLeaf ⟨[], key, node⟩ := Way.isLeaf_last_iff.2 ⟨plain, by simp [hvalue]⟩
      rw [if_pos (decide_eq_true isLeaf), Way.filter_through_of_value hvalue]
      simp [Way.token, hvalue]
    | none =>
      have noLeaf : ¬ Way.IsLeaf ⟨[], key, node⟩ := by simp [Way.isLeaf_last_iff, hvalue]
      rw [if_neg (by simpa using noLeaf), Way.filter_through_of_group plain hvalue, List.map_map]
      -- what the walk carries downwards is what the way holds in front
      exact (below node rfl).trans (List.map_congr_left fun way _ => (Way.token_through ..).symm)
  | null | bool | int | float | str | list => rfl

/-- **The tokens below an object** are those of the leaves below it, for the type and the group of
keys that hold there. -/
theorem flattenFields_eq_map (type : Value) (group : List String) (fields : Fields) :
    flattenFields type group fields =
      ((ways fields).filter (·.IsLeaf)).map (Way.token type group) := by
  induction fields using treeInduction generalizing type group with
  | step fields ih =>
    rw [flattenFields_eq_flatMap, ways_eq_flatMap, List.filter_flatMap, List.map_flatMap]
    refine List.flatMap_congr fun field hfield => ?_
    obtain ⟨key, value⟩ := field
    split
    next isMeta =>
      -- the walk does not enter, and there is no leaf
      have nowhere : (waysInto key value).filter (·.IsLeaf) = [] := by
        rw [List.filter_eq_nil_iff]
        intro way hway
        simpa using Way.not_isLeaf_of_isMetaKey isMeta hway
      rw [nowhere, List.map_nil]
    next plain =>
      refine flattenNode_eq_map (by simpa using plain) ?_
      rintro node rfl
      exact ih key node hfield _ _

/-- The tokens of a tree are those of its leaves. -/
theorem flatten_eq_map (tree : Fields) :
    flatten tree = (leaves tree).map (Way.token (typeEntry .null tree) []) :=
  flattenFields_eq_map (typeEntry .null tree) [] tree

/-- The type that the walk carries is that of the nearest object with an entry for it. -/
theorem foldl_typeEntry (nodes : List Fields) (type : Value) :
    nodes.foldl typeEntry type = (nodes.reverse.findSome? (Value.field? · "$type")).getD type := by
  -- the nearest object is the last
  induction nodes using List.reverseRecOn with
  | nil => rfl
  | append_singleton nodes node ih =>
    rw [List.foldl_concat, ih, List.reverse_concat, List.findSome?_cons, typeEntry]
    cases Value.field? node "$type" <;> rfl

theorem nearestType_eq (nodes : List Fields) :
    nearestType nodes = TokenType.ofValue (nodes.foldl typeEntry .null) := by
  rw [foldl_typeEntry, nearestType]
  cases nodes.reverse.findSome? (Value.field? · "$type") <;> rfl

theorem Way.IsLeaf.describes {tree : Fields} {way : Way} (isLeaf : way.IsLeaf) :
    way.Describes tree (way.token (typeEntry .null tree) []) where
  path := by rw [token, TokenPath.segments_under, List.nil_append, keys]
  value := by
    obtain ⟨value, hvalue⟩ := Option.isSome_iff_exists.1 isLeaf.2.1
    rw [token, hvalue]
    rfl
  type := by
    rw [nearestType_eq]
    rfl
  mode _ := modeOf_eq_some_iff

/-! ### Paths -/

/-- **No path of a token continues that of another.** -/
theorem DistinctKeys.pairwise_flatten {tree : Fields} (distinct : DistinctKeys tree) :
    (flatten tree).Pairwise fun s t =>
      ¬ s.path.segments <+: t.path.segments ∧ ¬ t.path.segments <+: s.path.segments := by
  rw [flatten_eq_map, List.pairwise_map]
  have inOrder : (leaves tree).Pairwise Way.Precedes := distinct.pairwise.filter _
  refine inOrder.imp_of_mem fun {v w} hv hw precedes => ?_
  have leafV : v.IsLeaf := (mem_leaves_iff.1 hv).2
  have leafW : w.IsLeaf := (mem_leaves_iff.1 hw).2
  rw [leafV.describes.path, leafW.describes.path]
  -- the later path could only continue the earlier one through an object with a value
  refine ⟨fun continues => ?_, precedes.1⟩
  have unvalued := leafW.2.2 _ (precedes.2 continues)
  have valued := leafV.2.1
  rw [unvalued] at valued
  cases valued

/-- The paths of the tokens of one file do not continue each other. -/
theorem pairwise_flatten_of_readTokenFile {t : FileTree} {file : Location} {tree : Fields}
    (h : readTokenFile t file = .ok tree) : (flatten tree).Pairwise fun s t =>
      ¬ s.path.segments <+: t.path.segments ∧ ¬ t.path.segments <+: s.path.segments :=
  (distinctKeys_of_readTokenFile h).pairwise_flatten

/-- **The tokens of a tree are those of its leaves**, one for each and in their order. The leaves
are the ways that can be gone to an object with a value, past none with a value and by no meta key.
If no object has a key twice, no path of a token continues that of another. -/
theorem flatten_collects_leaves (tree : Fields) :
    List.Forall₂ (Way.Describes tree) (leaves tree) (flatten tree) ∧
    (∀ way, way ∈ leaves tree ↔ Leads tree way ∧ way.IsLeaf) ∧
    (DistinctKeys tree → (flatten tree).Pairwise fun s t =>
      ¬ s.path.segments <+: t.path.segments ∧ ¬ t.path.segments <+: s.path.segments) := by
  refine ⟨?_, fun _ => mem_leaves_iff, DistinctKeys.pairwise_flatten⟩
  rw [flatten_eq_map, List.forall₂_map_right_iff, List.forall₂_same]
  intro way hway
  exact (mem_leaves_iff.1 hway).2.describes

/-- A value at the root is no token, a token hides what is below it, and an entry for a type counts
even if it is null. -/
theorem space_tree_has_three_leaves :
    let leaf : Value := .object [("$value", .int 1)]
    let ratio : Value := .object [("$type", .null), ("$value", .int 2),
      ("$extensions", .object [("mode", .str "dark")])]
    let tree : Fields :=
      [("$value", .int 0), ("$type", .str "color"),
        ("space", .object [("$type", .str "dimension"), ("$hidden", .object [("x", leaf)]),
          ("small", .object [("$value", .int 4), ("inner", leaf)]), ("ratio", ratio)]),
        ("listed", .list [leaf]), ("ink", leaf)]
    DistinctKeys tree ∧
    flatten tree =
      [{ path := ⟨"space", ["small"]⟩, value := .int 4, type := .dimension },
        { path := ⟨"space", ["ratio"]⟩, value := .int 2, mode := some .dark },
        { path := ⟨"ink", []⟩, value := .int 1, type := .color }] ∧
    (flatten tree).Pairwise fun s t =>
      ¬ s.path.segments <+: t.path.segments ∧ ¬ t.path.segments <+: s.path.segments := by
  intro leaf ratio tree
  have distinct : DistinctKeys tree := by decide +kernel
  exact ⟨distinct, by decide +kernel, (flatten_collects_leaves tree).2.2 distinct⟩

end DesignTokens
