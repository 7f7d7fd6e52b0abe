import DesignTokens.Proofs.Alias.References
import DesignTokens.Source.Tree
import Mathlib.Data.List.Infix
import Mathlib.Data.List.Pairwise

/-!
# The ways of a tree

A tree of tokens is an object of objects, and every object in it is reached by some keys. Here the
objects are listed as a walk through the tree opens them, each with the way that leads to it.

* `Way` — a way from the root of a tree to an object, `ways` — the ways of a tree in the order in
  which their objects are opened. These are the ways that can be gone (`mem_ways_iff_leads`).
* `treeInduction` — induction over the objects in a tree.
* `DistinctKeys` — no object of a tree has a key twice.
* `DistinctKeys.pairwise` — if so, the keys of a way do not continue those of a later one, and they
  are continued only if the object of the earlier way is passed (`Way.Precedes`).
-/

namespace DesignTokens

/-- A way from the root of a tree to an object: what is passed, the last key and the object. -/
structure Way where
  /-- The keys that come before the last, with the objects that they lead to. -/
  passed : List (String × Fields)
  key : String
  node : Fields

namespace Way

/-- The way that goes into an object first. -/
def through (key : String) (node : Fields) (way : Way) : Way :=
  { way with passed := (key, node) :: way.passed }

/-- All keys of a way. -/
def keys (way : Way) : List String :=
  way.passed.map Prod.fst ++ [way.key]

@[simp] theorem keys_through (key : String) (node : Fields) (way : Way) :
    (way.through key node).keys = key :: way.keys := rfl

theorem keys_ne_nil (way : Way) : way.keys ≠ [] :=
  List.append_ne_nil_of_right_ne_nil _ (List.cons_ne_nil _ _)

end Way

mutual

/-- The ways to the objects below the fields of an object: an object comes before those in it. -/
def ways : Fields → List Way
  | [] => []
  | (key, value) :: rest => waysInto key value ++ ways rest

/-- The ways that begin with a given key. -/
def waysInto (key : String) : Value → List Way
  | .object node => ⟨[], key, node⟩ :: (ways node).map (Way.through key node)
  | _ => []

end

/-- A way can be gone in a tree: every key leads to an object, the first from the root. -/
inductive Leads : Fields → Way → Prop
  | last {tree : Fields} {key : String} {node : Fields} (entry : (key, .object node) ∈ tree) :
      Leads tree ⟨[], key, node⟩
  | through {tree : Fields} {key : String} {node : Fields} {way : Way}
      (entry : (key, .object node) ∈ tree) (onwards : Leads node way) :
      Leads tree (way.through key node)

/-- No object of a tree has a key twice. -/
def DistinctKeys (tree : Fields) : Prop :=
  (tree.map Prod.fst).Nodup ∧ ∀ way ∈ ways tree, (way.node.map Prod.fst).Nodup

instance (tree : Fields) : Decidable (DistinctKeys tree) :=
  inferInstanceAs (Decidable (_ ∧ _))

/-! ### The ways of a tree -/

/-- **Induction over a tree.** What is shown of a tree may be used of the objects in it. -/
@[elab_as_elim]
theorem treeInduction {motive : Fields → Prop}
    (step : ∀ tree : Fields, (∀ key node, (key, .object node) ∈ tree → motive node) → motive tree)
    (tree : Fields) : motive tree := by
  have ofValue : ∀ value : Value, ∀ tree, value = .object tree → motive tree := by
    intro value
    induction value using Value.fieldInduction with
    | object fields ih =>
      rintro tree ⟨rfl⟩
      exact step fields fun key node entry => ih (key, .object node) entry node rfl
    | null | bool | int | float | str | list => exact fun _ h => nomatch h
  exact ofValue (.object tree) tree rfl

theorem ways_eq_flatMap (fields : Fields) :
    ways fields = fields.flatMap fun field => waysInto field.1 field.2 := by
  induction fields with
  | nil => rfl
  | cons field rest ih => rw [ways, ih, List.flatMap_cons]

theorem mem_waysInto_iff {key : String} {value : Value} {way : Way} :
    way ∈ waysInto key value ↔ ∃ node, value = .object node ∧
      (way = ⟨[], key, node⟩ ∨ ∃ next ∈ ways node, way = next.through key node) := by
  cases value with
  | object node => simp [waysInto, eq_comm]
  | null | bool | int | float | str | list => simp [waysInto]

/-- A way leads to an object in one of the fields, or on from there. -/
theorem mem_ways_iff {tree : Fields} {way : Way} : way ∈ ways tree ↔
    ∃ key node, (key, .object node) ∈ tree ∧
      (way = ⟨[], key, node⟩ ∨ ∃ next ∈ ways node, way = next.through key node) := by
  rw [ways_eq_flatMap, List.mem_flatMap]
  constructor
  · rintro ⟨⟨key, value⟩, entry, h⟩
    obtain ⟨node, rfl, h⟩ := mem_waysInto_iff.1 h
    exact ⟨key, node, entry, h⟩
  · rintro ⟨key, node, entry, h⟩
    exact ⟨_, entry, mem_waysInto_iff.2 ⟨node, rfl, h⟩⟩

/-- **The ways of a tree are those that can be gone.** -/
theorem mem_ways_iff_leads {tree : Fields} {way : Way} : way ∈ ways tree ↔ Leads tree way := by
  constructor
  · intro h
    induction tree using treeInduction generalizing way with
    | step tree ih =>
      obtain ⟨key, node, entry, rfl | ⟨next, hnext, rfl⟩⟩ := mem_ways_iff.1 h
      · exact .last entry
      · exact .through entry (ih key node entry hnext)
  · intro h
    induction h with
    | last entry => exact mem_ways_iff.2 ⟨_, _, entry, .inl rfl⟩
    | through entry _ ih => exact mem_ways_iff.2 ⟨_, _, entry, .inr ⟨_, ih, rfl⟩⟩

/-! ### Distinct keys -/

theorem distinctKeys_iff {tree : Fields} : DistinctKeys tree ↔
    (tree.map Prod.fst).Nodup ∧ ∀ key node, (key, .object node) ∈ tree → DistinctKeys node := by
  -- an object below the tree is that of an entry, or below one
  refine and_congr_right fun _ => ⟨fun h key node entry => ⟨?_, fun way hway => ?_⟩, ?_⟩
  · exact h ⟨[], key, node⟩ (mem_ways_iff.2 ⟨key, node, entry, .inl rfl⟩)
  · exact h (way.through key node) (mem_ways_iff.2 ⟨key, node, entry, .inr ⟨way, hway, rfl⟩⟩)
  · intro h way hway
    obtain ⟨key, node, entry, rfl | ⟨next, hnext, rfl⟩⟩ := mem_ways_iff.1 hway
    · exact (h key node entry).1
    · exact (h key node entry).2 next hnext

namespace Way

/-- How a way stands to one that comes later: it does not continue that one, and if that one
continues it, then its object is passed. -/
def Precedes (v w : Way) : Prop :=
  ¬ w.keys <+: v.keys ∧ (v.keys <+: w.keys → (v.key, v.node) ∈ w.passed)

theorem Precedes.through {v w : Way} (h : v.Precedes w) (key : String) (node : Fields) :
    (v.through key node).Precedes (w.through key node) := by
  refine ⟨?_, fun continues => ?_⟩
  · rw [keys_through, keys_through, List.prefix_cons_inj]
    exact h.1
  · rw [keys_through, keys_through, List.prefix_cons_inj] at continues
    exact List.mem_cons_of_mem _ (h.2 continues)

theorem precedes_through (key : String) (node : Fields) (way : Way) :
    Precedes ⟨[], key, node⟩ (way.through key node) := by
  refine ⟨?_, fun _ => List.mem_cons_self⟩
  intro h
  have short : way.keys <+: [] := (List.prefix_cons_inj key).1 h
  exact way.keys_ne_nil (List.prefix_nil.1 short)

/-- Ways that begin with different keys do not continue each other. -/
theorem precedes_of_head_ne {key key' : String} {value value' : Value} {v w : Way}
    (hv : v ∈ waysInto key value) (hw : w ∈ waysInto key' value') (ne : key ≠ key') :
    v.Precedes w := by
  have begins : ∀ {key : String} {value : Value} {way : Way}, way ∈ waysInto key value →
      ∃ more, way.keys = key :: more := by
    intro key value way h
    obtain ⟨node, -, rfl | ⟨next, -, rfl⟩⟩ := mem_waysInto_iff.1 h
    · exact ⟨[], rfl⟩
    · exact ⟨next.keys, rfl⟩
  obtain ⟨more, hmore⟩ := begins hv
  obtain ⟨more', hmore'⟩ := begins hw
  rw [Precedes, hmore, hmore']
  refine ⟨fun h => ?_, fun h => ?_⟩
  · exact absurd (List.cons_prefix_cons.1 h).1.symm ne
  · exact absurd (List.cons_prefix_cons.1 h).1 ne

end Way

/-- The ways through the fields of an object stand to each other as they do through each of them, if
no key comes twice. -/
theorem pairwise_ways {fields : Fields} (distinct : (fields.map Prod.fst).Nodup)
    (each : ∀ field ∈ fields, (waysInto field.1 field.2).Pairwise Way.Precedes) :
    (ways fields).Pairwise Way.Precedes := by
  rw [ways_eq_flatMap, List.pairwise_flatMap]
  -- what is left are ways through different fields, and these begin with different keys
  refine ⟨each, ?_⟩
  rw [List.Nodup, List.pairwise_map] at distinct
  exact distinct.imp fun ne v hv w hw => Way.precedes_of_head_ne hv hw ne

/-- **The ways of a tree precede each other** in the order in which they are listed. -/
theorem DistinctKeys.pairwise {tree : Fields} (distinct : DistinctKeys tree) :
    (ways tree).Pairwise Way.Precedes := by
  induction tree using treeInduction with
  | step tree ih =>
    rw [distinctKeys_iff] at distinct
    refine pairwise_ways distinct.1 fun field hfield => ?_
    obtain ⟨key, value⟩ := field
    cases value with
    | object node =>
      have below : (ways node).Pairwise Way.Precedes :=
        ih key node hfield (distinct.2 key node hfield)
      -- all ways through the object continue the way to it, and pass it
      rw [waysInto, List.pairwise_cons, List.forall_mem_map, List.pairwise_map]
      exact ⟨fun way _ => Way.precedes_through key node way, below.imp fun h => h.through key node⟩
    | null | bool | int | float | str | list => exact .nil

end DesignTokens
