import DesignTokens.Proofs.Stylesheet.Sorting
import DesignTokens.Stylesheet.Emission

/-!
# Where declarations stand

Every declaration of an emission stands in a section and in a bucket (`Placement`). The place that
a token asks for can be read off the token alone: the label of the category of its first key, the
bucket of its theme, its name and its value (`Token.placement`).

* `emissionOrder_perm` — the tokens are written in some order, each of them once.
* `placements_eq_map` — the declarations of an emission are those that its tokens ask for, in the
  places that they ask for and in the order of `placementOrder`.
* `placements_perm` — so each of them stands once.
* `exists_forall₂_shows` — each of them has the name, the value, the bucket and the section of a
  token (`Placement.Shows`), another one each time.
* `length_placements` — they are counted by the buckets.
-/

namespace DesignTokens

/-- A declaration and where it stands. -/
structure Placement where
  /-- the label of the section -/
  label : String
  bucket : Bucket
  declaration : Declaration
deriving DecidableEq, Repr

/-- The declarations of a section, with their places. -/
def LabelledSection.placements (s : LabelledSection) : List Placement :=
  Bucket.all.flatMap fun b => (s.declarations.get b).map (Placement.mk s.label b)

/-- The declarations of all sections, with their places. -/
def Emission.placements (e : Emission) : List Placement :=
  e.sections.flatMap LabelledSection.placements

/-- The label of the section that a token belongs to. -/
def Token.sectionLabel (t : Token) : String :=
  (Category.ofHead t.path.head).label

/-- The declaration that a token asks for, and where. -/
def Token.placement (t : Token) : Placement :=
  ⟨t.sectionLabel, t.bucket, t.declare t.sectionLabel⟩

/-- A declaration shows a token: it has the name of the token and its value as that is written, and
it stands in the bucket of the token's theme and in the section of its first key. -/
structure Placement.Shows (p : Placement) (t : Token) : Prop where
  name : p.declaration.name = t.propertyName
  value : p.declaration.value = formatValue t.effectiveType t.value
  bucket : p.bucket = Bucket.ofMode t.mode
  label : p.label = (Category.ofHead t.path.head).label
  /-- the declaration notes its section -/
  noted : p.declaration.sectionLabel = p.label

theorem Token.shows_placement (t : Token) : t.placement.Shows t :=
  ⟨rfl, rfl, rfl, rfl, rfl⟩

/-! ### The order of emission -/

theorem Category.nodup_heads {tokens : List Token} {c : Category} (mem : c ∈ sectionsOf tokens) :
    c.heads.Nodup := by
  rcases List.mem_append.mp mem with standard | other
  · exact nodup_standard_heads c standard
  · obtain ⟨key, -, rfl⟩ := List.mem_map.mp other
    exact List.nodup_singleton key

/-- A group in its order is the members of a category, rearranged. -/
theorem mem_orderedGroups {tokens : List Token} {group : Category × List Token}
    (mem : group ∈ orderedGroups tokens) :
    group.1 ∈ Category.sectionsOf tokens ∧ group.2.Perm (group.1.members tokens) := by
  obtain ⟨g, hg, rfl⟩ := List.mem_map.mp mem
  obtain ⟨c, hc, rfl⟩ := List.mem_map.mp (List.mem_of_mem_filter hg)
  exact ⟨hc, Category.order_perm (Category.nodup_heads hc) _⟩

/-- **The order of emission holds every token once.** -/
theorem emissionOrder_perm (tokens : List Token) : (emissionOrder tokens).Perm tokens := by
  refine List.Perm.trans ?_ (Category.groups_perm tokens)
  rw [emissionOrder, orderedGroups, List.flatMap_map]
  refine List.Perm.flatMap_left _ fun g hg => ?_
  obtain ⟨c, hc, rfl⟩ := List.mem_map.mp (List.mem_of_mem_filter hg)
  exact Category.order_perm (Category.nodup_heads hc) _

/-- The tokens of a group belong to the section of the group. -/
theorem sectionLabel_of_mem {tokens : List Token} {group : Category × List Token} {t : Token}
    (hgroup : group ∈ orderedGroups tokens) (ht : t ∈ group.2) :
    t.sectionLabel = group.1.label := by
  obtain ⟨hc, same⟩ := mem_orderedGroups hgroup
  have held := (List.mem_filter.mp (same.mem_iff.mp ht)).2
  exact ((Category.holds_iff_label hc _).mp held).symm

/-- No two sections of an emission have one label. -/
theorem nodup_labels (oklch : Bool) (tokens : List Token) :
    ((Emission.ofTokens oklch tokens).sections.map (·.label)).Nodup := by
  have labels : (Emission.ofTokens oklch tokens).sections.map (·.label) =
      (Category.groups tokens).map fun group => group.1.label := by
    rw [Emission.ofTokens, orderedGroups, List.map_map, List.map_map]
    rfl
  have all : (Category.sectionsOf tokens).map Category.label =
      ((Category.sectionsOf tokens).map fun c => (c, c.members tokens)).map
        fun group => group.1.label := by
    rw [List.map_map]
    rfl
  have nodup := Category.nodup_sectionLabels tokens
  rw [all] at nodup
  rw [labels, Category.groups]
  exact nodup.sublist (List.filter_sublist.map _)

/-! ### Placements -/

/-- The tokens in the order in which their declarations stand: section by section, and in a section
bucket by bucket. -/
def placementOrder (tokens : List Token) : List Token :=
  (orderedGroups tokens).flatMap fun group =>
    Bucket.all.flatMap fun b => group.2.filter fun t => t.bucket = b

theorem placementOrder_perm (tokens : List Token) : (placementOrder tokens).Perm tokens := by
  refine List.Perm.trans ?_ (emissionOrder_perm tokens)
  refine List.Perm.flatMap_left _ fun group _ => ?_
  exact perm_of_parts fun t _ => by cases t.bucket <;> rfl

/-- **Where declarations stand.** The declarations of an emission are those of its tokens in this
order, each in the place that its token asks for. -/
theorem placements_eq_map (oklch : Bool) (tokens : List Token) :
    (Emission.ofTokens oklch tokens).placements = (placementOrder tokens).map Token.placement := by
  rw [Emission.placements, Emission.ofTokens, List.flatMap_map, placementOrder, List.map_flatMap]
  refine List.flatMap_congr fun group hgroup => ?_
  rw [LabelledSection.placements, List.map_flatMap]
  refine List.flatMap_congr fun b _ => ?_
  rw [LabelledSection.ofTokens, ByBucket.get_of, List.map_map]
  refine List.map_congr_left fun t ht => ?_
  -- in the part of a bucket, the bucket is the token's own
  obtain ⟨mem, here⟩ := List.mem_filter.1 ht
  obtain rfl : t.bucket = b := of_decide_eq_true here
  simp only [Function.comp_apply, Token.placement, sectionLabel_of_mem hgroup mem]

/-- **Every token is declared once, where it belongs.** The declarations of an emission, with the
sections and buckets that they stand in, are those of its tokens up to order. -/
theorem placements_perm (oklch : Bool) (tokens : List Token) :
    (Emission.ofTokens oklch tokens).placements.Perm (tokens.map Token.placement) := by
  rw [placements_eq_map]
  exact (placementOrder_perm tokens).map Token.placement

/-- **Each declaration shows a token of its own.** In some order, the tokens are what the
declarations of an emission show, one after the other. -/
theorem exists_forall₂_shows (oklch : Bool) (tokens : List Token) :
    ∃ order : List Token, order.Perm tokens ∧
      List.Forall₂ Placement.Shows (Emission.ofTokens oklch tokens).placements order := by
  refine ⟨placementOrder tokens, placementOrder_perm tokens, ?_⟩
  rw [placements_eq_map, List.forall₂_map_left_iff, List.forall₂_same]
  exact fun t _ => t.shows_placement

/-- The declarations of an emission are counted by bucket. -/
theorem length_placements (e : Emission) :
    e.placements.length =
      (e.declarations .root).length + (e.declarations .dark).length +
        (e.declarations .light).length := by
  unfold Emission.placements Emission.declarations
  induction e.sections with
  | nil => rfl
  | cons s rest ih =>
    simp only [List.flatMap_cons, List.length_append, ih, LabelledSection.placements, Bucket.all,
      List.flatMap_nil, List.length_map, List.length_nil]
    omega

end DesignTokens
