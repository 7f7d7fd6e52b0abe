import DesignTokens.Proofs.Stylesheet.Placement
import Mathlib.Data.List.Flatten

/-!
# Tokens of one path keep their order

Before tokens are written they are sorted three times: into categories, by the order of a category,
and into buckets. None of this changes the order of tokens that have one path and one theme. This
is not plain in typography, where the first size of a style is taken forward and later sizes of the
same style are left over for the end; but the first stays first, and what is left over keeps its
order.

Where the order is kept is found without following the sorting through. What is sorted is a
permutation of what there was, so the tokens keep their order as soon as they stand in it anywhere
(`filter_eq_of_perm_of_sublist`); for each of the three ways of sorting it is enough to point at a
part of the result.

* `withRole_sublist_typographyOrder`, `filter_sublist_headOrder` — tokens of one role stand in their
  order in typography, and tokens of one first key elsewhere.
* `Category.filter_sublist_order`, `exists_orderedGroup` — so do tokens of one path and theme in any
  category, and in the section that they share.
* `filter_emissionOrder`, `filter_placementOrder` — they are written, and their declarations stand,
  in the order in which they were found.
-/

namespace DesignTokens

/-! ### Keeping an order -/

section Keeping

variable {α κ : Type}

/-- A rearranged list keeps the order of the elements that pass a test if these stand in their order
anywhere in it. -/
theorem filter_eq_of_perm_of_sublist {l l' : List α} {q : α → Bool} (perm : l'.Perm l)
    (inOrder : (l.filter q).Sublist l') : l'.filter q = l.filter q := by
  have kept : (l.filter q).Sublist (l'.filter q) := by
    simpa only [List.filter_filter, Bool.and_self] using inOrder.filter q
  have length : (l.filter q).length = (l'.filter q).length := (perm.filter q).length_eq.symm
  exact (kept.eq_of_length length).symm

theorem sublist_flatMap_of_mem {l : List κ} {k : κ} (mem : k ∈ l) (f : κ → List α) :
    (f k).Sublist (l.flatMap f) := by
  have one := (List.singleton_sublist.2 mem).flatMap f
  rwa [List.flatMap_singleton] at one

/-- Elements that pass a test are found in a part of a list that takes all of them. -/
theorem filter_filter_of_forall {l : List α} {p q : α → Bool} (takes : ∀ x ∈ l, q x → p x) :
    (l.filter p).filter q = l.filter q := by
  rw [List.filter_filter]
  refine List.filter_congr fun x hx => ?_
  cases hq : q x with
  | false => rfl
  | true => rw [takes x hx hq, Bool.and_self]

end Keeping

/-! ### Typography -/

/-- **What is left over of a role**: all its tokens, but for the first one if the role has not been
met and its style has a size. -/
theorem withRole_leftoverTokens {styles : List String} {role : Role} {style : String}
    (styled : role.style? = some style) (met : List Role) (tokens : List Token) :
    withRole role (leftoverTokens styles met tokens) =
      (withRole role tokens).drop (if style ∈ styles ∧ role ∉ met then 1 else 0) := by
  -- the roles met grow along the scan
  induction tokens generalizing met with
  | nil => simp [leftoverTokens, withRole]
  | cons t rest ih =>
    by_cases own : Role.ofToken t = role
    · have first : withRole role (t :: rest) = t :: withRole role rest :=
        List.filter_cons_of_pos (by simpa using own)
      have ih := ih (role :: met)
      rw [if_neg (by simp), List.drop_zero] at ih
      simp only [leftoverTokens, own, styled]
      rw [first]
      -- the first one is taken forward, any other is left over, and then the role has been met
      split
      · rw [ih, List.drop_one, List.tail_cons]
      · have front : withRole role (t :: leftoverTokens styles (role :: met) rest) =
            t :: withRole role (leftoverTokens styles (role :: met) rest) :=
          List.filter_cons_of_pos (by simpa using own)
        rw [front, ih, List.drop_zero]
    · -- a token of another role is not looked for, and does not meet this one
      have skip : ∀ l, withRole role (t :: l) = withRole role l := fun l =>
        List.filter_cons_of_neg (by simpa using own)
      have unmet : role ∉ Role.ofToken t :: met ↔ role ∉ met := by simp [Ne.symm own]
      have later := ih (Role.ofToken t :: met)
      simp only [unmet] at later
      simp only [leftoverTokens]
      rw [skip]
      split
      · exact ih met
      · split
        · exact later
        · rw [skip]
          exact later

/-- Tokens of a role that belongs to a style stand in their order in the middle of typography, among
the styles and what is left over. -/
theorem withRole_sublist_styles {role : Role} {style : String} (styled : role.style? = some style)
    (tokens : List Token) :
    (withRole role tokens).Sublist ((sizedStyles tokens).flatMap (styleTokens tokens) ++
      leftoverTokens (sizedStyles tokens) [] tokens) := by
  have left : (withRole role (leftoverTokens (sizedStyles tokens) [] tokens)).Sublist
      (leftoverTokens (sizedStyles tokens) [] tokens) := List.filter_sublist
  rw [withRole_leftoverTokens styled] at left
  by_cases sized : style ∈ sizedStyles tokens
  · -- the first token stands with its style, and the others are left over
    rw [if_pos ⟨sized, List.not_mem_nil⟩] at left
    have first : ((withRole role tokens).take 1).Sublist
        ((sizedStyles tokens).flatMap (styleTokens tokens)) := by
      rw [flatMap_styleTokens]
      exact sublist_flatMap_of_mem (f := firstOf [] tokens)
        (Role.mem_flatMap_ofStyle.2 ⟨style, sized, styled⟩)
    have both := first.append left
    rwa [List.take_append_drop] at both
  · -- a style without a size is left over as a whole
    rw [if_neg fun h => sized h.1, List.drop_zero] at left
    exact left.trans (List.sublist_append_right _ _)

/-- **Tokens of one role stand in their order in typography.** -/
theorem withRole_sublist_typographyOrder (role : Role) (tokens : List Token) :
    (withRole role tokens).Sublist (typographyOrder tokens) := by
  unfold typographyOrder
  dsimp only
  cases role with
  | family =>
    simp only [List.append_assoc]
    exact List.sublist_append_left _ _
  | weight =>
    simp only [List.append_assoc]
    exact (List.sublist_append_left _ _).trans (List.sublist_append_right _ _)
  | unplaced => exact List.sublist_append_right _ _
  | size style | lineHeight style | styleWeight style =>
    rw [List.append_assoc _ _ (leftoverTokens _ _ _)]
    refine List.Sublist.trans ?_ (List.sublist_append_left _ _)
    exact (withRole_sublist_styles rfl tokens).trans (List.sublist_append_right _ _)

/-! ### Sections and buckets -/

section OnePath

variable {tokens : List Token} {q : Token → Bool} {path : TokenPath} {mode : Option Mode}

/-- **Tokens of one first key stand in their order** whether the key is claimed or not. -/
theorem filter_sublist_headOrder {head : String} (heads : List String)
    (alike : ∀ t ∈ tokens, q t → t.path.head = head) :
    (tokens.filter q).Sublist (headOrder heads tokens) := by
  unfold headOrder
  by_cases claimed : head ∈ heads
  · have here : ∀ t ∈ tokens, q t → decide (t.path.head = head) := by
      intro t ht hq
      exact decide_eq_true (alike t ht hq)
    rw [← filter_filter_of_forall here]
    have part := sublist_flatMap_of_mem claimed fun head =>
      tokens.filter fun t => t.path.head = head
    exact List.filter_sublist.trans (part.trans (List.sublist_append_left _ _))
  · have here : ∀ t ∈ tokens, q t → decide (t.path.head ∉ heads) := by
      intro t ht hq
      rw [alike t ht hq]
      exact decide_eq_true claimed
    rw [← filter_filter_of_forall here]
    exact List.filter_sublist.trans (List.sublist_append_right _ _)

/-- The order of a category keeps that of tokens with one path and one theme. -/
theorem Category.filter_sublist_order (c : Category)
    (alike : ∀ t ∈ tokens, q t → t.path = path ∧ t.mode = mode) :
    (tokens.filter q).Sublist (c.order tokens) := by
  unfold Category.order
  split
  · -- in typography they have one role
    have role : ∀ t ∈ tokens, q t →
        decide (Role.ofToken t = Role.ofToken ⟨path, .null, .other, mode⟩) := by
      intro t ht hq
      obtain ⟨hpath, hmode⟩ := alike t ht hq
      simp [Role.ofToken, Token.namePath, hpath, hmode]
    rw [← filter_filter_of_forall role]
    exact List.filter_sublist.trans (withRole_sublist_typographyOrder _ tokens)
  · exact filter_sublist_headOrder c.heads fun t ht hq => congrArg (·.head) (alike t ht hq).1

/-- They stand in one section, in their order. -/
theorem exists_orderedGroup (alike : ∀ t ∈ tokens, q t → t.path = path ∧ t.mode = mode)
    (some : tokens.filter q ≠ []) :
    ∃ group ∈ orderedGroups tokens, (tokens.filter q).Sublist group.2 := by
  obtain ⟨t, ht⟩ := List.exists_mem_of_ne_nil _ some
  obtain ⟨mem, hq⟩ := List.mem_filter.1 ht
  obtain ⟨c, hc, held⟩ := Category.exists_holds mem
  have members : (c.members tokens).filter q = tokens.filter q :=
    filter_filter_of_forall fun s hs hqs => by
      rw [(alike s hs hqs).1, ← (alike t mem hq).1]
      exact held
  have isGroup : (c, c.members tokens) ∈ Category.groups tokens := by
    refine List.mem_filter.2 ⟨List.mem_map_of_mem hc, ?_⟩
    have member : t ∈ c.members tokens := List.mem_filter.2 ⟨mem, held⟩
    simpa using List.ne_nil_of_mem member
  refine ⟨_, List.mem_map_of_mem isGroup, ?_⟩
  rw [← members]
  exact c.filter_sublist_order fun s hs => alike s (List.mem_of_mem_filter hs)

/-- **Tokens of one path and one theme are written in the order in which they were found.** -/
theorem filter_emissionOrder (alike : ∀ t ∈ tokens, q t → t.path = path ∧ t.mode = mode) :
    (emissionOrder tokens).filter q = tokens.filter q := by
  refine filter_eq_of_perm_of_sublist (emissionOrder_perm tokens) ?_
  by_cases some : tokens.filter q = []
  · rw [some]
    exact List.nil_sublist _
  · obtain ⟨group, hgroup, inOrder⟩ := exists_orderedGroup alike some
    exact inOrder.trans (sublist_flatMap_of_mem hgroup Prod.snd)

/-- **Their declarations stand in this order.** -/
theorem filter_placementOrder (alike : ∀ t ∈ tokens, q t → t.path = path ∧ t.mode = mode) :
    (placementOrder tokens).filter q = tokens.filter q := by
  refine filter_eq_of_perm_of_sublist (placementOrder_perm tokens) ?_
  by_cases some : tokens.filter q = []
  · rw [some]
    exact List.nil_sublist _
  · obtain ⟨group, hgroup, inOrder⟩ := exists_orderedGroup alike some
    -- in the section they stand in one bucket
    have bucket : ∀ t ∈ tokens.filter q, decide (t.bucket = Bucket.ofMode mode) := by
      intro t ht
      obtain ⟨mem, hq⟩ := List.mem_filter.1 ht
      simp [Token.bucket, (alike t mem hq).2]
    have inBucket := inOrder.filter fun t => decide (t.bucket = Bucket.ofMode mode)
    rw [List.filter_eq_self.2 bucket] at inBucket
    have isBucket : Bucket.ofMode mode ∈ Bucket.all := by
      cases Bucket.ofMode mode <;> decide
    refine inBucket.trans ((sublist_flatMap_of_mem isBucket fun b => group.2.filter fun t =>
      t.bucket = b).trans ?_)
    exact sublist_flatMap_of_mem hgroup fun group =>
      Bucket.all.flatMap fun b => group.2.filter fun t => t.bucket = b

end OnePath

end DesignTokens
