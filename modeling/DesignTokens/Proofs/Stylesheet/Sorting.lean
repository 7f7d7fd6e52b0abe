import DesignTokens.Stylesheet.Order
import Mathlib.Data.List.Nodup
import Mathlib.Data.List.Perm.Basic

/-!
# Sorting loses no token

Between loading and writing, the tokens are sorted into categories, and each category is put into
its order. Both only rearrange: what comes out is a permutation of what went in, also with tokens
that are equal, with keys that are met again and with styles that are set twice.

Almost all of this is one fact. A list is cut into parts by tests, and if every element passes
exactly one of the tests, the parts one after the other are a permutation of the list
(`perm_of_parts`). The exception is the typography section, which takes the first token of each
role of a style and leaves the others for later.

* `Category.holds_iff_label` — a section takes a token exactly if it has the label that the
  token's first key calls for, so every token has one section (`Category.countP_holds`).
* `Category.groups_perm` — the categories of tokens hold every token once.
* `headOrder_perm`, `typographyOrder_perm` — so do the two orders of a section.
-/

namespace DesignTokens

/-! ### Cutting a list into parts -/

section Parts

variable {α κ : Type}

/-- The tests that an element passes, each answered with the element. -/
theorem flatMap_singleton_of_countP (keys : List κ) (p : κ → Bool) (x : α) :
    (keys.flatMap fun k => if p k then [x] else []) = List.replicate (keys.countP p) x := by
  induction keys with
  | nil => rfl
  | cons k keys ih =>
    rw [List.flatMap_cons, List.countP_cons, ih]
    by_cases hk : p k
    · rw [if_pos hk, if_pos hk, List.replicate_succ]; rfl
    · rw [if_neg hk, if_neg hk]; rfl

/-- **Parts of a list.** If every wanted element passes exactly one of the tests and no other
element passes any, the parts that pass the tests hold every wanted element once. -/
theorem perm_filter_of_parts {keys : List κ} {p : κ → α → Bool} {wanted : α → Bool} {l : List α}
    (once : ∀ x ∈ l, keys.countP (fun k => p k x) = if wanted x then 1 else 0) :
    (keys.flatMap fun k => l.filter (p k)).Perm (l.filter wanted) := by
  induction l with
  | nil => simp
  | cons x rest ih =>
    have cut : ∀ k, (x :: rest).filter (p k) =
        (if p k x then [x] else []) ++ rest.filter (p k) := by
      intro k
      rw [List.filter_cons]
      split <;> rfl
    have ih := ih fun y hy => once y (List.mem_cons_of_mem _ hy)
    -- the first element goes to the front, as often as it passes a test
    simp only [cut]
    refine (List.flatMap_append_perm _ _ _).symm.trans ?_
    rw [flatMap_singleton_of_countP, once x List.mem_cons_self, List.filter_cons]
    split
    · exact ih.cons x
    · exact ih

/-- If every element passes exactly one of the tests, nothing is lost or doubled. -/
theorem perm_of_parts {keys : List κ} {p : κ → α → Bool} {l : List α}
    (once : ∀ x ∈ l, keys.countP (fun k => p k x) = 1) :
    (keys.flatMap fun k => l.filter (p k)).Perm l := by
  have parts : (keys.flatMap fun k => l.filter (p k)).Perm (l.filter fun _ => true) :=
    perm_filter_of_parts fun x hx => once x hx
  rwa [List.filter_true] at parts

/-- A test that only one element of a list without repetitions passes. -/
theorem countP_eq_one {keys : List κ} {p : κ → Bool} {k : κ} (nodup : keys.Nodup)
    (mem : k ∈ keys) (only : ∀ k' ∈ keys, p k' = true ↔ k' = k) : keys.countP p = 1 := by
  classical
  rw [← List.count_eq_one_of_mem nodup mem, List.count]
  refine List.countP_congr fun k' hk' => ?_
  rw [only k' hk', beq_iff_eq]

theorem nodup_eraseDups [BEq α] [LawfulBEq α] : (l : List α) → l.eraseDups.Nodup
  | [] => List.nodup_nil
  | x :: rest => by
    rw [List.eraseDups_cons, List.nodup_cons, List.mem_eraseDups]
    exact ⟨by simp, nodup_eraseDups _⟩
termination_by l => l.length
decreasing_by exact Nat.lt_succ_of_le (List.length_filter_le _ _)

end Parts

/-! ### Categories -/

namespace Category

/-- A key that a standard category claims is neither claimed by another one nor its label. -/
theorem standard_apart : ∀ c ∈ standard, ∀ d ∈ standard, ∀ head ∈ d.heads,
    (head ∈ c.heads ∨ c.label = head) → c = d := by
  decide

theorem nodup_standard_labels : (standard.map label).Nodup := by
  decide

theorem nodup_standard_heads : ∀ c ∈ standard, c.heads.Nodup := by
  decide

theorem holds_iff {c : Category} {head : String} :
    c.holds head ↔ head ∈ c.heads ∨ c.label = head := by
  rw [holds, Bool.or_eq_true, List.contains_iff_mem, beq_iff_eq]

theorem holds_catchAll_iff {key head : String} : (catchAll key).holds head ↔ key = head := by
  rw [holds_iff, catchAll, List.mem_singleton, eq_comm (a := head), or_self]

/-- Either a standard category claims a key, or the key has a category of its own. -/
theorem ofHead_cases (head : String) :
    (ofHead head ∈ standard ∧ head ∈ (ofHead head).heads) ∨
      ((∀ c ∈ standard, head ∉ c.heads) ∧ ofHead head = catchAll head) := by
  rw [ofHead]
  cases found : standard.find? fun c => c.heads.contains head with
  | some d =>
    refine Or.inl ⟨List.mem_of_find?_eq_some found, ?_⟩
    simpa using List.find?_some found
  | none =>
    refine Or.inr ⟨fun c hc => ?_, rfl⟩
    simpa using List.find?_eq_none.mp found c hc

theorem isOther_iff {head : String} : isOther head ↔ ∀ c ∈ standard, ¬ c.holds head := by
  simp [isOther]

theorem mem_otherHeads {tokens : List Token} {head : String} :
    head ∈ otherHeads tokens ↔ (∃ t ∈ tokens, t.path.head = head) ∧ isOther head := by
  rw [otherHeads, List.mem_eraseDups, List.mem_filter, List.mem_map]

/-- **Keys and labels.** A section takes the tokens with a key exactly if it has the label of the
key's category. -/
theorem holds_iff_label {tokens : List Token} {c : Category} (mem : c ∈ sectionsOf tokens)
    (head : String) : c.holds head ↔ c.label = (ofHead head).label := by
  rcases List.mem_append.mp mem with standard | other
  · rw [holds_iff]
    -- a claimed key belongs to one standard category, a free key to the one it is the label of
    rcases ofHead_cases head with ⟨claimed, hhead⟩ | ⟨free, own⟩
    · refine ⟨?_, ?_⟩
      · intro held
        rw [standard_apart c standard _ claimed head hhead held]
      · intro same
        have := List.inj_on_of_nodup_map nodup_standard_labels standard claimed same
        exact Or.inl (this ▸ hhead)
    · rw [own, or_iff_right (free c standard)]; rfl
  · obtain ⟨key, hkey, rfl⟩ := List.mem_map.mp other
    have isOther := isOther_iff.mp (mem_otherHeads.mp hkey).2
    rw [holds_catchAll_iff]
    rcases ofHead_cases head with ⟨claimed, hhead⟩ | ⟨free, own⟩
    · -- neither the key nor the label of a standard category has a section of its own
      refine ⟨?_, ?_⟩
      · rintro rfl
        exact absurd (holds_iff.mpr (Or.inl hhead)) (isOther _ claimed)
      · intro same
        exact absurd (holds_iff.mpr (Or.inr same.symm)) (isOther _ claimed)
    · rw [own]; rfl

theorem nodup_sectionLabels (tokens : List Token) : ((sectionsOf tokens).map label).Nodup := by
  rw [sectionsOf, List.map_append, List.map_map, List.nodup_append']
  refine ⟨nodup_standard_labels, ?_, ?_⟩
  · -- the other labels are the keys themselves
    have : label ∘ catchAll = id := rfl
    rw [this, List.map_id]
    exact nodup_eraseDups _
  · intro name standard other
    obtain ⟨c, hc, rfl⟩ := List.mem_map.mp standard
    obtain ⟨key, hkey, same⟩ := List.mem_map.mp other
    have isOther := isOther_iff.mp (mem_otherHeads.mp hkey).2
    exact isOther c hc (holds_iff.mpr (Or.inr same.symm))

/-- Every token has a section. -/
theorem exists_holds {tokens : List Token} {t : Token} (mem : t ∈ tokens) :
    ∃ c ∈ sectionsOf tokens, c.holds t.path.head := by
  by_cases isOther : isOther t.path.head
  · have hkey := mem_otherHeads.mpr ⟨⟨t, mem, rfl⟩, isOther⟩
    exact ⟨catchAll t.path.head, List.mem_append_right _ (List.mem_map_of_mem hkey),
      holds_catchAll_iff.mpr rfl⟩
  · simp only [isOther_iff, not_forall, not_not] at isOther
    obtain ⟨c, hc, held⟩ := isOther
    exact ⟨c, List.mem_append_left _ hc, held⟩

/-- **Every token stands in exactly one section.** -/
theorem countP_holds {tokens : List Token} {t : Token} (mem : t ∈ tokens) :
    (sectionsOf tokens).countP (fun c => c.holds t.path.head) = 1 := by
  obtain ⟨c, hc, held⟩ := exists_holds mem
  have nodup := nodup_sectionLabels tokens
  refine countP_eq_one (List.Nodup.of_map _ nodup) hc fun d hd => ⟨fun heldToo => ?_, ?_⟩
  · refine List.inj_on_of_nodup_map nodup hd hc ?_
    rw [(holds_iff_label hd _).mp heldToo, (holds_iff_label hc _).mp held]
  · rintro rfl
    exact held

/-- The categories that have members hold every token once. -/
theorem groups_perm (tokens : List Token) : ((groups tokens).flatMap Prod.snd).Perm tokens := by
  have members : (groups tokens).flatMap Prod.snd =
      (sectionsOf tokens).flatMap fun c => c.members tokens := by
    rw [groups]
    induction sectionsOf tokens with
    | nil => rfl
    | cons c rest ih =>
      rw [List.map_cons, List.filter_cons, List.flatMap_cons, ← ih]
      split
      · rfl
      · next empty =>
        -- a category without members adds nothing
        have : c.members tokens = [] := by simpa using empty
        rw [this]; rfl
  rw [members]
  exact perm_of_parts fun t mem => countP_holds mem

end Category

/-! ### The order by first keys -/

/-- The order by first keys holds every token once. -/
theorem headOrder_perm {heads : List String} (nodup : heads.Nodup) (tokens : List Token) :
    (headOrder heads tokens).Perm tokens := by
  have claimed : (heads.flatMap fun head => tokens.filter fun t => t.path.head = head).Perm
      (tokens.filter fun t => t.path.head ∈ heads) := by
    refine perm_filter_of_parts fun t _ => ?_
    by_cases mem : t.path.head ∈ heads
    · rw [if_pos (decide_eq_true mem)]
      exact countP_eq_one nodup mem fun head _ => by rw [decide_eq_true_iff, eq_comm]
    · rw [if_neg (by simpa using mem), List.countP_eq_zero]
      intro head hhead same
      exact mem (of_decide_eq_true same ▸ hhead)
  have rest : (tokens.filter fun t => t.path.head ∉ heads) =
      tokens.filter fun t => !decide (t.path.head ∈ heads) := by
    simp
  rw [headOrder, rest]
  exact (claimed.append_right _).trans (List.filter_append_perm _ _)

/-! ### The order of typography -/

/-- The roles of a style. -/
def Role.ofStyle (style : String) : List Role :=
  [.size style, .lineHeight style, .styleWeight style]

theorem Role.mem_ofStyle_iff {role : Role} {style : String} :
    role ∈ Role.ofStyle style ↔ role.style? = some style := by
  cases role <;> simp [Role.ofStyle, Role.style?]

theorem Role.mem_flatMap_ofStyle {role : Role} {styles : List String} :
    role ∈ styles.flatMap Role.ofStyle ↔ ∃ style ∈ styles, role.style? = some style := by
  simp only [List.mem_flatMap, Role.mem_ofStyle_iff]

theorem Role.nodup_flatMap_ofStyle {styles : List String} (nodup : styles.Nodup) :
    (styles.flatMap Role.ofStyle).Nodup := by
  refine List.nodup_flatMap.mpr ⟨fun style _ => by simp [Role.ofStyle], ?_⟩
  refine nodup.imp fun different role first second => different ?_
  rw [Role.mem_ofStyle_iff] at first second
  exact Option.some.inj (first.symm.trans second)

/-- The first token of a role, unless the role has been met before. -/
def firstOf (met : List Role) (tokens : List Token) (role : Role) : List Token :=
  if role ∈ met then [] else (withRole role tokens).take 1

/-- A token is not the first one of another role. -/
theorem firstOf_cons_of_ne {met : List Role} {t : Token} {rest : List Token} {role : Role}
    (other : role ≠ Role.ofToken t) : firstOf met (t :: rest) role = firstOf met rest role := by
  rw [firstOf, firstOf, withRole, withRole, List.filter_cons_of_neg (by simp [other.symm])]

/-- Having met a role only matters for this role. -/
theorem firstOf_met_of_ne {met : List Role} {tokens : List Token} {role own : Role}
    (other : role ≠ own) : firstOf (own :: met) tokens role = firstOf met tokens role := by
  simp [firstOf, other]

/-- The first token of its role is the first one of that role, and then the role is met. -/
theorem flatMap_firstOf_cons_of_new {roles met : List Role} {t : Token} {rest : List Token}
    (nodup : roles.Nodup) (mem : Role.ofToken t ∈ roles) (new : Role.ofToken t ∉ met) :
    (roles.flatMap (firstOf met (t :: rest))).Perm
      (t :: roles.flatMap (firstOf (Role.ofToken t :: met) rest)) := by
  have first : firstOf met (t :: rest) (Role.ofToken t) = [t] := by
    simp [firstOf, withRole, new]
  have done : firstOf (Role.ofToken t :: met) rest (Role.ofToken t) = [] := by
    simp [firstOf]
  have others : (roles.erase (Role.ofToken t)).flatMap (firstOf met (t :: rest)) =
      (roles.erase (Role.ofToken t)).flatMap (firstOf (Role.ofToken t :: met) rest) := by
    refine List.flatMap_congr fun role hrole => ?_
    have other := (nodup.mem_erase_iff.mp hrole).1
    rw [firstOf_cons_of_ne other, firstOf_met_of_ne other]
  -- with its role apart, both sides are the same but for the token
  have apart := List.perm_cons_erase mem
  refine (apart.flatMap_right _).trans ?_
  rw [List.flatMap_cons, first, others]
  refine List.Perm.cons t ((apart.flatMap_right _).trans ?_).symm
  rw [List.flatMap_cons, done]
  exact List.Perm.refl _

/-- A token without a style is the first of no role of a style. -/
theorem flatMap_firstOf_cons_of_unstyled {styles : List String} {met : List Role} {t : Token}
    {rest : List Token} (unstyled : (Role.ofToken t).style? = none) :
    (styles.flatMap Role.ofStyle).flatMap (firstOf met (t :: rest)) =
      (styles.flatMap Role.ofStyle).flatMap (firstOf met rest) := by
  refine List.flatMap_congr fun role hrole => firstOf_cons_of_ne fun own => ?_
  obtain ⟨style, -, hstyle⟩ := Role.mem_flatMap_ofStyle.mp (own ▸ hrole)
  rw [unstyled] at hstyle
  exact nomatch hstyle

/-- A token that is left over is the first of no role of a style with a size: its style has no
size, or its role has been met. -/
theorem flatMap_firstOf_cons_of_left {styles : List String} {met : List Role} {t : Token}
    {rest : List Token} {style : String} (styled : (Role.ofToken t).style? = some style)
    (left : ¬ (style ∈ styles ∧ Role.ofToken t ∉ met)) :
    (styles.flatMap Role.ofStyle).flatMap (firstOf met (t :: rest)) =
      (styles.flatMap Role.ofStyle).flatMap (firstOf (Role.ofToken t :: met) rest) := by
  refine List.flatMap_congr fun role hrole => ?_
  by_cases own : role = Role.ofToken t
  · subst own
    obtain ⟨style', sized, hstyle'⟩ := Role.mem_flatMap_ofStyle.mp hrole
    obtain rfl : style = style' := Option.some.inj (styled.symm.trans hstyle')
    have known : Role.ofToken t ∈ met := by
      by_contra new
      exact left ⟨sized, new⟩
    simp [firstOf, known]
  · rw [firstOf_cons_of_ne own, firstOf_met_of_ne own]

/-- Whether a token belongs to a style. -/
def isStyled (t : Token) : Bool :=
  (Role.ofToken t).style?.isSome

/-- **First and left over.** The first tokens of the roles that have not been met, and what is left
over, are all tokens that belong to styles. -/
theorem firstOf_append_leftover_perm {styles : List String} (nodup : styles.Nodup)
    (met : List Role) (tokens : List Token) :
    ((styles.flatMap Role.ofStyle).flatMap (firstOf met tokens) ++
      leftoverTokens styles met tokens).Perm (tokens.filter isStyled) := by
  -- the roles met grow along the scan, and the statement is about the rest of it
  induction tokens generalizing met with
  | nil =>
    have none : ∀ role, firstOf met [] role = [] := by
      intro role
      unfold firstOf
      split <;> rfl
    simp [none, leftoverTokens]
  | cons t rest ih =>
    rw [leftoverTokens]
    cases hstyle : (Role.ofToken t).style? with
    | none =>
      have unstyled : ¬ isStyled t := by simp [isStyled, hstyle]
      rw [flatMap_firstOf_cons_of_unstyled hstyle, List.filter_cons_of_neg unstyled]
      exact ih met
    | some style =>
      have styled : isStyled t := by simp [isStyled, hstyle]
      rw [List.filter_cons_of_pos styled]
      dsimp only
      split
      · next first =>
        have inside := Role.mem_flatMap_ofStyle.mpr ⟨style, first.1, hstyle⟩
        refine ((flatMap_firstOf_cons_of_new (Role.nodup_flatMap_ofStyle nodup) inside
          first.2).append_right _).trans ?_
        exact (ih (Role.ofToken t :: met)).cons t
      · next left =>
        -- the token stands behind all first ones
        rw [flatMap_firstOf_cons_of_left hstyle left]
        exact List.perm_middle.trans ((ih (Role.ofToken t :: met)).cons t)

/-- The parts of typography: families, weights, what belongs to styles, and the rest. -/
def Role.parts : List (Role → Bool) :=
  [fun role => role = .family, fun role => role = .weight, fun role => role.style?.isSome,
    fun role => role = .unplaced]

theorem Role.countP_parts (role : Role) : (Role.parts.countP fun part => part role) = 1 := by
  cases role <;> rfl

/-- The first tokens of the styles are the first ones of the roles of the styles. -/
theorem flatMap_styleTokens (styles : List String) (tokens : List Token) :
    styles.flatMap (styleTokens tokens) =
      (styles.flatMap Role.ofStyle).flatMap (firstOf [] tokens) := by
  rw [List.flatMap_assoc]
  refine List.flatMap_congr fun style _ => ?_
  simp [Role.ofStyle, firstOf, styleTokens]

/-- **The order of typography holds every token once.** -/
theorem typographyOrder_perm (tokens : List Token) : (typographyOrder tokens).Perm tokens := by
  -- what stands in the middle are the tokens that belong to styles
  have styled := firstOf_append_leftover_perm (nodup_eraseDups _ : (sizedStyles tokens).Nodup) []
    tokens
  have parts : (withRole .family tokens ++ (withRole .weight tokens ++
      (tokens.filter isStyled ++ withRole .unplaced tokens))).Perm tokens := by
    have parts : (Role.parts.flatMap fun part => tokens.filter fun t =>
        part (Role.ofToken t)).Perm tokens :=
      perm_of_parts fun t _ => Role.countP_parts (Role.ofToken t)
    simp only [Role.parts, List.flatMap_cons, List.flatMap_nil, List.append_nil] at parts
    exact parts
  unfold typographyOrder
  simp only [flatMap_styleTokens, List.append_assoc]
  refine List.Perm.trans ?_ parts
  refine List.Perm.append_left _ (List.Perm.append_left _ ?_)
  rw [← List.append_assoc]
  exact styled.append_right _

/-- **The order of a section holds every token once.** -/
theorem Category.order_perm {c : Category} (nodup : c.heads.Nodup) (tokens : List Token) :
    (c.order tokens).Perm tokens := by
  unfold Category.order
  split
  · exact typographyOrder_perm tokens
  · exact headOrder_perm nodup tokens

end DesignTokens
