import DesignTokens.Proofs.Stylesheet.SourceOrder

/-!
# Sections

How the sections of an emission divide the tokens. Every token belongs to one section, which is
found by its first key alone. The standard categories that have tokens come first, in their fixed
order; then every other key has a section of its own, in the order in which the keys are met.

* `SortedBy` — a list is another one sorted by a rank, elements of one rank in the order they had.
* `sortedBy_headOrder` — the order by first keys is the tokens sorted by the place of their keys
  among those that the category claims. A key that is not claimed has the last rank.
* `pairwise_otherHeads` — the keys without a standard category stand as they are met.
* `LabelledSection.Collects` — a section holds the declarations of a category's tokens.
* `Emission.Partitions` — the sections divide the tokens, and stand in their order.
* `Emission.exists_partitions` — those of an emission do.
-/

namespace DesignTokens

/-! ### Sorting by a rank -/

section Ranks

variable {α : Type} {rank : α → Nat} {l sorted : List α}

/-- A list is **sorted by a rank** from another one: the ranks never fall, and the elements of each
rank stand in the order that they had. -/
structure SortedBy (rank : α → Nat) (l sorted : List α) : Prop where
  rising : sorted.Pairwise fun x y => rank x ≤ rank y
  kept : ∀ r, sorted.filter (fun x => rank x = r) = l.filter fun x => rank x = r

/-- What passes a test is sorted if all is. -/
theorem SortedBy.filter (h : SortedBy rank l sorted) (p : α → Bool) :
    SortedBy rank (l.filter p) (sorted.filter p) where
  rising := h.rising.filter p
  kept r := by
    -- the test and the rank may be looked at in any order
    have comm : ∀ l : List α, (l.filter p).filter (fun x => rank x = r) =
        (l.filter fun x => rank x = r).filter p := by
      intro l
      rw [List.filter_filter, List.filter_filter]
      exact List.filter_congr fun x _ => Bool.and_comm _ _
    rw [comm, comm, h.kept]

/-- Without repetitions, the elements of a list stand in it by their places. -/
theorem pairwise_idxOf_of_nodup [BEq α] [LawfulBEq α] (nodup : l.Nodup) :
    l.Pairwise fun x y => l.idxOf x < l.idxOf y := by
  rw [List.pairwise_iff_getElem]
  intro i j hi hj before
  rwa [nodup.idxOf_getElem, nodup.idxOf_getElem]

/-- **First appearances.** The keys of elements, each written once, stand in the order of the first
elements that have them. -/
theorem pairwise_findIdx_eraseDups {κ : Type} [DecidableEq κ] (key? : α → Option κ) (l : List α) :
    (l.filterMap key?).eraseDups.Pairwise fun k k' =>
      l.findIdx (fun x => key? x = some k) < l.findIdx (fun x => key? x = some k') := by
  -- a key that has been met is not looked for again, so fewer keys are left along the list
  induction l generalizing key? with
  | nil => exact .nil
  | cons x rest ih =>
    cases hx : key? x with
    | none =>
      rw [List.filterMap_cons_none hx]
      refine (ih key?).imp fun before => ?_
      simpa [List.findIdx_cons, hx] using before
    | some k =>
      let left? := fun y => (key? y).filter fun k' => !k' == k
      have left : (rest.filterMap key?).filter (fun k' => !k' == k) = rest.filterMap left? := by
        rw [List.filter_filterMap]
      rw [List.filterMap_cons_some hx, List.eraseDups_cons, left, List.pairwise_cons]
      -- the keys that are left are new, and are found where they were
      have new : ∀ k' ∈ (rest.filterMap left?).eraseDups, k ≠ k' := by
        rintro k' hk' rfl
        rw [← left, List.mem_eraseDups, List.mem_filter] at hk'
        simp at hk'
      have found : ∀ k', k ≠ k' → (fun y => decide (left? y = some k')) =
          fun y => decide (key? y = some k') := by
        intro k' other
        funext y
        simp [left?, Option.filter_eq_some_iff, other.symm]
      refine ⟨fun k' hk' => ?_, (ih left?).imp_of_mem fun {k' k''} hk' hk'' before => ?_⟩
      · simp [List.findIdx_cons, hx, new k' hk']
      · rw [found k' (new k' hk'), found k'' (new k'' hk'')] at before
        simpa [List.findIdx_cons, hx, new k' hk', new k'' hk''] using before

end Ranks

/-! ### The order by first keys -/

/-- The rank of a token among first keys: the place of its own key, and behind all of them if its
key is none of them. -/
def Token.rankIn (heads : List String) (t : Token) : Nat :=
  heads.idxOf t.path.head

/-- **The order by first keys** sorts tokens by the rank of their keys. -/
theorem sortedBy_headOrder {heads : List String} (nodup : heads.Nodup) (tokens : List Token) :
    SortedBy (Token.rankIn heads) tokens (headOrder heads tokens) := by
  -- the parts of the order have one rank each
  have claimed : ∀ {head t}, t ∈ tokens.filter (fun t => t.path.head = head) →
      t.rankIn heads = heads.idxOf head :=
    fun ht => congrArg heads.idxOf (of_decide_eq_true (List.mem_filter.1 ht).2)
  have unclaimed : ∀ {t}, t ∈ tokens.filter (fun t => t.path.head ∉ heads) →
      t.rankIn heads = heads.length :=
    fun ht => List.idxOf_eq_length_iff.2 (of_decide_eq_true (List.mem_filter.1 ht).2)
  constructor
  case rising =>
    rw [headOrder, List.pairwise_append, List.pairwise_flatMap]
    refine ⟨⟨?_, ?_⟩, ?_, ?_⟩
    · intro head _
      refine List.pairwise_of_forall_mem_list fun t ht u hu => Nat.le_of_eq ?_
      rw [claimed ht, claimed hu]
    · refine (pairwise_idxOf_of_nodup nodup).imp fun {head head'} before t ht u hu => ?_
      rw [claimed ht, claimed hu]
      exact Nat.le_of_lt before
    · refine List.pairwise_of_forall_mem_list fun t ht u hu => Nat.le_of_eq ?_
      rw [unclaimed ht, unclaimed hu]
    · -- a key that is not claimed has the last rank
      intro t _ u hu
      rw [unclaimed hu]
      exact List.idxOf_le_length
  case kept =>
    intro r
    refine filter_eq_of_perm_of_sublist (headOrder_perm nodup tokens) ?_
    by_cases inside : r < heads.length
    · -- the rank is that of one key
      have own : ∀ t ∈ tokens, decide (t.rankIn heads = r) → t.path.head = heads[r] := by
        intro t _ ht
        obtain rfl : t.rankIn heads = r := of_decide_eq_true ht
        exact (List.getElem_idxOf inside).symm
      exact filter_sublist_headOrder heads own
    · have last : ∀ t ∈ tokens, decide (t.rankIn heads = r) → decide (t.path.head ∉ heads) := by
        intro t _ ht
        obtain rfl : t.rankIn heads = r := of_decide_eq_true ht
        rw [Token.rankIn, List.idxOf_lt_length_iff] at inside
        exact decide_eq_true inside
      rw [← filter_filter_of_forall last]
      exact List.filter_sublist.trans (List.sublist_append_right _ _)

/-! ### Categories that have tokens -/

namespace Category

variable {c : Category} {tokens : List Token}

/-- Whether a category has members among tokens. -/
def isPresent (tokens : List Token) (c : Category) : Bool :=
  c.members tokens ≠ []

theorem isPresent_iff : isPresent tokens c ↔ ∃ t ∈ tokens, c.holds t.path.head := by
  rw [isPresent, decide_eq_true_iff, members, Ne, List.filter_eq_nil_iff]
  simp

/-- The groups are the categories that have members, each with these. -/
theorem groups_eq_map (tokens : List Token) :
    groups tokens =
      ((sectionsOf tokens).filter (isPresent tokens)).map fun c => (c, c.members tokens) := by
  rw [groups, List.filter_map]
  rfl

/-- Those that have members are standard categories and one for each other key. -/
theorem filter_isPresent_sectionsOf (tokens : List Token) :
    (sectionsOf tokens).filter (isPresent tokens) =
      standard.filter (isPresent tokens) ++ (otherHeads tokens).map catchAll := by
  rw [sectionsOf, List.filter_append, List.append_cancel_left_eq, List.filter_eq_self]
  intro c hc
  -- every other key is the first key of some token
  obtain ⟨key, hkey, rfl⟩ := List.mem_map.1 hc
  obtain ⟨t, ht, same⟩ := (mem_otherHeads.1 hkey).1
  exact isPresent_iff.2 ⟨t, ht, holds_catchAll_iff.2 same.symm⟩

/-- **Other keys stand as they are met.** -/
theorem pairwise_otherHeads (tokens : List Token) :
    (otherHeads tokens).Pairwise fun key key' =>
      tokens.findIdx (fun t => t.path.head = key) < tokens.findIdx fun t => t.path.head = key' := by
  have keys : otherHeads tokens =
      (tokens.filterMap fun t => Option.guard isOther t.path.head).eraseDups := by
    rw [otherHeads, ← List.filterMap_eq_filter, List.filterMap_map]
    rfl
  -- a key that is asked for has a section of its own
  have found : ∀ key ∈ otherHeads tokens,
      (fun t : Token => decide (Option.guard isOther t.path.head = some key)) =
        fun t => decide (t.path.head = key) := by
    intro key hkey
    funext t
    simp only [Option.guard_eq_some_iff, decide_eq_decide]
    exact and_iff_left_of_imp fun same => same ▸ (mem_otherHeads.1 hkey).2
  have inOrder := pairwise_findIdx_eraseDups (fun t => Option.guard isOther t.path.head) tokens
  rw [← keys] at inOrder
  refine inOrder.imp_of_mem fun {key key'} hkey hkey' before => ?_
  rwa [found key hkey, found key' hkey'] at before

/-- Only one category with the label of typography is ordered as typography is. -/
theorem order_of_label_ne (mem : c ∈ sectionsOf tokens) (other : c.label ≠ "typography")
    (members : List Token) : c.order members = headOrder c.heads members := by
  rw [order, if_neg]
  intro typography
  rcases List.mem_append.1 mem with standard | catchAll
  · have labelled : ∀ c ∈ Category.standard, c.kind = .typography → c.label = "typography" := by
      decide
    exact other (labelled c standard typography)
  · obtain ⟨key, -, rfl⟩ := List.mem_map.1 catchAll
    exact nomatch typography

/-- **Every token has one category.** -/
theorem existsUnique_holds {t : Token} (mem : t ∈ tokens) :
    ∃! c, c ∈ sectionsOf tokens ∧ c.holds t.path.head := by
  obtain ⟨c, hc, held⟩ := exists_holds mem
  refine ⟨c, ⟨hc, held⟩, ?_⟩
  rintro d ⟨hd, heldToo⟩
  -- both have the label that the key calls for
  refine List.inj_on_of_nodup_map (nodup_sectionLabels tokens) hd hc ?_
  rw [(holds_iff_label hd _).1 heldToo, (holds_iff_label hc _).1 held]

end Category

/-! ### Sections -/

/-- The tokens of a category that belong to a bucket, in their order. -/
def Category.membersIn (c : Category) (b : Bucket) (tokens : List Token) : List Token :=
  (c.members tokens).filter fun t => t.bucket = b

/-- A section **collects** the tokens of a category. It has the label of the category and is not
empty. In each bucket stand the declarations of the tokens that the category holds for it, every
token once; outside typography they are sorted by the places of their first keys among those that
the category claims. -/
structure LabelledSection.Collects (s : LabelledSection) (c : Category) (tokens : List Token) :
    Prop where
  label : s.label = c.label
  nonempty : ∃ b, s.declarations.get b ≠ []
  declares : ∀ b, ∃ placed : List Token,
    s.declarations.get b = placed.map (Token.declare s.label) ∧
      placed.Perm (c.membersIn b tokens) ∧
      (s.label ≠ "typography" →
        SortedBy (Token.rankIn c.heads) (c.membersIn b tokens) placed)

/-- **A sound partition.** The sections of an emission divide tokens among the standard categories
that are `present` and those of the other `keys`. -/
structure Emission.Partitions (e : Emission) (tokens : List Token) (present : List Category)
    (keys : List String) : Prop where
  /-- no label is met twice -/
  labels : (e.sections.map (·.label)).Nodup
  /-- the sections are those of the categories, in their order -/
  sections : List.Forall₂ (fun s c => s.Collects c tokens) e.sections
    (present ++ keys.map Category.catchAll)
  /-- every token belongs to one of them -/
  once : ∀ t ∈ tokens, ∃! c, c ∈ present ++ keys.map Category.catchAll ∧ c.holds t.path.head
  /-- standard categories keep their fixed order -/
  fixed : present.Sublist Category.standard
  /-- a standard category is there exactly if it has a token -/
  present_iff : ∀ c ∈ Category.standard, c ∈ present ↔ ∃ t ∈ tokens, c.holds t.path.head
  /-- any other first key has a section of its own -/
  keys_iff : ∀ key, key ∈ keys ↔
    (∃ t ∈ tokens, t.path.head = key) ∧ ∀ c ∈ Category.standard, ¬ c.holds key
  /-- these stand in the order in which they are first met -/
  met : keys.Pairwise fun key key' =>
    tokens.findIdx (fun t => t.path.head = key) < tokens.findIdx fun t => t.path.head = key'

/-- The section of a category that has members collects them. -/
theorem LabelledSection.collects_ofTokens {c : Category} {tokens : List Token}
    (mem : c ∈ Category.sectionsOf tokens) (present : c.isPresent tokens) :
    (LabelledSection.ofTokens c.label (c.order (c.members tokens))).Collects c tokens := by
  have perm := Category.order_perm (Category.nodup_heads mem) (c.members tokens)
  have declares : ∀ b, (LabelledSection.ofTokens c.label
      (c.order (c.members tokens))).declarations.get b =
        ((c.order (c.members tokens)).filter fun t => t.bucket = b).map
          (Token.declare c.label) := fun b => by rw [LabelledSection.ofTokens, ByBucket.get_of]
  refine ⟨rfl, ?_, fun b => ⟨_, declares b, perm.filter _, fun other => ?_⟩⟩
  · -- a member is declared in its own bucket
    obtain ⟨t, ht, held⟩ := Category.isPresent_iff.1 present
    have member : t ∈ c.order (c.members tokens) :=
      perm.mem_iff.2 (List.mem_filter.2 ⟨ht, held⟩)
    refine ⟨t.bucket, ?_⟩
    rw [declares, Ne, List.map_eq_nil_iff]
    exact List.ne_nil_of_mem (List.mem_filter.2 ⟨member, decide_eq_true rfl⟩)
  · rw [Category.order_of_label_ne mem other]
    exact (sortedBy_headOrder (Category.nodup_heads mem) _).filter _

/-- **The sections of an emission are a sound partition** of its tokens. -/
theorem Emission.exists_partitions (oklch : Bool) (tokens : List Token) :
    ∃ present keys, (Emission.ofTokens oklch tokens).Partitions tokens present keys := by
  -- the categories that have members, written in one way and in the other
  let categories := (Category.sectionsOf tokens).filter (Category.isPresent tokens)
  have split : categories = Category.standard.filter (Category.isPresent tokens) ++
      (Category.otherHeads tokens).map Category.catchAll :=
    Category.filter_isPresent_sectionsOf tokens
  have sections : (Emission.ofTokens oklch tokens).sections = categories.map fun c =>
      LabelledSection.ofTokens c.label (c.order (c.members tokens)) := by
    rw [Emission.ofTokens, orderedGroups, Category.groups_eq_map, List.map_map, List.map_map]
    rfl
  refine ⟨Category.standard.filter (Category.isPresent tokens), Category.otherHeads tokens, ?_⟩
  constructor
  case labels => exact nodup_labels oklch tokens
  case sections =>
    rw [← split, sections, List.forall₂_map_left_iff, List.forall₂_same]
    intro c hc
    obtain ⟨mem, present⟩ := List.mem_filter.1 hc
    exact LabelledSection.collects_ofTokens mem present
  case once =>
    intro t ht
    obtain ⟨c, ⟨hc, held⟩, only⟩ := Category.existsUnique_holds ht
    have present : c.isPresent tokens := Category.isPresent_iff.2 ⟨t, ht, held⟩
    rw [← split]
    refine ⟨c, ⟨List.mem_filter.2 ⟨hc, present⟩, held⟩, ?_⟩
    rintro d ⟨hd, heldToo⟩
    exact only d ⟨List.mem_of_mem_filter hd, heldToo⟩
  case fixed => exact List.filter_sublist
  case present_iff =>
    intro c hc
    rw [List.mem_filter, and_iff_right hc, Category.isPresent_iff]
  case keys_iff =>
    intro key
    rw [Category.mem_otherHeads, Category.isOther_iff]
  case met => exact Category.pairwise_otherHeads tokens

/-- A key that is the label of a standard category joins its section, behind the claimed keys.
Within sizes the keys are sorted, and a key that no category claims has its section at the end. -/
example :
    let token := fun (head name : String) => Token.mk ⟨head, [name]⟩ (.str "1") .other none
    let tokens := [token "space" "a", token "knob" "b", token "colors" "c", token "size" "d",
      token "color" "e", token "space" "f", token "dial" "g", token "knob" "h"]
    (Emission.ofTokens false tokens).sections.map
        (fun s => (s.label, (s.declarations.get .root).map Declaration.name)) =
      [("colors", ["color-e", "colors-c"]), ("sizing", ["d", "a", "f"]),
        ("knob", ["knob-b", "knob-h"]), ("dial", ["dial-g"])] := by
  decide +kernel

end DesignTokens
