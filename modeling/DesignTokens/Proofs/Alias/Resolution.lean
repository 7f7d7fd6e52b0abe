import DesignTokens.Alias.Tiers
import DesignTokens.Proofs.Traced
import Mathlib.Data.List.Forall2

/-!
# What a token set resolves to

The resolution of a token set, told without the run that computes it: every token keeps its place
and everything but its value, and its value becomes the expansion in the scopes of its tier.

* `Token.Expanded` — one token and what it becomes in given scopes.
* `TokenSet.ResolvesTo` — a token set and the tokens of it that reach the stylesheet, one rule for
  each layout.
* `TokenSet.resolve_eq_ok_iff` — the run returns exactly these tokens.
* `TokenSet.reaching` — the loaded tokens that must reach the stylesheet. They correspond one by
  one to the resolved ones (`ResolvesTo.forall₂_reaching`).
-/

namespace DesignTokens

/-- Where two lists correspond one by one, every member of the first has a partner in the second. -/
theorem exists_mem_of_mem_left {α β : Type} {R : α → β → Prop} {xs : List α} {ys : List β}
    (h : List.Forall₂ R xs ys) {x : α} (mem : x ∈ xs) : ∃ y ∈ ys, R x y := by
  induction h with
  | nil => cases mem
  | cons related _ ih =>
    rcases List.mem_cons.1 mem with rfl | mem
    · exact ⟨_, List.mem_cons_self, related⟩
    · obtain ⟨y, hy, related⟩ := ih mem
      exact ⟨y, List.mem_cons_of_mem _ hy, related⟩

/-- What corresponds to two lists, one after the other, has two parts. -/
theorem exists_parts_of_append_left {α β : Type} {R : α → β → Prop} {xs ys : List α} {zs : List β}
    (h : List.Forall₂ R (xs ++ ys) zs) :
    ∃ as bs, zs = as ++ bs ∧ List.Forall₂ R xs as ∧ List.Forall₂ R ys bs := by
  induction xs generalizing zs with
  | nil => exact ⟨[], zs, rfl, .nil, h⟩
  | cons x xs ih =>
    rcases h with _ | ⟨related, later⟩
    obtain ⟨as, bs, rfl, hxs, hys⟩ := ih later
    exact ⟨_ :: as, bs, rfl, .cons related hxs, hys⟩

namespace Token

variable {scopes : Scopes}

/-- What a loaded token becomes in scopes: itself, with its value expanded. -/
def Expanded (scopes : Scopes) (loaded t : Token) : Prop :=
  ∃ value, (Alias.expand scopes loaded.path.dotted loaded.value).result = .ok value ∧
    t = { loaded with value := value }

theorem expand_eq_ok_iff {loaded t : Token} :
    (loaded.expand scopes).result = .ok t ↔ Expanded scopes loaded t := by
  rw [expand, Traced.bind_eq_ok_iff]
  refine exists_congr fun value => and_congr_right fun _ => ?_
  rw [Traced.result_pure, Except.ok.injEq, eq_comm]

/-- **Tokens are expanded one by one.** -/
theorem expandAll_eq_ok_iff {loaded tokens : List Token} :
    (expandAll scopes loaded).result = .ok tokens ↔
      List.Forall₂ (Expanded scopes) loaded tokens := by
  induction loaded generalizing tokens with
  | nil => rw [expandAll, Traced.result_pure, Except.ok.injEq, List.forall₂_nil_left_iff, eq_comm]
  | cons t rest ih =>
    rw [expandAll, Traced.bind_eq_ok_iff]
    refine ⟨?_, ?_⟩
    · rintro ⟨e, he, hrest⟩
      obtain ⟨more, hmore, htokens⟩ := Traced.bind_eq_ok_iff.1 hrest
      obtain rfl := Except.ok.inj htokens
      exact .cons (expand_eq_ok_iff.1 he) (ih.1 hmore)
    · rintro (_ | ⟨he, hmore⟩)
      exact ⟨_, expand_eq_ok_iff.2 he, Traced.bind_eq_ok_iff.2 ⟨_, ih.2 hmore, rfl⟩⟩

end Token

namespace TokenSet

variable {set expanded : TokenSet} {tokens : List Token}

/-- The tiers are expanded in order, each against the expanded tokens of those before it. -/
theorem expandTiers_eq_ok_iff :
    set.expandTiers.result = .ok expanded ↔
      ∃ primitives semantic component,
        List.Forall₂ (Token.Expanded []) set.primitives primitives ∧
        List.Forall₂ (Token.Expanded [Scope.ofTokens primitives]) set.semantic semantic ∧
        List.Forall₂ (Token.Expanded [Scope.ofTokens semantic, Scope.ofTokens primitives])
          set.component component ∧
        expanded =
          { set with primitives := primitives, semantic := semantic, component := component } := by
  simp only [expandTiers, Traced.bind_eq_ok_iff, Token.expandAll_eq_ok_iff, Traced.result_pure,
    Except.ok.injEq]
  refine ⟨?_, ?_⟩
  · rintro ⟨primitives, hp, semantic, hs, component, hc, rfl⟩
    exact ⟨primitives, semantic, component, hp, hs, hc, rfl⟩
  · rintro ⟨primitives, semantic, component, hp, hs, hc, rfl⟩
    exact ⟨primitives, hp, semantic, hs, component, hc, rfl⟩

/-- **A token set resolves to tokens** as its layout says. -/
inductive ResolvesTo (set : TokenSet) : List Token → Prop
  /-- legacy tokens have no aliases and stay as they are -/
  | legacy (layout : set.layout = .legacy) : ResolvesTo set set.primitives
  /-- flat tokens are expanded against the values as they are written -/
  | flatAlias {tokens : List Token} (layout : set.layout = .flatAlias)
      (all : List.Forall₂ (Token.Expanded [Scope.ofTokens set.primitives]) set.primitives
        tokens) : ResolvesTo set tokens
  /-- each tier is expanded against the expanded tokens of the tiers before it -/
  | threeTier {primitives semantic component : List Token} (layout : set.layout = .threeTier)
      (first : List.Forall₂ (Token.Expanded []) set.primitives primitives)
      (second : List.Forall₂ (Token.Expanded [Scope.ofTokens primitives]) set.semantic semantic)
      (third : List.Forall₂
        (Token.Expanded [Scope.ofTokens semantic, Scope.ofTokens primitives])
        set.component component) : ResolvesTo set (semantic ++ component)

/-- **The run returns exactly what a set resolves to.** -/
theorem resolve_eq_ok_iff : set.resolve.result = .ok tokens ↔ set.ResolvesTo tokens := by
  unfold resolve
  refine ⟨?_, ?_⟩
  · intro h
    cases hlayout : set.layout with
    | legacy =>
      simp only [hlayout, Traced.result_pure, Except.ok.injEq] at h
      exact h ▸ .legacy hlayout
    | flatAlias =>
      simp only [hlayout, Token.expandAll_eq_ok_iff] at h
      exact .flatAlias hlayout h
    | threeTier =>
      simp only [hlayout, Traced.bind_eq_ok_iff, expandTiers_eq_ok_iff, Traced.result_pure,
        Except.ok.injEq] at h
      obtain ⟨_, ⟨primitives, semantic, component, hp, hs, hc, rfl⟩, rfl⟩ := h
      exact .threeTier hlayout hp hs hc
  · rintro (hlayout | ⟨hlayout, all⟩ | ⟨hlayout, hp, hs, hc⟩)
    · simp [hlayout]
    · simpa [hlayout, Token.expandAll_eq_ok_iff] using all
    · simp only [hlayout, Traced.bind_eq_ok_iff]
      exact ⟨_, expandTiers_eq_ok_iff.2 ⟨_, _, _, hp, hs, hc, rfl⟩, rfl⟩

/-- The loaded tokens that must reach the stylesheet: in the three-tier layout those of the last
two tiers, in the other layouts all. -/
def reaching (set : TokenSet) : List Token :=
  match set.layout with
  | .threeTier => set.semantic ++ set.component
  | .legacy | .flatAlias => set.primitives

/-- **The resolved tokens are the loaded ones that must reach the stylesheet**, one by one and in
their order, with nothing but the value changed. -/
theorem ResolvesTo.forall₂_reaching (h : set.ResolvesTo tokens) :
    List.Forall₂ (fun loaded t => ∃ value, t = { loaded with value := value }) set.reaching
      tokens := by
  have keeps : ∀ {scopes loaded t}, Token.Expanded scopes loaded t →
      ∃ value, t = { loaded with value := value } :=
    fun ⟨value, _, ht⟩ => ⟨value, ht⟩
  rcases h with hlayout | ⟨hlayout, all⟩ | ⟨hlayout, -, hs, hc⟩
  · rw [reaching, hlayout]
    exact List.forall₂_same.2 fun t _ => ⟨t.value, rfl⟩
  · rw [reaching, hlayout]
    exact all.imp fun _ _ => keeps
  · rw [reaching, hlayout]
    exact List.rel_append (hs.imp fun _ _ => keeps) (hc.imp fun _ _ => keeps)

end TokenSet

end DesignTokens
