import DesignTokens.Proofs.Alias.Independence
import DesignTokens.Proofs.Alias.Warnings
import DesignTokens.Proofs.Stylesheet.Cascade
import DesignTokens.Proofs.Stylesheet.Placement

/-!
# The order of tokens

In the flat layout the files are read one after the other and their tokens stand in one list. If no
two tokens have the same dotted path, the order of this list decides nothing but the order of what
comes out: every token becomes what it becomes in any other order, and the declarations, the
converted colours and the warnings are the same ones up to order.

Order could come in at two places, and at each it is one fact that keeps it out.

* A scope answers with the last token of a path. With distinct paths there is only one, so two
  arrangements of the same tokens are the same scope (`Token.find?_of_perm`), and every value is
  expanded alike in both (`Token.expand_eq_of_find?_eq`). Which cycle is met first depends on the
  order, but not whether there is one: a run fails as soon as any of its tokens does
  (`Token.expandAll_eq_ok_iff_becomes`).
* Sections and text styles are sorted by what is met first, but sorting only rearranges
  (`Emission.sameUpToOrder_ofTokens`, `colorWarnings_perm`).
-/

namespace DesignTokens

/-- One element has one arrangement. -/
theorem eq_of_perm_of_length_le_one {α : Type} {l l' : List α} (perm : l'.Perm l)
    (short : l.length ≤ 1) : l' = l := by
  rcases l with _ | ⟨x, _ | ⟨y, rest⟩⟩
  · exact perm.eq_nil
  · exact perm.eq_singleton
  · simp at short

/-! ### Scopes -/

namespace Token

variable {scopes scopes' : Scopes} {loaded loaded' tokens : List Token}

/-- Of tokens with distinct dotted paths at most one has a given path. -/
theorem length_filter_at_le_one (distinct : (loaded.map fun t => t.path.dotted).Nodup)
    (path : String) : (loaded.filter fun t => t.path.dotted = path).length ≤ 1 := by
  have atMostOnce := List.nodup_iff_count_le_one.1 distinct path
  rw [List.count, List.countP_map] at atMostOnce
  rw [← List.countP_eq_length_filter]
  refine le_of_eq_of_le (List.countP_congr fun t _ => ?_) atMostOnce
  rw [decide_eq_true_iff, Function.comp_apply, beq_iff_eq]

/-- **A scope of distinct paths has no order.** -/
theorem find?_of_perm (distinct : (loaded.map fun t => t.path.dotted).Nodup)
    (perm : loaded'.Perm loaded) (path : String) :
    Scopes.find? [Scope.ofTokens loaded'] path = Scopes.find? [Scope.ofTokens loaded] path := by
  have same : (loaded'.filter fun t => t.path.dotted = path) =
      loaded.filter fun t => t.path.dotted = path :=
    eq_of_perm_of_length_le_one (perm.filter _) (length_filter_at_le_one distinct path)
  simp only [Scopes.find?_singleton, find?_ofTokens, lastAt?, same]

/-- Scopes that agree on all paths expand a token alike, with the same warnings. -/
theorem expand_eq_of_find?_eq (agree : ∀ path, scopes.find? path = scopes'.find? path)
    (t : Token) : t.expand scopes = t.expand scopes' := by
  have value : Alias.expand scopes t.path.dotted t.value =
      Alias.expand scopes' t.path.dotted t.value :=
    Alias.expand_eq_of_agree fun path _ => agree path
  rw [expand, expand, value]

theorem warnings_eq_of_find?_eq (agree : ∀ path, scopes.find? path = scopes'.find? path)
    (t : Token) : warnings scopes t = warnings scopes' t := by
  have missing : t.value.missing scopes = t.value.missing scopes' :=
    List.filter_congr fun r _ => by rw [agree]
  rw [warnings, warnings, missing]

/-! ### What tokens become -/

/-- What a token becomes in scopes, if it can be expanded; otherwise it stays. -/
def becomes (scopes : Scopes) (t : Token) : Token :=
  (t.expand scopes).result.toOption.getD t

theorem becomes_eq_of_find?_eq (agree : ∀ path, scopes.find? path = scopes'.find? path) :
    becomes scopes = becomes scopes' := by
  funext t
  rw [becomes, becomes, expand_eq_of_find?_eq agree]

theorem Expanded.eq_becomes {loaded t : Token} (h : Expanded scopes loaded t) :
    t = becomes scopes loaded := by
  rw [becomes, expand_eq_ok_iff.2 h]
  rfl

/-- **Tokens are expanded one by one**, and a run over them fails as soon as one of them does. -/
theorem expandAll_eq_ok_iff_becomes :
    (expandAll scopes loaded).result = .ok tokens ↔
      (∀ t ∈ loaded, Expanded scopes t (becomes scopes t)) ∧
        tokens = loaded.map (becomes scopes) := by
  rw [expandAll_eq_ok_iff]
  refine ⟨fun all => ⟨fun t ht => ?_, ?_⟩, ?_⟩
  · obtain ⟨t', -, h⟩ := exists_mem_of_mem_left all ht
    exact h.eq_becomes ▸ h
  · have same : List.Forall₂ (· = ·) (loaded.map (becomes scopes)) tokens :=
      List.forall₂_map_left_iff.2 (all.imp fun _ _ h => h.eq_becomes.symm)
    rw [List.forall₂_eq_eq_eq] at same
    exact same.symm
  · rintro ⟨all, rfl⟩
    rw [List.forall₂_map_right_iff, List.forall₂_same]
    exact all

end Token

/-! ### Emissions -/

/-- Two emissions hold the same declarations, in the same sections and buckets, and the same
converted colours, but not necessarily in the same order. -/
structure Emission.SameUpToOrder (e e' : Emission) : Prop where
  placements : e.placements.Perm e'.placements
  derivations : e.derivations.Perm e'.derivations

variable {tokens tokens' : List Token}

theorem emissionOrder_perm_of_perm (perm : tokens.Perm tokens') :
    (emissionOrder tokens).Perm (emissionOrder tokens') :=
  (emissionOrder_perm tokens).trans (perm.trans (emissionOrder_perm tokens').symm)

/-- **Rearranged tokens are emitted alike up to order**: whatever the sections and the text styles
make of what is met first, they only rearrange. -/
theorem Emission.sameUpToOrder_ofTokens (oklch : Bool) (perm : tokens.Perm tokens') :
    (Emission.ofTokens oklch tokens).SameUpToOrder (Emission.ofTokens oklch tokens') where
  placements := by
    have places := perm.map Token.placement
    exact (placements_perm oklch tokens).trans (places.trans (placements_perm oklch tokens').symm)
  derivations := by
    cases oklch with
    | false => exact .nil
    | true => exact (emissionOrder_perm_of_perm perm).filterMap Token.derivation?

theorem colorWarnings_perm (checkColors : Bool) (perm : tokens.Perm tokens') :
    (colorWarnings checkColors tokens).Perm (colorWarnings checkColors tokens') := by
  cases checkColors with
  | false => exact .nil
  | true => exact (emissionOrder_perm_of_perm perm).filterMap Token.colorWarning?

/-! ### Flat token sets -/

namespace TokenSet

variable {set set' : TokenSet}

/-- A flat token set resolves exactly if each of its tokens can be expanded. -/
theorem resolve_eq_ok_iff_becomes (layout : set.layout = .flatAlias) :
    set.resolve.result = .ok tokens ↔
      (∀ t ∈ set.primitives, Token.Expanded [Scope.ofTokens set.primitives] t
        (t.becomes [Scope.ofTokens set.primitives])) ∧
        tokens = set.primitives.map (Token.becomes [Scope.ofTokens set.primitives]) := by
  simp only [resolve, layout]
  exact Token.expandAll_eq_ok_iff_becomes

/-- A rearranged set resolves exactly if each of its tokens can be expanded where it stood. -/
theorem resolve_eq_ok_iff_of_perm (layout' : set'.layout = .flatAlias)
    (distinct : (set.primitives.map fun t => t.path.dotted).Nodup)
    (perm : set'.primitives.Perm set.primitives) :
    set'.resolve.result = .ok tokens' ↔
      (∀ t ∈ set.primitives, Token.Expanded [Scope.ofTokens set.primitives] t
        (t.becomes [Scope.ofTokens set.primitives])) ∧
        tokens' = set'.primitives.map (Token.becomes [Scope.ofTokens set.primitives]) := by
  have agree := Token.find?_of_perm distinct perm
  rw [resolve_eq_ok_iff_becomes layout', Token.becomes_eq_of_find?_eq agree]
  refine and_congr_left fun _ => ?_
  simp only [← Token.expand_eq_ok_iff, Token.expand_eq_of_find?_eq agree, perm.mem_iff]

/-- **The order of tokens decides nothing but order.** Let a flat token set have tokens with
distinct dotted paths, and let another set have the same tokens in another order. Then one of them
fails exactly if the other does. If they resolve, every token becomes the same in both, the warnings
are the same up to order, and so are the declarations with their places, the converted colours and
the warnings about colours. -/
theorem order_keeps_meaning (layout : set.layout = .flatAlias) (layout' : set'.layout = .flatAlias)
    (distinct : (set.primitives.map fun t => t.path.dotted).Nodup)
    (perm : set'.primitives.Perm set.primitives) :
    ((∃ e, set'.resolve.result = .error e) ↔ ∃ e, set.resolve.result = .error e) ∧
    ∀ tokens tokens', set.resolve.result = .ok tokens → set'.resolve.result = .ok tokens' →
      (∃ becomes : Token → Token,
        (∀ t ∈ set.primitives, Token.Expanded [Scope.ofTokens set.primitives] t (becomes t)) ∧
        tokens = set.primitives.map becomes ∧ tokens' = set'.primitives.map becomes) ∧
      set'.resolve.log.Perm set.resolve.log ∧
      ∀ oklch checkColors,
        (Emission.ofTokens oklch tokens').SameUpToOrder (Emission.ofTokens oklch tokens) ∧
        (colorWarnings checkColors tokens').Perm (colorWarnings checkColors tokens) := by
  have resolves := fun tokens => @resolve_eq_ok_iff_becomes tokens set layout
  have resolves' := fun tokens' =>
    @resolve_eq_ok_iff_of_perm tokens' set set' layout' distinct perm
  refine ⟨?_, fun tokens tokens' ok ok' => ?_⟩
  · -- both resolve exactly if the same tokens can be expanded
    rw [Traced.exists_error_iff, Traced.exists_error_iff]
    simp only [resolves, resolves', exists_and_left, exists_eq, and_true]
  · obtain ⟨all, htokens⟩ := (resolves tokens).1 ok
    obtain ⟨-, htokens'⟩ := (resolves' tokens').1 ok'
    have permTokens : tokens'.Perm tokens := by
      rw [htokens, htokens']
      exact perm.map _
    have emitted := fun oklch => Emission.sameUpToOrder_ofTokens oklch permTokens
    have warnedOf := fun checkColors => colorWarnings_perm checkColors permTokens
    refine ⟨⟨_, all, htokens, htokens'⟩, ?_, fun oklch checkColors =>
      ⟨emitted oklch, warnedOf checkColors⟩⟩
    -- each token warns of the same missing paths in both
    have warned : Token.warnings [Scope.ofTokens set'.primitives] =
        Token.warnings [Scope.ofTokens set.primitives] :=
      funext (Token.warnings_eq_of_find?_eq (Token.find?_of_perm distinct perm))
    simp only [resolve, layout, layout'] at ok ok' ⊢
    rw [Token.log_expandAll_of_ok ok, Token.log_expandAll_of_ok ok', warned]
    exact perm.flatMap_right _

/-- Two sizes of one style stand in two files, and an alias names the second. Read in the other
order, the other size is taken forward: the declarations change places, and as both set the same
property a page shows the other size; but every token becomes what it became. -/
theorem swapped_sizes_change_places :
    let size (keys : List String) (value : Value) : Token :=
      { path := ⟨"font", "size" :: keys⟩, value := value, type := .dimension }
    let first := size ["a", "b"] (.int 1)
    let second := size ["a-b"] (.str (Alias.aliasText "space.md"))
    let space : Token := { path := ⟨"space", ["md"]⟩, value := .int 2, type := .dimension }
    let set : TokenSet := { layout := .flatAlias, primitives := [first, second, space] }
    let set' : TokenSet := { layout := .flatAlias, primitives := [space, second, first] }
    let tokens := [first, size ["a-b"] (.int 2), space]
    let tokens' := [space, size ["a-b"] (.int 2), first]
    let e := Emission.ofTokens false tokens
    let e' := Emission.ofTokens false tokens'
    set.layout = .flatAlias ∧ set'.layout = .flatAlias ∧
    (set.primitives.map fun t => t.path.dotted).Nodup ∧ set'.primitives.Perm set.primitives ∧
    set.resolve.result = .ok tokens ∧ set'.resolve.result = .ok tokens' ∧
    e.computed? false .dark "font-size-a-b" = some "2px" ∧
    e'.computed? false .dark "font-size-a-b" = some "1px" ∧ e'.SameUpToOrder e := by
  intro size first second space set set' tokens tokens' e e'
  have distinct : (set.primitives.map fun t => t.path.dotted).Nodup := by decide +kernel
  have perm : set'.primitives.Perm set.primitives := by decide +kernel
  have ok : set.resolve.result = .ok tokens := Traced.toOption_eq_some_iff.1 (by decide +kernel)
  have ok' : set'.resolve.result = .ok tokens' := Traced.toOption_eq_some_iff.1 (by decide +kernel)
  obtain ⟨-, resolved⟩ := order_keeps_meaning rfl rfl distinct perm
  obtain ⟨-, -, emitted⟩ := resolved tokens tokens' ok ok'
  exact ⟨rfl, rfl, distinct, perm, ok, ok', by decide +kernel, by decide +kernel,
    (emitted false false).1⟩

end TokenSet

end DesignTokens
