import DesignTokens.Generation
import DesignTokens.Proofs.Alias.Resolution
import DesignTokens.Proofs.Stylesheet.Placement

/-!
# What a generated stylesheet holds

A run that ends with a stylesheet has loaded a token set, resolved it, and declared what it
resolved to (`generate_eq_ok_iff`). No stage loses a token or makes one up, so the stylesheet
accounts for the tokens that were loaded: `Accounts` says what that means, and
`generate_accounts` that it holds, whatever the files say.
-/

namespace DesignTokens

/-- The stylesheet of resolved tokens of a set. -/
def Stylesheet.ofTokens (o : Options) (set : TokenSet) (tokens : List Token) : Stylesheet :=
  { layout := set.layout
    css := (Emission.ofTokens o.oklch tokens).css o.oklch o.modernCss
    stats := Stats.of set (Emission.ofTokens o.oklch tokens) }

variable {t : FileTree} {o : Options} {root : Location} {set : TokenSet} {tokens : List Token}
  {sheet : Stylesheet}

/-! ### The stages -/

/-- A source without tiers is loaded into the first tier. -/
theorem loadLayout_tiers {layout : Layout} (loaded : (loadLayout t root layout).result = .ok set) :
    set.layout = layout ∧ (layout ≠ .threeTier → set.semantic = [] ∧ set.component = []) := by
  cases layout <;>
    simp only [loadLayout, loadTiers, Traced.bind_eq_ok_iff, Traced.result_pure,
      Except.ok.injEq] at loaded
  case threeTier =>
    obtain ⟨primitives, -, semantic, -, component, -, rfl⟩ := loaded
    exact ⟨rfl, fun flat => absurd rfl flat⟩
  case flatAlias | legacy =>
    obtain ⟨tokens, -, rfl⟩ := loaded
    exact ⟨rfl, fun _ => ⟨rfl, rfl⟩⟩

/-- Only the three-tier layout fills more than the first tier. -/
theorem loadSource_tiers (loaded : (loadSource t root).result = .ok set)
    (flat : set.layout ≠ .threeTier) : set.semantic = [] ∧ set.component = [] := by
  simp only [loadSource, loadTokens, Traced.bind_eq_ok_iff, Traced.result_pure,
    Except.ok.injEq] at loaded
  obtain ⟨layout, -, -, -, set, loaded, -, -, rfl⟩ := loaded
  obtain ⟨rfl, tiers⟩ := loadLayout_tiers loaded
  exact tiers flat

theorem resolveSet_eq_ok_iff :
    (resolveSet set).result = .ok tokens ↔ set.ResolvesTo tokens := by
  rw [resolveSet, Traced.bind_eq_ok_iff, ← TokenSet.resolve_eq_ok_iff]
  refine ⟨?_, ?_⟩
  · rintro ⟨tokens', resolved, returned⟩
    rw [Traced.mapError_eq_ok_iff, Traced.result_mapLog] at resolved
    split at returned
    all_goals obtain rfl := Except.ok.inj returned
    all_goals exact resolved
  · intro resolved
    refine ⟨tokens, by rwa [Traced.mapError_eq_ok_iff, Traced.result_mapLog], ?_⟩
    split <;> rfl

theorem resolveSet_eq_error_iff {g : GenerationError} :
    (resolveSet set).result = .error g ↔
      ∃ cycle, set.resolve.result = .error cycle ∧ g = .cycle cycle.chain := by
  rw [resolveSet, Traced.bind_eq_error_iff, Traced.mapError_eq_error_iff, Traced.result_mapLog]
  refine or_iff_left ?_
  -- what is done with the tokens does not fail
  rintro ⟨tokens, -, failed⟩
  split at failed
  all_goals cases failed

/-- **A run ends with a stylesheet** exactly if its source can be loaded and resolved, and the
stylesheet is that of the resolved tokens. -/
theorem generate_eq_ok_iff :
    (generate t o).result = .ok sheet ↔
      ∃ set tokens, (loadSource t o.tokensDir).result = .ok set ∧ set.ResolvesTo tokens ∧
        sheet = Stylesheet.ofTokens o set tokens := by
  -- making declarations never fails: a colour that cannot be converted only gives a warning
  have emitted : ∀ tokens, (emitTokens o tokens).result = .ok (Emission.ofTokens o.oklch tokens) :=
    fun _ => rfl
  simp only [generate, Traced.bind_eq_ok_iff, Traced.mapError_eq_ok_iff, resolveSet_eq_ok_iff,
    emitted, Except.ok.injEq, Traced.result_pure]
  refine ⟨?_, ?_⟩
  · rintro ⟨set, loaded, tokens, resolved, _, rfl, rfl⟩
    exact ⟨set, tokens, loaded, resolved, rfl⟩
  · rintro ⟨set, tokens, loaded, resolved, rfl⟩
    exact ⟨set, loaded, tokens, resolved, _, rfl, rfl⟩

/-- **A run fails** exactly if its source cannot be loaded, or if it cannot be resolved because an
alias leads back to itself. -/
theorem generate_eq_error_iff {g : GenerationError} :
    (generate t o).result = .error g ↔
      (∃ e, (loadSource t o.tokensDir).result = .error e ∧ g = .load e) ∨
        ∃ set cycle, (loadSource t o.tokensDir).result = .ok set ∧
          set.resolve.result = .error cycle ∧ g = .cycle cycle.chain := by
  have emitted : ∀ tokens, (emitTokens o tokens).result = .ok (Emission.ofTokens o.oklch tokens) :=
    fun _ => rfl
  simp only [generate, Traced.bind_eq_error_iff, Traced.mapError_eq_error_iff,
    Traced.mapError_eq_ok_iff, resolveSet_eq_error_iff, emitted, Traced.result_pure, reduceCtorEq,
    and_false, exists_false, or_false, exists_and_left]

/-! ### Nothing is lost -/

/-- **A stylesheet accounts for the tokens of a set.** The tokens that must reach the stylesheet
correspond one by one to resolved tokens, the declarations of the stylesheet correspond one by one
to these, and the counts say how many there are. -/
structure Accounts (o : Options) (set : TokenSet) (tokens : List Token) (sheet : Stylesheet) :
    Prop where
  /-- without tiers all tokens that were loaded must reach the stylesheet -/
  all : set.layout ≠ .threeTier →
    set.reaching = set.primitives ++ set.semantic ++ set.component
  /-- the tokens are what the set resolves to -/
  resolved : set.ResolvesTo tokens
  /-- resolving keeps every token, with nothing but its value changed -/
  kept : List.Forall₂ (fun loaded t => ∃ value, t = { loaded with value := value }) set.reaching
    tokens
  /-- the stylesheet is made from these tokens -/
  written : sheet = Stylesheet.ofTokens o set tokens
  /-- every declaration shows a token of its own: its name and value, in its section and bucket -/
  declared : ∃ order : List Token, order.Perm tokens ∧
    List.Forall₂ Placement.Shows (Emission.ofTokens o.oklch tokens).placements order
  /-- the declarations are counted -/
  counted : sheet.stats.shared + sheet.stats.dark + sheet.stats.light = set.reaching.length

/-- **No token is lost or doubled between loading and the stylesheet.** -/
theorem generate_accounts (ended : (generate t o).result = .ok sheet) :
    ∃ set tokens, (loadSource t o.tokensDir).result = .ok set ∧ Accounts o set tokens sheet := by
  obtain ⟨set, tokens, loaded, resolved, written⟩ := generate_eq_ok_iff.mp ended
  have kept := resolved.forall₂_reaching
  have declared := exists_forall₂_shows o.oklch tokens
  refine ⟨set, tokens, loaded, ⟨?_, resolved, kept, written, declared, ?_⟩⟩
  · -- the other two tiers are empty
    intro flat
    obtain ⟨semantic, component⟩ := loadSource_tiers loaded flat
    rw [semantic, component, List.append_nil, List.append_nil]
    unfold TokenSet.reaching
    split
    · next tiers => exact absurd tiers flat
    · rfl
    · rfl
  · obtain ⟨order, rearranged, shown⟩ := declared
    rw [kept.length_eq, written, ← rearranged.length_eq, ← shown.length_eq, length_placements]
    rfl

/-- Two files set the size of the same style. The second size is left over when the style takes its
tokens, and it is declared all the same, under the same name and with its own value. -/
theorem repeated_size_is_declared_twice :
    let size := fun value : String =>
      Node.file ("\x7b\"font\":\x7b\"size\":\x7b\"sm\":\x7b\"$value\":\"" ++ value ++
        "\"\x7d\x7d\x7d\x7d").toUTF8
    let t : FileTree :=
      { nodes := [(["tokens"], .directory), (["tokens", "a.tokens.json"], size "12px"),
          (["tokens", "b.tokens.json"], size "14px")]
        workingDirectory := [] }
    let declared := fun value : String =>
      Placement.mk "typography" .root
        { name := "font-size-sm", value := value, sectionLabel := "typography" }
    ∃ sheet, (generate t {}).result = .ok sheet ∧
      sheet.stats = ⟨⟨2, 0, 0⟩, 2, 0, 0, 0⟩ ∧
      ∃ set tokens, (loadSource t (Location.ofString "tokens")).result = .ok set ∧
        Accounts {} set tokens sheet ∧
        (Emission.ofTokens false tokens).placements = [declared "12px", declared "14px"] := by
  intro size t declared
  have stats : (generate t {}).result.toOption.map Stylesheet.stats =
      some ⟨⟨2, 0, 0⟩, 2, 0, 0, 0⟩ := by
    decide +kernel
  have placements : ((loadSource t (Location.ofString "tokens")).result.toOption.bind
      fun set => set.resolve.result.toOption.map fun tokens =>
        (Emission.ofTokens false tokens).placements) = some [declared "12px", declared "14px"] := by
    decide +kernel
  obtain ⟨sheet, ended, counts⟩ := Option.map_eq_some_iff.mp stats
  have ended := Traced.toOption_eq_some_iff.mp ended
  obtain ⟨set, tokens, loaded, accounts⟩ := generate_accounts ended
  refine ⟨sheet, ended, counts, set, tokens, loaded, accounts, ?_⟩
  rw [Traced.toOption_eq_some_iff.mpr loaded, Option.bind_some,
    Traced.toOption_eq_some_iff.mpr (TokenSet.resolve_eq_ok_iff.mpr accounts.resolved),
    Option.map_some] at placements
  exact Option.some.inj placements

end DesignTokens
