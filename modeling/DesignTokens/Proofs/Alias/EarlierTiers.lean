import DesignTokens.Proofs.Alias.Chains
import DesignTokens.Proofs.Alias.Resolution

/-!
# Results of earlier tiers

A scope holds what the tokens of an earlier tier have become. Looking such a result up does not
end there, though: what was found is expanded again, in the scopes of the tier that asks. So an
alias to a token of an earlier tier takes the result of that token when the second expansion
leaves it as it is, and only then.

* `TokenSet.scopesOf` and `TokenSet.standsFor?` — what the tokens of a tier are looked up in, and
  the token that a path stands for there: the last one of its path in the nearest earlier tier.
* `Token.expand_alias_eq_ok_iff` — an alias becomes what the later scopes make of the result.
* `TokenSet.alias_takes_earlier_result_iff` — when that is the result itself.

What a second expansion changes is alias text that the earlier tier left, because it knew no such
path. A primitive may name a path that only a semantic token has: the primitive keeps the text, as
a reference to a later tier is no reference, but a component token that names the primitive gets
the value of the semantic one (`TokenSet.earlier_result_is_expanded_again`).
-/

namespace DesignTokens

namespace Token

/-- The last token with a dotted path. -/
def lastAt? (path : String) (tokens : List Token) : Option Token :=
  (tokens.filter fun t => t.path.dotted = path).getLast?

/-- In a scope a path stands for the value of its last token. -/
theorem find?_ofTokens (path : String) (tokens : List Token) :
    (Scope.ofTokens tokens).find? path = (lastAt? path tokens).map (·.value) := by
  induction tokens with
  | nil => rfl
  | cons t rest ih =>
    have step : (Scope.ofTokens (t :: rest)).find? path =
        ((Scope.ofTokens rest).find? path).or
          (if t.path.dotted = path then some t.value else none) := by
      change Scope.find? path ((t.path.dotted, t.value) :: Scope.ofTokens rest) = _
      rw [Scope.find?]
      cases (Scope.ofTokens rest).find? path <;> rfl
    rw [step, ih, lastAt?, lastAt?, List.filter_cons]
    by_cases same : t.path.dotted = path
    · rw [if_pos same, if_pos (by simpa using same), List.getLast?_cons]
      cases (rest.filter fun t => t.path.dotted = path).getLast? <;> rfl
    · rw [if_neg same, if_neg (by simpa using same), Option.or_none]

/-- **An alias becomes what the scopes make of the value that it names.** -/
theorem expand_alias_eq_ok_iff {scopes : Scopes} {t : Token} {path : String} {target w : Value}
    (name : Alias.IsAliasName path) (whole : t.value = .str (Alias.aliasText path))
    (found : scopes.find? path = some target) :
    (t.expand scopes).result = .ok { t with value := w } ↔
      (Alias.expand scopes t.path.dotted target).result = .ok w := by
  rw [expand_eq_ok_iff, Expanded, whole, Alias.expand_aliasText name]
  refine ⟨?_, ?_⟩
  · rintro ⟨value, ok, same⟩
    obtain rfl : w = value := congrArg Token.value same
    exact (Alias.result_expandAlias_nil_of_found found).1 ok
  · exact fun ok => ⟨w, (Alias.result_expandAlias_nil_of_found found).2 ok, rfl⟩

/-- An alias fails exactly when the value that it names reaches a cycle. -/
theorem expand_alias_error_iff {scopes : Scopes} {t : Token} {path : String} {target : Value}
    (name : Alias.IsAliasName path) (whole : t.value = .str (Alias.aliasText path))
    (found : scopes.find? path = some target) :
    (∃ e, (t.expand scopes).result = .error e) ↔ scopes.ReachesCycle target := by
  rw [← @Alias.expand_error_iff scopes t.path.dotted, Traced.exists_error_iff,
    Traced.exists_error_iff, not_iff_not]
  refine ⟨?_, ?_⟩
  · rintro ⟨e, he⟩
    obtain ⟨w, -, rfl⟩ := expand_eq_ok_iff.1 he
    exact ⟨w, (expand_alias_eq_ok_iff name whole found).1 he⟩
  · rintro ⟨w, ok⟩
    exact ⟨_, (expand_alias_eq_ok_iff name whole found).2 ok⟩

end Token

namespace Scopes

theorem find?_cons (scope : Scope) (rest : Scopes) (path : String) :
    find? (scope :: rest) path = (scope.find? path).or (find? rest path) := by
  rw [find?, List.findSome?_cons]
  cases scope.find? path <;> rfl

theorem find?_singleton (scope : Scope) (path : String) : find? [scope] path = scope.find? path :=
  List.findSome?_singleton

end Scopes

namespace TokenSet

/-- The tokens of a tier. -/
def tokensOf (s : TokenSet) : Tier → List Token
  | .primitives => s.primitives
  | .semantic => s.semantic
  | .component => s.component

/-- What the tokens of a tier are looked up in, given what the tokens of the earlier tiers have
become. -/
def scopesOf (primitives semantic : List Token) : Tier → Scopes
  | .primitives => []
  | .semantic => [Scope.ofTokens primitives]
  | .component => [Scope.ofTokens semantic, Scope.ofTokens primitives]

/-- The token of an earlier tier that a path stands for: the last one of the nearest tier that has
the path. -/
def standsFor? (primitives semantic : List Token) : Tier → (path : String) → Option Token
  | .primitives, _ => none
  | .semantic, path => Token.lastAt? path primitives
  | .component, path => (Token.lastAt? path semantic).or (Token.lastAt? path primitives)

theorem find?_scopesOf (primitives semantic : List Token) (tier : Tier) (path : String) :
    (scopesOf primitives semantic tier).find? path =
      (standsFor? primitives semantic tier path).map (·.value) := by
  cases tier with
  | primitives => rfl
  | semantic => rw [scopesOf, standsFor?, Scopes.find?_singleton, Token.find?_ofTokens]
  | component =>
    rw [scopesOf, standsFor?, Scopes.find?_cons, Scopes.find?_singleton, Token.find?_ofTokens,
      Token.find?_ofTokens]
    cases Token.lastAt? path semantic <;> rfl

variable {set expanded : TokenSet} {primitives semantic : List Token} {tier : Tier}

/-- Once the earlier tiers are known, a run over all tiers expands each tier in its scopes. -/
theorem forall₂_tokensOf
    (hprimitives : (Token.expandAll [] set.primitives).result = .ok primitives)
    (hsemantic : (Token.expandAll [Scope.ofTokens primitives] set.semantic).result = .ok semantic)
    (hexpanded : set.expandTiers.result = .ok expanded) (tier : Tier) :
    List.Forall₂ (Token.Expanded (scopesOf primitives semantic tier)) (set.tokensOf tier)
      (expanded.tokensOf tier) := by
  obtain ⟨primitives', semantic', component, hp, hs, hc, rfl⟩ :=
    expandTiers_eq_ok_iff.1 hexpanded
  -- the run went through the same earlier tiers
  rw [← Token.expandAll_eq_ok_iff, hprimitives] at hp
  obtain rfl := Except.ok.inj hp
  rw [← Token.expandAll_eq_ok_iff, hsemantic] at hs
  obtain rfl := Except.ok.inj hs
  cases tier with
  | primitives => exact Token.expandAll_eq_ok_iff.1 hprimitives
  | semantic => exact Token.expandAll_eq_ok_iff.1 hsemantic
  | component => exact hc

/-- **When an alias takes the result of an earlier tier.** Let the primitives and the semantic
tokens have become what they are, and let a token of a later tier be nothing but an alias of a
path that stands for `source`. Then

* the token becomes `source` with its value exactly when the scopes of its tier leave that value
  as it is, in particular when its aliases name no path that these scopes define;
* the token fails exactly when the value reaches a cycle in these scopes;
* a run over all tiers puts `source`'s value in the token's place under the same condition. -/
theorem alias_takes_earlier_result_iff (layout : set.layout = .threeTier)
    (hprimitives : (Token.expandAll [] set.primitives).result = .ok primitives)
    (hsemantic : (Token.expandAll [Scope.ofTokens primitives] set.semantic).result = .ok semantic)
    {i : Nat} {t source : Token} {path : String} (ht : (set.tokensOf tier)[i]? = some t)
    (name : Alias.IsAliasName path) (whole : t.value = .str (Alias.aliasText path))
    (stands : standsFor? primitives semantic tier path = some source) :
    let scopes := scopesOf primitives semantic tier
    ((t.expand scopes).result = .ok { t with value := source.value } ↔
      (Alias.expand scopes t.path.dotted source.value).result = .ok source.value) ∧
    ((∀ q, source.value.Writes q → scopes.find? q = none) →
      (t.expand scopes).result = .ok { t with value := source.value }) ∧
    ((∃ e, (t.expand scopes).result = .error e) ↔ scopes.ReachesCycle source.value) ∧
    ∀ tokens, set.resolve.result = .ok tokens →
      ∃ expanded, set.expandTiers.result = .ok expanded ∧
        tokens = expanded.semantic ++ expanded.component ∧
        ((expanded.tokensOf tier)[i]? = some { t with value := source.value } ↔
          (Alias.expand scopes t.path.dotted source.value).result = .ok source.value) := by
  intro scopes
  have found : scopes.find? path = some source.value := by
    rw [find?_scopesOf, stands]
    rfl
  have keeps := Token.expand_alias_eq_ok_iff (w := source.value) name whole found
  refine ⟨keeps, fun left => keeps.2 (Alias.result_expand_self left),
    Token.expand_alias_error_iff name whole found, fun tokens htokens => ?_⟩
  simp only [resolve, layout, Traced.bind_eq_ok_iff, Traced.result_pure, Except.ok.injEq]
    at htokens
  obtain ⟨expanded, hexpanded, rfl⟩ := htokens
  refine ⟨expanded, hexpanded, rfl, ?_⟩
  -- the token at the same place is what the alias has become
  have all := forall₂_tokensOf hprimitives hsemantic hexpanded tier
  obtain ⟨c, hc, becomes⟩ : ∃ c, (expanded.tokensOf tier)[i]? = some c ∧
      (t.expand scopes).result = .ok c := by
    have hlength := all.length_eq
    obtain ⟨hi, rfl⟩ := List.getElem?_eq_some_iff.1 ht
    refine ⟨_, List.getElem?_eq_getElem (hlength ▸ hi), Token.expand_eq_ok_iff.2 ?_⟩
    exact (List.forall₂_iff_get.1 all).2 i hi (hlength ▸ hi)
  rw [hc, ← keeps, becomes, Option.some.injEq, Except.ok.injEq]

/-- A primitive that names a path nobody defines keeps its text for good: the semantic token that
names it takes it over. -/
theorem alias_takes_unresolved_primitive :
    let ink : Token := { path := ⟨"color", ["ink"]⟩, value := .str (Alias.aliasText "color.night") }
    let link : Token := { path := ⟨"color", ["link"]⟩, value := .str (Alias.aliasText "color.ink") }
    let set : TokenSet := { layout := .threeTier, primitives := [ink], semantic := [link] }
    set.layout = .threeTier ∧
    (Token.expandAll [] set.primitives).result = .ok [ink] ∧
    (Token.expandAll [Scope.ofTokens [ink]] set.semantic).result =
      .ok [{ link with value := ink.value }] ∧
    (set.tokensOf .semantic)[0]? = some link ∧
    Alias.IsAliasName "color.ink" ∧ link.value = .str (Alias.aliasText "color.ink") ∧
    standsFor? [ink] [{ link with value := ink.value }] .semantic "color.ink" = some ink ∧
    (link.expand [Scope.ofTokens [ink]]).result = .ok { link with value := ink.value } := by
  intro ink link set
  have hprimitives : (Token.expandAll [] set.primitives).result = .ok [ink] :=
    Traced.toOption_eq_some_iff.1 (by decide +kernel)
  have hsemantic : (Token.expandAll [Scope.ofTokens [ink]] set.semantic).result =
      .ok [{ link with value := ink.value }] :=
    Traced.toOption_eq_some_iff.1 (by decide +kernel)
  have here : (set.tokensOf .semantic)[0]? = some link := rfl
  have name : Alias.IsAliasName "color.ink" := by decide
  have stands : standsFor? [ink] [{ link with value := ink.value }] .semantic "color.ink" =
      some ink := by decide +kernel
  have settled : (Alias.expand [Scope.ofTokens [ink]] "color.link" ink.value).result =
      .ok ink.value :=
    Traced.toOption_eq_some_iff.1 (by decide +kernel)
  exact ⟨rfl, hprimitives, hsemantic, here, name, rfl, stands,
    (alias_takes_earlier_result_iff rfl hprimitives hsemantic here name rfl stands).1.2 settled⟩

/-- **An earlier result is expanded again.** The primitive `color.surface` names a path that only
a semantic token has, and keeps its text. The component token that names `color.surface` does not
take that text: it gets the value of the semantic token. -/
theorem earlier_result_is_expanded_again :
    let surface : Token :=
      { path := ⟨"color", ["surface"]⟩, value := .str (Alias.aliasText "color.ink") }
    let ink : Token := { path := ⟨"color", ["ink"]⟩, value := .str "#0000ff" }
    let button : Token :=
      { path := ⟨"button", ["bg"]⟩, value := .str (Alias.aliasText "color.surface") }
    let set : TokenSet :=
      { layout := .threeTier, primitives := [surface], semantic := [ink], component := [button] }
    (Token.expandAll [] set.primitives).result.toOption = some [surface] ∧
    standsFor? [surface] [ink] .component "color.surface" = some surface ∧
    set.resolve.result.toOption = some [ink, { button with value := .str "#0000ff" }] := by
  decide +kernel

end TokenSet

end DesignTokens
