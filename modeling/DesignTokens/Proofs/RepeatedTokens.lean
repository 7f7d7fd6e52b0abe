import DesignTokens.Proofs.Alias.EarlierTiers
import DesignTokens.Proofs.Alias.Resolution
import DesignTokens.Proofs.Stylesheet.Cascade
import DesignTokens.Proofs.Stylesheet.SourceOrder

/-!
# Repeated tokens

In the flat layout a token may be written several times, in one file or in several. Two rules
decide which one counts. An alias of its path takes the last entry of the scope. On a page, the last
declaration of a property wins. The rules have nothing to do with each other, and between the two
the tokens are sorted and rearranged; but the last token is the same for both.

* `Token.exists_getLast?_at` — the last token of a path becomes the last resolved one.
* `Token.expand_aliasText_of_lastAt?` — the value of that one is what every alias of the path
  becomes.
* `filter_appliedTokens` — in the cascade the tokens of one path and theme stand in their order, so
  the last of them decides what a page shows (`computed?_of_getLast?`).
* `TokenSet.alias_takes_what_cascade_shows` — so aliases and the cascade agree.
-/

namespace DesignTokens

/-! ### The last token of a path -/

/-- Where two lists correspond one by one, so do their last members. -/
theorem exists_getLast?_of_forall₂ {α β : Type} {R : α → β → Prop} {xs : List α} {ys : List β}
    (h : List.Forall₂ R xs ys) {x : α} (last : xs.getLast? = some x) :
    ∃ y, ys.getLast? = some y ∧ R x y := by
  obtain ⟨front, rfl⟩ := List.getLast?_eq_some_iff.1 last
  obtain ⟨as, bs, rfl, -, single⟩ := exists_parts_of_append_left h
  rcases single with _ | ⟨related, rest⟩
  cases rest
  exact ⟨_, List.getLast?_concat .., related⟩

namespace Token

variable {scopes : Scopes} {loaded tokens : List Token} {path : String}

/-- The tokens of a path are expanded one by one. -/
theorem forall₂_filter_at (all : List.Forall₂ (Expanded scopes) loaded tokens) (path : String) :
    List.Forall₂ (Expanded scopes) (loaded.filter fun t => t.path.dotted = path)
      (tokens.filter fun t => t.path.dotted = path) := by
  refine List.rel_filter ?_ all
  rintro t _ ⟨value, -, rfl⟩
  exact Iff.rfl

theorem exists_getLast?_at (all : List.Forall₂ (Expanded scopes) loaded tokens) {source : Token}
    (last : lastAt? path loaded = some source) :
    ∃ t, (tokens.filter fun t => t.path.dotted = path).getLast? = some t ∧
      Expanded scopes source t :=
  exists_getLast?_of_forall₂ (forall₂_filter_at all path) last

/-- **An alias becomes what the last token of its path becomes**, whatever the context. -/
theorem expand_aliasText_of_lastAt? (name : Alias.IsAliasName path) {source t : Token}
    (last : lastAt? path loaded = some source)
    (becomes : Expanded [Scope.ofTokens loaded] source t) (context : String) :
    (Alias.expand [Scope.ofTokens loaded] context (.str (Alias.aliasText path))).result =
      .ok t.value := by
  obtain ⟨value, hvalue, rfl⟩ := becomes
  have found : Scopes.find? [Scope.ofTokens loaded] path = some source.value := by
    rw [Scopes.find?_singleton, find?_ofTokens, last]
    rfl
  rw [Alias.expand_aliasText name, Alias.result_expandAlias_nil_of_found found,
    Alias.result_expand_context source.path.dotted]
  exact hvalue

end Token

/-! ### The cascade -/

section OnePath

variable {tokens : List Token} {q : Token → Bool} {path : TokenPath} {mode : Option Mode}

/-- **In the cascade, tokens of one path and one theme stand in the order in which they were
found**, if the page shows them. -/
theorem filter_appliedTokens (alike : ∀ t ∈ tokens, q t → t.path = path ∧ t.mode = mode) {m : Mode}
    (applies : (Bucket.ofMode mode).appliesTo m) :
    (appliedTokens m tokens).filter q = tokens.filter q := by
  have inBucket : ∀ b, (bucketTokens b tokens).filter q =
      if Bucket.ofMode mode = b then tokens.filter q else [] := by
    intro b
    -- the bucket may be looked at last
    rw [bucketTokens, List.filter_filter]
    simp only [Bool.and_comm (q _)]
    rw [← List.filter_filter, filter_emissionOrder alike]
    have bucket : ∀ t ∈ tokens.filter q, t.bucket = Bucket.ofMode mode := by
      intro t ht
      obtain ⟨mem, hq⟩ := List.mem_filter.1 ht
      rw [Token.bucket, (alike t mem hq).2]
    split
    next here => exact List.filter_eq_self.2 fun t ht => by simpa [here] using bucket t ht
    next elsewhere =>
      exact List.filter_eq_nil_iff.2 fun t ht => by simpa [bucket t ht] using elsewhere
  -- the page shows the shared bucket and that of its theme, and the tokens are in one of the two
  have apart : Bucket.root ≠ .ofMode (some m) := by cases m <;> decide
  have which : Bucket.ofMode mode = .root ∨ Bucket.ofMode mode = .ofMode (some m) := by
    simpa [Bucket.appliesTo] using applies
  rw [appliedTokens, List.filter_append, inBucket, inBucket]
  rcases which with shared | themed
  · rw [shared, if_pos rfl, if_neg apart, List.append_nil]
  · rw [themed, if_neg apart.symm, if_pos rfl, List.nil_append]

/-- Tokens of one path and one theme declare one property. Those that declare it are these tokens,
unless others do. -/
theorem declarers_of_alone (alike : ∀ t ∈ tokens, q t → t.path = path ∧ t.mode = mode) {m : Mode}
    (applies : (Bucket.ofMode mode).appliesTo m) {last : Token} (mem : last ∈ tokens)
    (here : q last) (alone : ∀ t ∈ tokens, t.propertyName = last.propertyName → q t) :
    declarers m tokens last.propertyName = tokens.filter q := by
  have applied : ∀ t ∈ appliedTokens m tokens, t ∈ tokens := by
    intro t ht
    rcases List.mem_append.1 ht with h | h
    · exact (emissionOrder_perm tokens).mem_iff.1 (List.mem_of_mem_filter h)
    · exact (emissionOrder_perm tokens).mem_iff.1 (List.mem_of_mem_filter h)
  have declares : ∀ t ∈ tokens, q t → t.propertyName = last.propertyName := by
    intro t ht hq
    obtain ⟨ownPath, ownMode⟩ := alike t ht hq
    obtain ⟨lastPath, lastMode⟩ := alike last mem here
    rw [Token.propertyName, Token.propertyName, Token.namePath, Token.namePath, ownPath, ownMode,
      lastPath, lastMode]
  rw [← filter_appliedTokens alike applies, declarers]
  refine List.filter_congr fun t ht => ?_
  rw [Bool.eq_iff_iff, decide_eq_true_iff]
  exact ⟨alone t (applied t ht), declares t (applied t ht)⟩

/-- **The last token of a path decides** what a page shows for its property, if no token of another
path declares it. -/
theorem computed?_of_getLast? (oklch : Bool)
    (alike : ∀ t ∈ tokens, q t → t.path = path ∧ t.mode = mode) {last : Token}
    (isLast : (tokens.filter q).getLast? = some last) {m : Mode} (applies : last.bucket.appliesTo m)
    (alone : ∀ t ∈ tokens, t.propertyName = last.propertyName → q t) :
    (Emission.ofTokens oklch tokens).computed? false m last.propertyName = some last.valueText := by
  obtain ⟨mem, here⟩ := List.mem_filter.1 (List.mem_of_getLast? isLast)
  have shown : (Bucket.ofMode mode).appliesTo m := by
    rw [← (alike last mem here).2]
    exact applies
  rw [computed?_base, filterMap_declared?, declarers_of_alone alike shown mem here alone,
    List.getLast?_map, isLast, Option.map_some]

end OnePath

/-! ### Aliases and the cascade -/

/-- The tokens with a dotted path have one path and one theme. -/
def Token.AlikeAt (path : String) (tokens : List Token) : Prop :=
  ∀ s ∈ tokens, ∀ t ∈ tokens, s.path.dotted = path → t.path.dotted = path →
    s.path = t.path ∧ s.mode = t.mode

instance (path : String) (tokens : List Token) : Decidable (Token.AlikeAt path tokens) :=
  inferInstanceAs (Decidable (∀ s ∈ tokens, ∀ t ∈ tokens, _))

/-- They have the same path and theme after they have been expanded. -/
theorem Token.AlikeAt.exists_forall {path : String} {loaded tokens : List Token} {scopes : Scopes}
    (alike : AlikeAt path loaded) (all : List.Forall₂ (Expanded scopes) loaded tokens) :
    ∃ own mode, ∀ t ∈ tokens, decide (t.path.dotted = path) → t.path = own ∧ t.mode = mode := by
  have partner : ∀ t ∈ tokens, ∃ s ∈ loaded, Expanded scopes s t := fun t ht =>
    exists_mem_of_mem_left all.flip ht
  by_cases some : ∃ s ∈ loaded, s.path.dotted = path
  · obtain ⟨s, hs, here⟩ := some
    refine ⟨s.path, s.mode, fun t ht hpath => ?_⟩
    obtain ⟨r, hr, value, -, rfl⟩ := partner t ht
    exact alike r hr s hs (of_decide_eq_true hpath) here
  · refine ⟨⟨path, []⟩, none, fun t ht hpath => ?_⟩
    obtain ⟨r, hr, value, -, rfl⟩ := partner t ht
    exact absurd ⟨r, hr, of_decide_eq_true hpath⟩ some

/-- The declarations of the tokens with a dotted path stand together in an emission of tokens: in
one bucket of one section, and in the order of the tokens. -/
structure Emission.KeepsTogether (e : Emission) (tokens : List Token) (path : String) : Prop where
  /-- every token has its declaration, and those of the path are in order -/
  written : ∃ order : List Token, order.Perm tokens ∧ e.placements = order.map Token.placement ∧
    (order.filter fun t => t.path.dotted = path) = tokens.filter fun t => t.path.dotted = path
  /-- a section is known by its label -/
  labels : (e.sections.map (·.label)).Nodup
  together : ∃ label bucket, ∀ t ∈ tokens, t.path.dotted = path →
    t.placement.label = label ∧ t.placement.bucket = bucket

theorem Emission.keepsTogether_ofTokens (oklch : Bool) {tokens : List Token} {path : String}
    {own : TokenPath} {mode : Option Mode}
    (alike : ∀ t ∈ tokens, decide (t.path.dotted = path) → t.path = own ∧ t.mode = mode) :
    (Emission.ofTokens oklch tokens).KeepsTogether tokens path where
  written := ⟨placementOrder tokens, placementOrder_perm tokens, placements_eq_map oklch tokens,
    filter_placementOrder alike⟩
  labels := nodup_labels oklch tokens
  together := by
    refine ⟨(Category.ofHead own.head).label, Bucket.ofMode mode, fun t ht hpath => ?_⟩
    obtain ⟨rfl, rfl⟩ := alike t ht (decide_eq_true hpath)
    exact ⟨rfl, rfl⟩

namespace TokenSet

variable {set : TokenSet} {tokens : List Token} {path : String}

/-- **Aliases and the cascade agree on repeated tokens.** Let a flat token set resolve to tokens,
and let the tokens with a dotted path have one path and one theme. Then their declarations stand
together, in the order in which the tokens were loaded. What the last of them becomes is what every
alias of the path becomes; its declaration has this value, written for the type of the last loaded
token. Before colours are converted, a page that shows the theme shows this value, unless a token of
another path declares the same property. -/
theorem alias_takes_what_cascade_shows (layout : set.layout = .flatAlias)
    (resolved : set.resolve.result = .ok tokens) (name : Alias.IsAliasName path)
    (alike : Token.AlikeAt path set.primitives) (oklch : Bool) :
    let scopes : Scopes := [Scope.ofTokens set.primitives]
    let e := Emission.ofTokens oklch tokens
    List.Forall₂ (Token.Expanded scopes) set.primitives tokens ∧ e.KeepsTogether tokens path ∧
    ∀ source, Token.lastAt? path set.primitives = some source →
      ∃ last, Token.lastAt? path tokens = some last ∧ Token.Expanded scopes source last ∧
        (∀ context, (Alias.expand scopes context (.str (Alias.aliasText path))).result =
          .ok last.value) ∧
        last.placement.declaration.value = formatValue source.effectiveType last.value ∧
        ∀ m, last.bucket.appliesTo m →
          (∀ t ∈ tokens, t.propertyName = last.propertyName → t.path.dotted = path) →
          e.computed? false m last.propertyName =
            some (formatValue source.effectiveType last.value) := by
  intro scopes e
  have all : List.Forall₂ (Token.Expanded scopes) set.primitives tokens := by
    rw [← Token.expandAll_eq_ok_iff, ← resolved, resolve, layout]
  obtain ⟨own, mode, alike⟩ := alike.exists_forall all
  refine ⟨all, Emission.keepsTogether_ofTokens oklch alike, fun source hsource => ?_⟩
  obtain ⟨last, hlast, becomes⟩ := Token.exists_getLast?_at all hsource
  -- expanding a token leaves its path and its type as they are
  have value : last.valueText = formatValue source.effectiveType last.value := by
    obtain ⟨v, -, rfl⟩ := becomes
    rfl
  refine ⟨last, hlast, becomes, Token.expand_aliasText_of_lastAt? name hsource becomes, value, ?_⟩
  intro m applies alone
  rw [← value]
  exact computed?_of_getLast? oklch alike hlast applies fun t ht same =>
    decide_eq_true (alone t ht same)

/-- The first of three sizes of a style is taken forward, and the last of the two that are left over
decides: on a page, and in an alias. -/
theorem third_size_decides :
    let size (value : Value) : Token :=
      { path := ⟨"font", ["size", "body"]⟩, value := value, type := .dimension }
    let height : Token := { path := ⟨"line-height", ["body"]⟩, value := .str "20px" }
    let space : Token := { path := ⟨"space", ["md"]⟩, value := .str "16px" }
    let set : TokenSet :=
      { layout := .flatAlias
        primitives := [size (.str "14px"), size (.str "15px"), height,
          size (.str (Alias.aliasText "space.md")), space] }
    let tokens := [size (.str "14px"), size (.str "15px"), height, size (.str "16px"), space]
    let e := Emission.ofTokens false tokens
    set.layout = .flatAlias ∧ set.resolve.result = .ok tokens ∧
    Alias.IsAliasName "font.size.body" ∧ Token.AlikeAt "font.size.body" set.primitives ∧
    (e.declarations .root).map (·.value) = ["16px", "14px", "20px", "15px", "16px"] ∧
    e.KeepsTogether tokens "font.size.body" ∧
    (∀ context, (Alias.expand [Scope.ofTokens set.primitives] context
      (.str (Alias.aliasText "font.size.body"))).result = .ok (.str "16px")) ∧
    e.computed? false .dark "font-size-body" = some "16px" := by
  intro size height space set tokens e
  have resolved : set.resolve.result = .ok tokens :=
    Traced.toOption_eq_some_iff.1 (by decide +kernel)
  have name : Alias.IsAliasName "font.size.body" := by decide
  have alike : Token.AlikeAt "font.size.body" set.primitives := by decide +kernel
  have source : Token.lastAt? "font.size.body" set.primitives =
      some (size (.str (Alias.aliasText "space.md"))) := by decide +kernel
  obtain ⟨-, together, agree⟩ := alias_takes_what_cascade_shows rfl resolved name alike false
  obtain ⟨last, hlast, -, taken, -, shown⟩ := agree _ source
  have third : Token.lastAt? "font.size.body" tokens = some (size (.str "16px")) := by
    decide +kernel
  obtain rfl : last = size (.str "16px") := Option.some.inj (hlast.symm.trans third)
  exact ⟨rfl, resolved, name, alike, by decide +kernel, together, taken,
    (shown .dark rfl (by decide +kernel)).trans (by decide +kernel)⟩

end TokenSet

end DesignTokens
