import DesignTokens.Proofs.Alias.EarlierTiers
import DesignTokens.Proofs.Alias.Leftovers

/-!
# Token sets without a warning

A token set that resolves without a warning has no alias that names a missing path, in any value
that was loaded. What its tokens become may hold aliases all the same, since a substitution can
put one together from parts. That is the only way.

* `TokenSet.Emits` — a token that reaches the stylesheet, what it becomes, and its scopes.
* `TokenSet.Emits.unwarned` — what the scopes of an unwarned set hold: values with nothing missing,
  except that a component token may be looked up in what a semantic token has become.
* `TokenSet.unwarned_alias_iff_joined` — the aliases that are left in an unwarned set. That there
  can be some is shown by `TokenSet.braces_join_unwritten_alias`.
-/

namespace DesignTokens

/-- A value with no brace of one kind in its plain text writes no alias. -/
theorem Value.not_writes_of_brace_not_mem {value : Value} {brace : Char}
    (isBrace : brace = '{' ∨ brace = '}') (h : brace ∉ value.text.toList) (path : String) :
    ¬ value.Writes path := by
  intro writes
  refine h (writes.infix_text.2.subset ?_)
  rcases isBrace with rfl | rfl <;> simp [Alias.toList_aliasText, Alias.Piece.source]

/-- A value that writes no alias misses nothing. -/
theorem Value.missing_eq_nil_of_not_writes {value : Value} (scopes : Scopes)
    (h : ∀ path, ¬ value.Writes path) : value.missing scopes = [] := by
  refine Classical.byContradiction fun missing => ?_
  obtain ⟨path, writes, -⟩ := missing_ne_nil_iff.1 missing
  exact h path writes

/-- What scopes of tokens hold is the value of a token. -/
theorem Scope.exists_token_of_find? {tokens : List Token} {path : String} {value : Value}
    (found : (Scope.ofTokens tokens).find? path = some value) : ∃ t ∈ tokens, t.value = value := by
  rw [Token.find?_ofTokens, Option.map_eq_some_iff] at found
  obtain ⟨t, last, rfl⟩ := found
  exact ⟨t, (List.mem_filter.1 (List.mem_of_getLast? last)).1, rfl⟩

namespace Token

variable {scopes : Scopes} {loaded tokens : List Token}

/-- A token becomes one thing only. -/
theorem Expanded.unique {t a b : Token} (ha : Expanded scopes t a) (hb : Expanded scopes t b) :
    a = b := by
  rw [← expand_eq_ok_iff] at ha hb
  exact Except.ok.inj (ha.symm.trans hb)

theorem forall₂_expanded_unique {tokens' : List Token}
    (h : List.Forall₂ (Expanded scopes) loaded tokens)
    (h' : List.Forall₂ (Expanded scopes) loaded tokens') : tokens = tokens' := by
  rw [← expandAll_eq_ok_iff] at h h'
  exact Except.ok.inj (h.symm.trans h')

/-- Tokens that are warned of nowhere miss nothing. -/
theorem missing_eq_nil_of_warnings (h : loaded.flatMap (warnings scopes) = []) :
    ∀ t ∈ loaded, t.value.missing scopes = [] :=
  fun t ht => List.map_eq_nil_iff.1 (List.flatMap_eq_nil_iff.1 h t ht)

end Token

namespace TokenSet

variable {set : TokenSet} {tokens : List Token} {scopes : Scopes} {loaded t : Token}

/-- **A token that reaches the stylesheet**: as it was loaded, and what it becomes in the scopes
that the layout gives it. -/
inductive Emits (set : TokenSet) : Scopes → Token → Token → Prop
  | flatAlias {loaded t : Token} (layout : set.layout = .flatAlias) (mem : loaded ∈ set.primitives)
      (becomes : Token.Expanded [Scope.ofTokens set.primitives] loaded t) :
      Emits set [Scope.ofTokens set.primitives] loaded t
  | semantic {primitives : List Token} {loaded t : Token} (layout : set.layout = .threeTier)
      (first : List.Forall₂ (Token.Expanded []) set.primitives primitives)
      (mem : loaded ∈ set.semantic)
      (becomes : Token.Expanded [Scope.ofTokens primitives] loaded t) :
      Emits set [Scope.ofTokens primitives] loaded t
  | component {primitives semantic : List Token} {loaded t : Token}
      (layout : set.layout = .threeTier)
      (first : List.Forall₂ (Token.Expanded []) set.primitives primitives)
      (second : List.Forall₂ (Token.Expanded [Scope.ofTokens primitives]) set.semantic semantic)
      (mem : loaded ∈ set.component)
      (becomes : Token.Expanded [Scope.ofTokens semantic, Scope.ofTokens primitives] loaded t) :
      Emits set [Scope.ofTokens semantic, Scope.ofTokens primitives] loaded t

theorem Emits.expanded (emits : set.Emits scopes loaded t) : Token.Expanded scopes loaded t := by
  cases emits <;> assumption

/-- The tokens of the stylesheet are those that are emitted, one by one. -/
theorem ResolvesTo.forall₂_emits (h : set.ResolvesTo tokens) (hasAliases : set.layout ≠ .legacy) :
    List.Forall₂ (fun loaded t => ∃ scopes, set.Emits scopes loaded t) set.reaching tokens := by
  rcases h with layout | ⟨layout, all⟩ | ⟨layout, first, second, third⟩
  · exact absurd layout hasAliases
  · rw [reaching, layout]
    refine ((List.forall₂_and_left _ _).2 ⟨fun _ mem => mem, all⟩).imp ?_
    rintro loaded t ⟨mem, becomes⟩
    exact ⟨_, .flatAlias layout mem becomes⟩
  · rw [reaching, layout]
    refine List.rel_append
      (((List.forall₂_and_left _ _).2 ⟨fun _ mem => mem, second⟩).imp ?_)
      (((List.forall₂_and_left _ _).2 ⟨fun _ mem => mem, third⟩).imp ?_)
    · rintro loaded t ⟨mem, becomes⟩
      exact ⟨_, .semantic layout first mem becomes⟩
    · rintro loaded t ⟨mem, becomes⟩
      exact ⟨_, .component layout first second mem becomes⟩

theorem ResolvesTo.of_flatAlias (h : set.ResolvesTo tokens) (layout : set.layout = .flatAlias) :
    List.Forall₂ (Token.Expanded [Scope.ofTokens set.primitives]) set.primitives tokens := by
  rcases h with layout' | ⟨-, all⟩ | ⟨layout', -⟩
  · rw [layout] at layout'
    cases layout'
  · exact all
  · rw [layout] at layout'
    cases layout'

theorem ResolvesTo.of_threeTier (h : set.ResolvesTo tokens) (layout : set.layout = .threeTier) :
    ∃ primitives semantic component,
      List.Forall₂ (Token.Expanded []) set.primitives primitives ∧
      List.Forall₂ (Token.Expanded [Scope.ofTokens primitives]) set.semantic semantic ∧
      List.Forall₂ (Token.Expanded [Scope.ofTokens semantic, Scope.ofTokens primitives])
        set.component component ∧ tokens = semantic ++ component := by
  rcases h with layout' | ⟨layout', -⟩ | ⟨-, first, second, third⟩
  · rw [layout] at layout'
    cases layout'
  · rw [layout] at layout'
    cases layout'
  · exact ⟨_, _, _, first, second, third, rfl⟩

/-- What is left of an emitted token's aliases is what its expansion leaves. -/
theorem Emits.writes_iff (emits : set.Emits scopes loaded t) :
    (∃ path, t.value.Writes path) ↔ scopes.Leaves loaded.path.dotted loaded.value := by
  obtain ⟨value, ok, rfl⟩ := emits.expanded
  exact Alias.writes_expand_iff ok

/-! ### Nothing is missing -/

/-- The run over a set gave no warning about a path. -/
def Unwarned (set : TokenSet) : Prop :=
  ∀ d ∈ set.resolve.log, d.kind ≠ .unresolvedReference

theorem Unwarned.log_eq_nil (quiet : set.Unwarned) (ok : set.resolve.result = .ok tokens) :
    set.resolve.log = [] :=
  List.eq_nil_iff_forall_not_mem.2 fun d hd => quiet d hd (kind_of_mem_log_resolve ok d hd)

/-- In the flat layout nothing is missing among the values as they are written. -/
theorem Unwarned.flatAlias (quiet : set.Unwarned) (layout : set.layout = .flatAlias)
    (all : List.Forall₂ (Token.Expanded [Scope.ofTokens set.primitives]) set.primitives tokens) :
    ∀ t ∈ set.primitives, t.value.missing [Scope.ofTokens set.primitives] = [] := by
  refine Token.missing_eq_nil_of_warnings ?_
  rw [← log_resolve_of_flatAlias layout all]
  exact quiet.log_eq_nil (resolve_eq_ok_iff.2 (.flatAlias layout all))

/-- In the three-tier layout the primitives write no alias at all, and stay as they are; nothing is
missing in the other tiers. -/
theorem Unwarned.threeTier (quiet : set.Unwarned) (layout : set.layout = .threeTier)
    {primitives semantic component : List Token}
    (first : List.Forall₂ (Token.Expanded []) set.primitives primitives)
    (second : List.Forall₂ (Token.Expanded [Scope.ofTokens primitives]) set.semantic semantic)
    (third : List.Forall₂ (Token.Expanded [Scope.ofTokens semantic, Scope.ofTokens primitives])
      set.component component) :
    primitives = set.primitives ∧ (∀ t ∈ set.primitives, ∀ path, ¬ t.value.Writes path) ∧
      (∀ t ∈ set.semantic, t.value.missing [Scope.ofTokens primitives] = []) ∧
      ∀ t ∈ set.component,
        t.value.missing [Scope.ofTokens semantic, Scope.ofTokens primitives] = [] := by
  have none := quiet.log_eq_nil (resolve_eq_ok_iff.2 (.threeTier layout first second third))
  rw [log_resolve_of_threeTier layout first second third, List.append_eq_nil_iff,
    List.append_eq_nil_iff] at none
  -- without scopes every path is missing
  have unwritten : ∀ t ∈ set.primitives, ∀ path, ¬ t.value.Writes path := by
    intro t ht path writes
    exact Value.missing_ne_nil_iff.2 ⟨path, writes, rfl⟩
      (Token.missing_eq_nil_of_warnings none.1 t ht)
  refine ⟨Token.forall₂_expanded_unique first (List.forall₂_same.2 fun t ht => ?_), unwritten,
    Token.missing_eq_nil_of_warnings none.2.1, Token.missing_eq_nil_of_warnings none.2.2⟩
  exact ⟨t.value, Alias.result_expand_self fun path writes => absurd writes (unwritten t ht path),
    rfl⟩

/-- What scopes hold is loaded, as it was written, and nothing is missing in it. -/
def HoldsPrimitives (set : TokenSet) (scopes : Scopes) : Prop :=
  ∀ path target, scopes.find? path = some target →
    (∃ p ∈ set.primitives, p.value = target) ∧ target.missing scopes = []

theorem holdsPrimitives_of_missing
    (nothing : ∀ p ∈ set.primitives, p.value.missing [Scope.ofTokens set.primitives] = []) :
    set.HoldsPrimitives [Scope.ofTokens set.primitives] := by
  intro path target found
  rw [Scopes.find?, List.findSome?_singleton] at found
  obtain ⟨p, hp, rfl⟩ := Scope.exists_token_of_find? found
  exact ⟨⟨p, hp, rfl⟩, nothing p hp⟩

/-- A token that is expanded in scopes of loaded values, and misses nothing. -/
def Settles (set : TokenSet) (t : Token) : Prop :=
  ∃ scopes loaded, set.Emits scopes loaded t ∧ set.HoldsPrimitives scopes ∧
    loaded.value.missing scopes = []

/-- **An emitted token of an unwarned set** is one of the stylesheet's. Nothing is missing in it,
nor in what its scopes hold, except in what other tokens of the stylesheet have become in scopes of
loaded values. -/
theorem Emits.unwarned (emits : set.Emits scopes loaded t) (ok : set.ResolvesTo tokens)
    (quiet : set.Unwarned) :
    t ∈ tokens ∧ loaded.value.missing scopes = [] ∧
      ∀ path target, scopes.find? path = some target →
        (∃ p ∈ set.primitives, p.value = target) ∧ target.missing scopes = [] ∨
        ∃ s ∈ tokens, s.value = target ∧ set.Settles s := by
  cases emits with
  | flatAlias layout mem becomes =>
    have all := ok.of_flatAlias layout
    have nothing := quiet.flatAlias layout all
    obtain ⟨t', ht', becomes'⟩ := exists_mem_of_mem_left all mem
    exact ⟨becomes.unique becomes' ▸ ht', nothing _ mem,
      fun path target found => Or.inl (holdsPrimitives_of_missing nothing path target found)⟩
  | @semantic primitives loaded t layout first mem becomes =>
    obtain ⟨primitives', semantic, component, first', second, third, rfl⟩ := ok.of_threeTier layout
    obtain rfl := Token.forall₂_expanded_unique first first'
    obtain ⟨rfl, unwritten, nothing, -⟩ := quiet.threeTier layout first second third
    obtain ⟨t', ht', becomes'⟩ := exists_mem_of_mem_left second mem
    have holds := holdsPrimitives_of_missing fun p hp =>
      Value.missing_eq_nil_of_not_writes _ (unwritten p hp)
    exact ⟨becomes.unique becomes' ▸ List.mem_append_left _ ht', nothing _ mem,
      fun path target found => Or.inl (holds path target found)⟩
  | @component primitives semantic loaded t layout first second mem becomes =>
    obtain ⟨primitives', semantic', component, first', second', third, rfl⟩ :=
      ok.of_threeTier layout
    obtain rfl := Token.forall₂_expanded_unique first first'
    obtain rfl := Token.forall₂_expanded_unique second second'
    obtain ⟨rfl, unwritten, nothing, nothing'⟩ := quiet.threeTier layout first second third
    obtain ⟨t', ht', becomes'⟩ := exists_mem_of_mem_left third mem
    have holds := holdsPrimitives_of_missing fun p hp =>
      Value.missing_eq_nil_of_not_writes _ (unwritten p hp)
    refine ⟨becomes.unique becomes' ▸ List.mem_append_right _ ht', nothing' _ mem,
      fun path target found => ?_⟩
    obtain ⟨scope, hscope, found⟩ := List.exists_of_findSome?_eq_some found
    rcases List.mem_cons.1 hscope with rfl | hscope
    · -- what a semantic token has become
      obtain ⟨s, hs, rfl⟩ := Scope.exists_token_of_find? found
      obtain ⟨origin, horigin, hbecomes⟩ := exists_mem_of_mem_left (List.Forall₂.flip second) hs
      exact Or.inr ⟨s, List.mem_append_left _ hs, rfl, _, origin,
        .semantic layout first horigin hbecomes, holds, nothing _ horigin⟩
    · obtain rfl := List.mem_singleton.1 hscope
      obtain ⟨p, hp, rfl⟩ := Scope.exists_token_of_find? found
      exact Or.inl ⟨⟨p, hp, rfl⟩, Value.missing_eq_nil_of_not_writes _ (unwritten p hp)⟩

/-! ### What is left -/

/-- In scopes of loaded values an alias is only left where a text joins one. -/
theorem Settles.exists_joins (settles : set.Settles t) (left : ∃ path, t.value.Writes path) :
    ∃ scopes loaded text, set.Emits scopes loaded t ∧ scopes.Meets loaded.value (.str text) ∧
      Alias.Joins scopes loaded.path.dotted text := by
  obtain ⟨scopes, loaded, emits, holds, nothing⟩ := settles
  rcases emits.writes_iff.1 left with ⟨text, meets, joins⟩ | ⟨met, meets, missing⟩
  · exact ⟨scopes, loaded, text, emits, meets, joins⟩
  rcases meets.missing_cases missing with own | ⟨path, target, found, -, missing⟩
  · exact absurd nothing own
  · exact absurd (holds path target found).2 missing

/-- What is left of an emitted token's aliases was joined on the way, or taken over from another
token that is expanded in scopes of loaded values. -/
theorem Emits.left_cases (emits : set.Emits scopes loaded t) (ok : set.ResolvesTo tokens)
    (quiet : set.Unwarned) (left : ∃ path, t.value.Writes path) :
    (∃ text, scopes.Meets loaded.value (.str text) ∧
      Alias.Joins scopes loaded.path.dotted text) ∨
    ∃ s ∈ tokens, scopes.Meets loaded.value s.value ∧ s.value.missing scopes ≠ [] ∧
      set.Settles s := by
  obtain ⟨-, nothing, holds⟩ := emits.unwarned ok quiet
  rcases emits.writes_iff.1 left with joins | ⟨met, meets, missing⟩
  · exact Or.inl joins
  rcases meets.missing_cases missing with own | ⟨path, target, found, meets, missing⟩
  · exact absurd nothing own
  rcases holds path target found with ⟨-, none⟩ | ⟨s, hs, rfl, settles⟩
  · exact absurd none missing
  · exact Or.inr ⟨s, hs, meets, missing, settles⟩

section Braces

variable {brace : Char} (isBrace : brace = '{' ∨ brace = '}')
  (tidy : ∀ t ∈ set.primitives ++ set.semantic ++ set.component, ¬ t.value.Strays brace)

include isBrace tidy

theorem Emits.brace_not_mem (emits : set.Emits scopes loaded t)
    (nothing : loaded.value.missing scopes = [])
    (clean : ∀ path target, scopes.find? path = some target →
      ¬ target.Strays brace ∧ target.missing scopes = []) :
    brace ∉ t.value.text.toList := by
  obtain ⟨value, ok, rfl⟩ := emits.expanded
  refine Alias.brace_not_mem_expand isBrace clean ok (tidy loaded ?_) nothing
  cases emits with
  | flatAlias _ mem | semantic _ _ mem | component _ _ _ mem => simp [mem]

theorem Settles.brace_not_mem (settles : set.Settles t) : brace ∉ t.value.text.toList := by
  obtain ⟨scopes, loaded, emits, holds, nothing⟩ := settles
  refine emits.brace_not_mem isBrace tidy nothing fun path target found => ?_
  obtain ⟨⟨p, hp, rfl⟩, none⟩ := holds path target found
  exact ⟨tidy p (by simp [hp]), none⟩

/-- **No brace is left in an unwarned set if none strays in what was loaded.** -/
theorem Emits.brace_not_mem_of_unwarned (emits : set.Emits scopes loaded t)
    (ok : set.ResolvesTo tokens) (quiet : set.Unwarned) : brace ∉ t.value.text.toList := by
  obtain ⟨-, nothing, holds⟩ := emits.unwarned ok quiet
  refine emits.brace_not_mem isBrace tidy nothing fun path target found => ?_
  rcases holds path target found with ⟨⟨p, hp, rfl⟩, none⟩ | ⟨s, -, rfl, settles⟩
  · exact ⟨tidy p (by simp [hp]), none⟩
  · -- what another token has become has no such brace, so it holds no alias either
    have unbraced := settles.brace_not_mem isBrace tidy
    exact ⟨fun strays => unbraced strays.mem_text, Value.missing_eq_nil_of_not_writes _
      (Value.not_writes_of_brace_not_mem isBrace unbraced)⟩

end Braces

/-- **The aliases that are left in an unwarned set.** Let a set with aliases resolve, with no
warning about a path. Then the tokens of the stylesheet are emitted one by one, and

* an emitted token writes an alias exactly when its expansion meets a text that joins one, or else
  takes over the value of another token of the stylesheet with an alias in it that means nothing
  here;
* no token of the stylesheet writes an alias exactly when no expansion meets a text that joins one;
* in particular none does when no loaded value has an opening brace outside its aliases, or when
  none has a closing one. -/
theorem unwarned_alias_iff_joined (hasAliases : set.layout ≠ .legacy)
    (ok : set.resolve.result = .ok tokens)
    (quiet : ∀ d ∈ set.resolve.log, d.kind ≠ .unresolvedReference) :
    List.Forall₂ (fun loaded t => ∃ scopes, set.Emits scopes loaded t) set.reaching tokens ∧
    (∀ scopes loaded t, set.Emits scopes loaded t →
      ((∃ path, t.value.Writes path) ↔
        (∃ text, scopes.Meets loaded.value (.str text) ∧
          Alias.Joins scopes loaded.path.dotted text) ∨
        ∃ s ∈ tokens, scopes.Meets loaded.value s.value ∧ s.value.missing scopes ≠ [])) ∧
    ((∀ t ∈ tokens, ∀ path, ¬ t.value.Writes path) ↔
      ∀ scopes loaded t, set.Emits scopes loaded t →
        ∀ text, scopes.Meets loaded.value (.str text) →
          ¬ Alias.Joins scopes loaded.path.dotted text) ∧
    (∀ brace, brace = '{' ∨ brace = '}' →
      (∀ t ∈ set.primitives ++ set.semantic ++ set.component, ¬ t.value.Strays brace) →
        ∀ t ∈ tokens, ∀ path, ¬ t.value.Writes path) := by
  have resolved := resolve_eq_ok_iff.1 ok
  have all := resolved.forall₂_emits hasAliases
  refine ⟨all, ?_, ⟨?_, ?_⟩, ?_⟩
  · intro scopes loaded t emits
    refine ⟨fun left => ?_, fun h => emits.writes_iff.2 ?_⟩
    · exact (emits.left_cases resolved quiet left).imp id fun ⟨s, hs, meets, missing, _⟩ =>
        ⟨s, hs, meets, missing⟩
    · exact h.imp id fun ⟨s, _, meets, missing⟩ => ⟨s.value, meets, missing⟩
  · intro none scopes loaded t emits text meets joins
    obtain ⟨path, writes⟩ := emits.writes_iff.2 (Or.inl ⟨text, meets, joins⟩)
    exact none t (emits.unwarned resolved quiet).1 path writes
  · intro apart t ht path writes
    obtain ⟨loaded, -, scopes, emits⟩ := exists_mem_of_mem_left (List.Forall₂.flip all) ht
    rcases emits.left_cases resolved quiet ⟨path, writes⟩ with
      ⟨text, meets, joins⟩ | ⟨s, -, -, missing, settles⟩
    · exact apart _ _ _ emits text meets joins
    · -- the alias that is taken over was joined where it comes from
      obtain ⟨q, writes', -⟩ := Value.missing_ne_nil_iff.1 missing
      obtain ⟨scopes', origin, text, emits', meets, joins⟩ := settles.exists_joins ⟨q, writes'⟩
      exact apart _ _ _ emits' text meets joins
  · intro brace isBrace tidy t ht
    obtain ⟨loaded, -, scopes, emits⟩ := exists_mem_of_mem_left (List.Forall₂.flip all) ht
    exact Value.not_writes_of_brace_not_mem isBrace
      (emits.brace_not_mem_of_unwarned isBrace tidy resolved quiet)

/-- A border with a width put in: its only braces are those of the alias, and none is left. -/
theorem border_is_left_without_alias :
    let width : Token := { path := ⟨"width", []⟩, value := .int 2 }
    let border : Token := { path := ⟨"border", []⟩, value := .str "\x7bwidth\x7dpx solid" }
    let set : TokenSet := { layout := .flatAlias, primitives := [width, border] }
    let tokens := [width, { border with value := .str "2px solid" }]
    set.layout ≠ .legacy ∧ set.resolve.result = .ok tokens ∧
    (∀ d ∈ set.resolve.log, d.kind ≠ .unresolvedReference) ∧
    ∀ t ∈ tokens, ∀ path, ¬ t.value.Writes path := by
  intro width border set tokens
  have hasAliases : set.layout ≠ .legacy := by decide
  have ok : set.resolve.result = .ok tokens := Traced.toOption_eq_some_iff.1 (by decide +kernel)
  have quiet : ∀ d ∈ set.resolve.log, d.kind ≠ .unresolvedReference := by decide +kernel
  have outside : Alias.Piece.literal '{' ∉ Alias.scan "\x7bwidth\x7dpx solid".toList := by decide
  refine ⟨hasAliases, ok, quiet,
    (unwarned_alias_iff_joined hasAliases ok quiet).2.2.2 '{' (Or.inl rfl) ?_⟩
  intro t ht strays
  obtain rfl | rfl : t = width ∨ t = border := by simpa [set] using ht
  · cases strays
  · cases strays with
    | text stands => exact outside stands

/-- **Braces of different origin join an alias.** The name that is put in stands between braces that
belong to no alias. What comes out is an alias of a path that nobody wrote and nobody defines, and
there is no warning. -/
theorem braces_join_unwritten_alias :
    let name : Token := { path := ⟨"a", []⟩, value := .str "b" }
    let outer : Token := { path := ⟨"c", []⟩, value := .str "\x7b\x7ba\x7d\x7d" }
    let set : TokenSet := { layout := .flatAlias, primitives := [name, outer] }
    set.layout ≠ .legacy ∧
    (∀ t ∈ set.primitives ++ set.semantic ++ set.component, ∃ text, t.value = .str text) ∧
    set.resolve.result.toOption = some [name, { outer with value := .str "\x7bb\x7d" }] ∧
    (∀ d ∈ set.resolve.log, d.kind ≠ .unresolvedReference) ∧
    (Value.str "\x7bb\x7d").Writes "b" := by
  refine ⟨by decide, ?_, by decide +kernel, by decide +kernel, .text (by decide) List.infix_rfl⟩
  simp

end TokenSet

end DesignTokens
