import DesignTokens.Proofs.Alias.EarlierTiers

/-!
# What an expansion depends on

Expanding a value looks up the paths that the value writes, the paths that the values found write in
their turn, and so on, and nothing else. Two lists of scopes that agree on these paths, be it on a
value or on there being none, expand the value alike: to the same value with the same warnings, or
to the same cycle with the same warnings before it.

* `Scopes.Reaches` — the paths that a value leads to.
* `Alias.expandAlias_eq_of_agree` — following one alias in scopes that agree on what it leads to.
  This is the statement that the induction carries, under any chain.
* `TokenSet.Edit` — two token sets that differ in some tokens of one tier. If nothing reaches these,
  the other tokens of all tiers are expanded as before (`TokenSet.Edit.expand_eq`).
* `TokenSet.expansion_depends_on_reached` — both together.

An edit in an early tier changes the scopes of the later ones. It does so at the paths of the edited
tokens only, because the other tokens of the early tier become what they became before
(`TokenSet.Edit.find?_eq`); the tiers are gone through in order.
-/

namespace DesignTokens

open Relation

/-- A run is known by its records and its result. -/
theorem Traced.eq_of_log_of_result {ρ ε α : Type} {x y : Traced ρ ε α} (log : x.log = y.log)
    (result : x.result = y.result) : x = y := by
  cases x
  cases y
  rw [Traced.mk.injEq]
  exact ⟨log, result⟩

/-- A value **reaches** the paths that it writes, and those that they refer to, however far. -/
def Scopes.Reaches (scopes : Scopes) (value : Value) (path : String) : Prop :=
  ∃ first, value.Writes first ∧ ReflTransGen scopes.Refers first path

namespace Alias

variable {scopes scopes' : Scopes} {context : String} {chain : List String} {path written : String}
  {follow follow' : (path written : String) → Expansion Value} {value : Value}

theorem followAll_congr {references : List Reference}
    (h : ∀ r ∈ references, follow r.path r.written = follow' r.path r.written) :
    followAll follow references = followAll follow' references := by
  induction references with
  | nil => rfl
  | cons r rest ih =>
    rw [List.forall_mem_cons] at h
    rw [followAll, followAll, h.1, ih h.2]

/-- A value is expanded alike if its references are followed alike. -/
theorem expandWith_congr
    (h : ∀ r ∈ value.references, follow r.path r.written = follow' r.path r.written) :
    expandWith follow value = expandWith follow' value := by
  have log : (expandWith follow value).log = (expandWith follow' value).log := by
    rw [log_expandWith, log_expandWith, followAll_congr h]
  have result : (expandWith follow value).result = (expandWith follow' value).result :=
    result_expandWith_congr fun r hr => by rw [h r hr]
  exact Traced.eq_of_log_of_result log result

/-- **An alias is followed alike in scopes that agree on what its path leads to.** -/
theorem expandAlias_eq_of_agree
    (agree : ∀ next, ReflTransGen scopes.Refers path next →
      scopes.find? next = scopes'.find? next) :
    expandAlias scopes context chain path written =
      expandAlias scopes' context chain path written := by
  induction chain using Scopes.chainInduction scopes generalizing path written with
  | step chain ih =>
    by_cases entered : path ∈ chain
    · rw [expandAlias_of_mem entered, expandAlias_of_mem entered]
    have here := agree path .refl
    cases found : scopes.find? path with
    | none =>
      have missing := here.symm.trans found
      rw [expandAlias_of_missing entered found, expandAlias_of_missing entered missing]
    | some target =>
      have found' := here.symm.trans found
      rw [expandAlias_of_found entered found, expandAlias_of_found entered found']
      refine expandWith_congr fun r hr => ih path target entered found fun next reaches => ?_
      -- what a reference of the target leads to, the path leads to
      have refers : scopes.Refers path r.path :=
        ⟨target, found, Value.exists_reference_iff.1 ⟨r, hr, rfl⟩⟩
      exact agree next (.head refers reaches)

/-- **A value is expanded alike in scopes that agree on what it reaches.** -/
theorem expand_eq_of_agree
    (agree : ∀ path, scopes.Reaches value path → scopes.find? path = scopes'.find? path) :
    expand scopes context value = expand scopes' context value := by
  refine expandWith_congr fun r hr => expandAlias_eq_of_agree fun next reaches => ?_
  have writes : value.Writes r.path := Value.exists_reference_iff.1 ⟨r, hr, rfl⟩
  exact agree next ⟨r.path, writes, reaches⟩

end Alias

/-! ### Scopes that differ in some tokens -/

namespace Token

variable {scopes scopes' : Scopes} {loaded front old new back tokens tokens' : List Token}
  {path : String}

/-- Tokens with other paths do not count for a path. -/
theorem lastAt?_of_not_at (other : ∀ e ∈ old, e.path.dotted ≠ path) :
    lastAt? path (front ++ old ++ back) = lastAt? path (front ++ back) := by
  have none : (old.filter fun e => e.path.dotted = path) = [] := by
    rw [List.filter_eq_nil_iff]
    simpa using other
  simp only [lastAt?, List.filter_append, none, List.append_nil]

/-- Scopes with other tokens in one place agree on every path that none of these has. -/
theorem find?_of_not_at (other : ∀ e ∈ old ++ new, e.path.dotted ≠ path) :
    (Scope.ofTokens (front ++ old ++ back)).find? path =
      (Scope.ofTokens (front ++ new ++ back)).find? path := by
  rw [List.forall_mem_append] at other
  rw [find?_ofTokens, find?_ofTokens, lastAt?_of_not_at other.1, lastAt?_of_not_at other.2]

/-- Tokens that are expanded alike become the same. -/
theorem forall₂_expanded_congr (same : ∀ t ∈ loaded, t.expand scopes = t.expand scopes')
    (h : List.Forall₂ (Expanded scopes) loaded tokens)
    (h' : List.Forall₂ (Expanded scopes') loaded tokens') : tokens = tokens' := by
  induction h generalizing tokens' with
  | nil =>
    cases h'
    rfl
  | cons becomes _ ih =>
    rcases h' with _ | ⟨becomes', later'⟩
    rw [List.forall_mem_cons] at same
    rw [← expand_eq_ok_iff, same.1] at becomes
    rw [← expand_eq_ok_iff] at becomes'
    rw [Except.ok.inj (becomes.symm.trans becomes'), ih same.2 later']

/-- Where the tokens before and after some others are expanded alike, they become the same, and what
becomes of the others stands between. -/
theorem exists_parts_of_edited (same : ∀ t ∈ front ++ back, t.expand scopes = t.expand scopes')
    (h : List.Forall₂ (Expanded scopes) (front ++ old ++ back) tokens)
    (h' : List.Forall₂ (Expanded scopes') (front ++ new ++ back) tokens') :
    ∃ first olds news last, tokens = first ++ olds ++ last ∧ tokens' = first ++ news ++ last ∧
      List.Forall₂ (Expanded scopes) (front ++ back) (first ++ last) ∧
      List.Forall₂ (Expanded scopes) old olds ∧ List.Forall₂ (Expanded scopes') new news := by
  rw [List.forall_mem_append] at same
  obtain ⟨_, last, rfl, h, hback⟩ := exists_parts_of_append_left h
  obtain ⟨first, olds, rfl, hfront, hold⟩ := exists_parts_of_append_left h
  obtain ⟨_, last', rfl, h', hback'⟩ := exists_parts_of_append_left h'
  obtain ⟨first', news, rfl, hfront', hnew⟩ := exists_parts_of_append_left h'
  obtain rfl := forall₂_expanded_congr same.1 hfront hfront'
  obtain rfl := forall₂_expanded_congr same.2 hback hback'
  exact ⟨first, olds, news, last, rfl, rfl, List.rel_append hfront hback, hold, hnew⟩

/-- Tokens that are expanded keep their paths. -/
theorem exists_path_of_mem (h : List.Forall₂ (Expanded scopes) loaded tokens) {t : Token}
    (mem : t ∈ tokens) : ∃ e ∈ loaded, t.path = e.path := by
  obtain ⟨e, he, value, -, rfl⟩ := exists_mem_of_mem_left h.flip mem
  exact ⟨e, he, rfl⟩

end Token

/-! ### Token sets that differ in some tokens -/

namespace TokenSet

/-- The scopes that the tokens of a tier are looked up in. In the three-tier layout these are there
once the earlier tiers are expanded. -/
inductive LooksUp (set : TokenSet) : Tier → Scopes → Prop
  | flatAlias (layout : set.layout = .flatAlias) :
      LooksUp set .primitives [Scope.ofTokens set.primitives]
  | primitives (layout : set.layout = .threeTier) : LooksUp set .primitives []
  | semantic {primitives : List Token} (layout : set.layout = .threeTier)
      (first : List.Forall₂ (Token.Expanded []) set.primitives primitives) :
      LooksUp set .semantic [Scope.ofTokens primitives]
  | component {primitives semantic : List Token} (layout : set.layout = .threeTier)
      (first : List.Forall₂ (Token.Expanded []) set.primitives primitives)
      (second : List.Forall₂ (Token.Expanded [Scope.ofTokens primitives]) set.semantic semantic) :
      LooksUp set .component [Scope.ofTokens semantic, Scope.ofTokens primitives]

/-- Two sets that differ in some tokens of one tier: where `set` has `old`, `set'` has `new`. With
one of the two empty, tokens are added or removed. -/
structure Edit (tier : Tier) (front old new back : List Token) (set set' : TokenSet) : Prop where
  layout : set'.layout = set.layout
  before : set.tokensOf tier = front ++ old ++ back
  after : set'.tokensOf tier = front ++ new ++ back
  others : ∀ other, other ≠ tier → set'.tokensOf other = set.tokensOf other

namespace Edit

variable {tier other : Tier} {front old new back : List Token} {set set' : TokenSet}
  {scopes scopes' : Scopes} {tokens tokens' : List Token} {path : String}

/-- The tokens of a tier that both sets have. -/
def kept (_ : Edit tier front old new back set set') (other : Tier) : List Token :=
  if other = tier then front ++ back else set.tokensOf other

/-- No token that both sets have reaches one of the edited tokens, whatever it is looked up in. -/
def Unreached (edit : Edit tier front old new back set set') : Prop :=
  ∀ other scopes, set.LooksUp other scopes → ∀ t ∈ edit.kept other, ∀ e ∈ old ++ new,
    ¬ scopes.Reaches t.value e.path.dotted

/-- Every tier consists of what is kept and, between it, edited tokens; mostly there are none. -/
theorem exists_parts (edit : Edit tier front old new back set set') (other : Tier) :
    ∃ before olds news after, set.tokensOf other = before ++ olds ++ after ∧
      set'.tokensOf other = before ++ news ++ after ∧ edit.kept other = before ++ after ∧
      (∀ e ∈ olds, e ∈ old) ∧ ∀ e ∈ news, e ∈ new := by
  by_cases same : other = tier
  · subst same
    exact ⟨front, old, new, back, edit.before, edit.after, if_pos rfl, fun _ => id, fun _ => id⟩
  · refine ⟨set.tokensOf other, [], [], [], by simp, ?_, ?_, by simp, by simp⟩
    · rw [edit.others other same]
      simp
    · rw [kept, if_neg same, List.append_nil]

/-- The tokens that both sets have become the same wherever they are expanded alike. -/
theorem exists_expanded (edit : Edit tier front old new back set set')
    (same : ∀ t ∈ edit.kept other, t.expand scopes = t.expand scopes')
    (h : List.Forall₂ (Token.Expanded scopes) (set.tokensOf other) tokens)
    (h' : List.Forall₂ (Token.Expanded scopes') (set'.tokensOf other) tokens') :
    ∃ first olds news last, tokens = first ++ olds ++ last ∧ tokens' = first ++ news ++ last ∧
      List.Forall₂ (Token.Expanded scopes) (edit.kept other) (first ++ last) ∧
      ∀ t ∈ olds ++ news, ∃ e ∈ old ++ new, t.path = e.path := by
  obtain ⟨before, os, ns, after, hset, hset', hkept, hos, hns⟩ := edit.exists_parts other
  rw [hset] at h
  rw [hset'] at h'
  rw [hkept] at same
  obtain ⟨first, olds, news, last, rfl, rfl, becomes, hold, hnew⟩ :=
    Token.exists_parts_of_edited same h h'
  refine ⟨first, olds, news, last, rfl, rfl, hkept ▸ becomes, ?_⟩
  rw [List.forall_mem_append]
  refine ⟨fun t ht => ?_, fun t ht => ?_⟩
  · obtain ⟨e, he, same⟩ := Token.exists_path_of_mem hold ht
    exact ⟨e, List.mem_append_left _ (hos e he), same⟩
  · obtain ⟨e, he, same⟩ := Token.exists_path_of_mem hnew ht
    exact ⟨e, List.mem_append_right _ (hns e he), same⟩

/-- What a tier becomes agrees on every path that no edited token has. -/
theorem find?_expanded (edit : Edit tier front old new back set set')
    (same : ∀ t ∈ edit.kept other, t.expand scopes = t.expand scopes')
    (h : List.Forall₂ (Token.Expanded scopes) (set.tokensOf other) tokens)
    (h' : List.Forall₂ (Token.Expanded scopes') (set'.tokensOf other) tokens')
    (unedited : ∀ e ∈ old ++ new, e.path.dotted ≠ path) :
    (Scope.ofTokens tokens).find? path = (Scope.ofTokens tokens').find? path := by
  obtain ⟨first, olds, news, last, rfl, rfl, -, paths⟩ := edit.exists_expanded same h h'
  refine Token.find?_of_not_at fun t ht => ?_
  obtain ⟨e, he, samePath⟩ := paths t ht
  rw [samePath]
  exact unedited e he

/-- So does a tier as it is loaded. -/
theorem find?_loaded (edit : Edit tier front old new back set set') (other : Tier)
    (unedited : ∀ e ∈ old ++ new, e.path.dotted ≠ path) :
    (Scope.ofTokens (set.tokensOf other)).find? path =
      (Scope.ofTokens (set'.tokensOf other)).find? path := by
  obtain ⟨before, olds, news, after, hset, hset', -, holds, hnews⟩ := edit.exists_parts other
  rw [hset, hset']
  refine Token.find?_of_not_at fun e he => unedited e ?_
  rcases List.mem_append.1 he with he | he
  · exact List.mem_append_left _ (holds e he)
  · exact List.mem_append_right _ (hnews e he)

/-- Scopes that agree off the edited tokens expand alike whatever does not reach these. -/
theorem expand_eq_of_find?_eq (edit : Edit tier front old new back set set')
    (unreached : edit.Unreached) (looksUp : set.LooksUp other scopes)
    (agree : ∀ path, (∀ e ∈ old ++ new, e.path.dotted ≠ path) →
      scopes.find? path = scopes'.find? path) :
    ∀ t ∈ edit.kept other, t.expand scopes = t.expand scopes' := by
  intro t ht
  have value : Alias.expand scopes t.path.dotted t.value =
      Alias.expand scopes' t.path.dotted t.value := by
    refine Alias.expand_eq_of_agree fun path reaches => agree path fun e he same => ?_
    exact unreached other scopes looksUp t ht e he (same ▸ reaches)
  rw [Token.expand, Token.expand, value]

/-- **The scopes of both sets agree** on every path that no edited token has. -/
theorem find?_eq (edit : Edit tier front old new back set set') (unreached : edit.Unreached)
    (looksUp : set.LooksUp other scopes) (looksUp' : set'.LooksUp other scopes')
    (unedited : ∀ e ∈ old ++ new, e.path.dotted ≠ path) :
    scopes.find? path = scopes'.find? path := by
  have sameLayout := edit.layout
  -- what the primitives become depends on no scope
  have primitives : ∀ {ps ps' : List Token} {p : String},
      List.Forall₂ (Token.Expanded []) (set.tokensOf .primitives) ps →
      List.Forall₂ (Token.Expanded []) (set'.tokensOf .primitives) ps' →
      (∀ e ∈ old ++ new, e.path.dotted ≠ p) →
        Scopes.find? [Scope.ofTokens ps] p = Scopes.find? [Scope.ofTokens ps'] p := by
    intro ps ps' p h h' unedited
    rw [Scopes.find?_singleton, Scopes.find?_singleton]
    exact edit.find?_expanded (fun _ _ => rfl) h h' unedited
  cases looksUp with
  | flatAlias layout =>
    cases looksUp' with
    | flatAlias _ =>
      rw [Scopes.find?_singleton, Scopes.find?_singleton]
      exact edit.find?_loaded .primitives unedited
    | primitives layout' =>
      rw [layout', layout] at sameLayout
      cases sameLayout
  | primitives layout =>
    cases looksUp' with
    | primitives _ => rfl
    | flatAlias layout' =>
      rw [layout', layout] at sameLayout
      cases sameLayout
  | semantic _ first =>
    cases looksUp' with
    | semantic _ first' => exact primitives first first' unedited
  | component layout first second =>
    cases looksUp' with
    | component _ first' second' =>
      -- the semantic tokens that both sets have become the same, so their scopes agree as well
      have same := edit.expand_eq_of_find?_eq unreached (.semantic layout first)
        fun p unedited => primitives first first' unedited
      have semantic := edit.find?_expanded same second second' unedited
      rw [Scopes.find?_cons _ [_], Scopes.find?_cons _ [_], semantic,
        primitives first first' unedited]

/-- **If nothing reaches the edited tokens, all other tokens are expanded as before.** -/
theorem expand_eq (edit : Edit tier front old new back set set') (unreached : edit.Unreached)
    (looksUp : set.LooksUp other scopes) (looksUp' : set'.LooksUp other scopes') :
    ∀ t ∈ edit.kept other, t.expand scopes = t.expand scopes' :=
  edit.expand_eq_of_find?_eq unreached looksUp fun _ unedited =>
    edit.find?_eq unreached looksUp looksUp' unedited

end Edit

/-- **An expansion depends only on what its value reaches.** If two lists of scopes agree on every
path that a value reaches, they expand the value in the same way: with the same value or the same
cycle, and with the same warnings. In particular let two sets differ in some tokens of one tier that
no other token reaches. In every tier, the tokens that both sets have are then expanded in the same
way, and where both tiers can be expanded they become the same tokens, in the same order before and
after what the edited tokens become. -/
theorem expansion_depends_on_reached :
    (∀ (scopes scopes' : Scopes) (value : Value),
      (∀ path, scopes.Reaches value path → scopes.find? path = scopes'.find? path) →
        ∀ context, Alias.expand scopes context value = Alias.expand scopes' context value) ∧
    ∀ tier front old new back set set' (edit : Edit tier front old new back set set'),
      edit.Unreached → ∀ other scopes scopes', set.LooksUp other scopes →
        set'.LooksUp other scopes' →
          (∀ t ∈ edit.kept other, t.expand scopes = t.expand scopes') ∧
          ∀ tokens tokens', (Token.expandAll scopes (set.tokensOf other)).result = .ok tokens →
            (Token.expandAll scopes' (set'.tokensOf other)).result = .ok tokens' →
              ∃ first olds news last, tokens = first ++ olds ++ last ∧
                tokens' = first ++ news ++ last ∧
                List.Forall₂ (Token.Expanded scopes) (edit.kept other) (first ++ last) := by
  refine ⟨fun scopes scopes' value agree context => Alias.expand_eq_of_agree agree, ?_⟩
  intro tier front old new back set set' edit unreached other scopes scopes' looksUp looksUp'
  have same := edit.expand_eq unreached looksUp looksUp'
  refine ⟨same, fun tokens tokens' ok ok' => ?_⟩
  rw [Token.expandAll_eq_ok_iff] at ok ok'
  obtain ⟨first, olds, news, last, htokens, htokens', becomes, -⟩ :=
    edit.exists_expanded same ok ok'
  exact ⟨first, olds, news, last, htokens, htokens', becomes⟩

/-- A token that names itself is added. The set does not resolve any more, but a link that does not
reach the new token is expanded as before. -/
theorem link_ignores_added_loop :
    let ink : Token := { path := ⟨"ink", []⟩, value := .str "#0000ff" }
    let link : Token := { path := ⟨"link", []⟩, value := .str (Alias.aliasText "ink") }
    let loop : Token := { path := ⟨"loop", []⟩, value := .str (Alias.aliasText "loop") }
    let set : TokenSet := { layout := .flatAlias, primitives := [ink, link] }
    let set' : TokenSet := { layout := .flatAlias, primitives := [ink, loop, link] }
    let scopes : Scopes := [Scope.ofTokens [ink, link]]
    let scopes' : Scopes := [Scope.ofTokens [ink, loop, link]]
    ∃ edit : Edit .primitives [ink] [] [loop] [link] set set', edit.Unreached ∧
      set.LooksUp .primitives scopes ∧ set'.LooksUp .primitives scopes' ∧
      link ∈ edit.kept .primitives ∧ link.expand scopes = link.expand scopes' ∧
      ∃ e, set'.resolve.result = .error e := by
  intro ink link loop set set' scopes scopes'
  have edit : Edit .primitives [ink] [] [loop] [link] set set' :=
    { layout := rfl
      before := rfl
      after := rfl
      others := fun other different => by
        cases other with
        | primitives => exact absurd rfl different
        | semantic | component => rfl }
  -- the link writes the ink only, and the ink writes nothing
  have inkAlone : ∀ path, link.value.Writes path → path = "ink" := by
    intro path writes
    obtain ⟨r, hr, rfl⟩ := Value.exists_reference_iff.2 writes
    have : link.value.references = [⟨"ink", Alias.aliasText "ink"⟩] := by decide
    rw [this, List.mem_singleton] at hr
    rw [hr]
  have inkPlain : ∀ path, ¬ ink.value.Writes path := by
    intro path writes
    obtain ⟨r, hr, rfl⟩ := Value.exists_reference_iff.2 writes
    have : ink.value.references = [] := by decide
    rw [this] at hr
    cases hr
  have unreached : edit.Unreached := by
    intro other scopes looksUp t ht e he
    obtain rfl : e = loop := by simpa using he
    cases looksUp with
    | primitives layout | semantic layout | component layout => cases layout
    | flatAlias _ =>
      have value : t = ink ∨ t = link := by simpa [Edit.kept] using ht
      rintro ⟨first, writes, reaches⟩
      rcases value with rfl | rfl
      · exact inkPlain first writes
      obtain rfl := inkAlone first writes
      rcases ReflTransGen.cases_head reaches with same | ⟨next, ⟨target, found, writes⟩, -⟩
      · exact absurd same (by decide)
      · have stands : Scopes.find? [Scope.ofTokens set.primitives] "ink" = some ink.value := by
          decide +kernel
        obtain rfl := Option.some.inj (stands.symm.trans found)
        exact inkPlain next writes
  have looksUp : set.LooksUp .primitives scopes := .flatAlias rfl
  have looksUp' : set'.LooksUp .primitives scopes' := .flatAlias rfl
  have mem : link ∈ edit.kept .primitives := by simp [Edit.kept]
  have same := (expansion_depends_on_reached.2 _ _ _ _ _ _ _ edit unreached _ _ _ looksUp
    looksUp').1 link mem
  have failed : set'.resolve.result = .error ⟨["loop", "loop"]⟩ := by decide +kernel
  exact ⟨edit, unreached, looksUp, looksUp', mem, same, _, failed⟩

end TokenSet

end DesignTokens
