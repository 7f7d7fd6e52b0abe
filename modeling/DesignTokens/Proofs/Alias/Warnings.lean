import DesignTokens.Proofs.Alias.Cycles
import DesignTokens.Proofs.Alias.Resolution

/-!
# What is warned about

A path that no scope defines is reported where it is written, and nowhere else: an alias that is met
on the way through another alias records nothing. The records of a run can therefore be read off the
values that it expands.

* `Value.missing` — the references of a value whose path is not defined.
* `log_expand_of_ok` — an expansion that succeeds reports these, in order.
* `Token.log_expandAll_of_ok` — tokens report theirs one after the other, each under its own path.
* `TokenSet.log_resolve_of_flatAlias`, `TokenSet.log_resolve_of_threeTier` — the records of a token
  set that resolves; they are all about missing paths (`TokenSet.kind_of_mem_log_resolve`).
-/

namespace DesignTokens

/-- The places in a value where an alias names a path that is not defined. -/
def Value.missing (scopes : Scopes) (value : Value) : List Reference :=
  value.references.filter fun r => (scopes.find? r.path).isNone

/-- The warning about a reference, for a context. -/
def Reference.warning (context : String) (r : Reference) : Diagnostic :=
  .unresolvedReference r.path context

namespace Alias

variable {scopes : Scopes} {context : String} {chain : List String} {path written : String}
  {follow : (path written : String) → Expansion Value} {value w : Value}

/-- Following references that record nothing records nothing, even if it fails. -/
theorem log_followAll_eq_nil {references : List Reference}
    (h : ∀ r ∈ references, (follow r.path r.written).log = []) :
    (followAll follow references).log = [] := by
  induction references with
  | nil => rfl
  | cons r rest ih =>
    rw [List.forall_mem_cons] at h
    exact Traced.log_bind_eq_nil h.1 fun _ => ih h.2

/-- Following references records what each of them records. -/
theorem log_followAll_of_ok {references : List Reference}
    (h : ∀ r ∈ references, ∃ w, (follow r.path r.written).result = .ok w) :
    (followAll follow references).log =
      references.flatMap fun r => (follow r.path r.written).log := by
  induction references with
  | nil => rfl
  | cons r rest ih =>
    rw [List.forall_mem_cons] at h
    obtain ⟨w, ok⟩ := h.1
    rw [followAll, Traced.log_bind_of_ok ok, ih h.2, List.flatMap_cons]

/-- **Inside another alias nothing is reported.** -/
theorem log_expandAlias_of_ne_nil (inside : chain ≠ []) :
    (expandAlias scopes context chain path written).log = [] := by
  induction chain using Scopes.chainInduction scopes generalizing path written with
  | step chain ih =>
    by_cases entered : path ∈ chain
    · rw [expandAlias_of_mem entered]
      rfl
    cases found : scopes.find? path with
    | none =>
      rw [expandAlias_of_missing entered found, if_neg inside]
      rfl
    | some target =>
      rw [expandAlias_of_found entered found, log_expandWith]
      exact log_followAll_eq_nil fun r _ => ih path target entered found (by simp)

/-- Where it is written, an alias is reported if its path is not defined. -/
theorem log_expandAlias_nil :
    (expandAlias scopes context [] path written).log =
      if (scopes.find? path).isNone then [.unresolvedReference path context] else [] := by
  cases found : scopes.find? path with
  | none =>
    rw [expandAlias_of_missing List.not_mem_nil found, if_pos rfl]
    rfl
  | some target =>
    rw [expandAlias_of_found List.not_mem_nil found, log_expandWith]
    exact log_followAll_eq_nil fun r _ => log_expandAlias_of_ne_nil (by simp)

/-- References that are followed on their own report those whose path is not defined. -/
theorem flatMap_log_expandAlias_nil (references : List Reference) :
    (references.flatMap fun r => (expandAlias scopes context [] r.path r.written).log) =
      (references.filter fun r => (scopes.find? r.path).isNone).map
        (Reference.warning context) := by
  induction references with
  | nil => rfl
  | cons r rest ih =>
    rw [List.flatMap_cons, ih, log_expandAlias_nil, List.filter_cons]
    split <;> rfl

/-- **An expansion reports the missing paths that its value writes**, in their order. -/
theorem log_expand_of_ok (ok : (expand scopes context value).result = .ok w) :
    (expand scopes context value).log = (value.missing scopes).map (Reference.warning context) := by
  rw [expand, log_expandWith,
    log_followAll_of_ok (expandWith_ok_iff.1 ⟨w, ok⟩), Value.missing, flatMap_log_expandAlias_nil]

end Alias

/-- A value without missing references writes defined paths only. -/
theorem Value.exists_find?_of_missing_eq_nil {scopes : Scopes} {value : Value} {path : String}
    (none : value.missing scopes = []) (writes : value.Writes path) :
    ∃ target, scopes.find? path = some target := by
  obtain ⟨r, hr, rfl⟩ := Value.exists_reference_iff.2 writes
  have defined := List.filter_eq_nil_iff.1 none r hr
  exact Option.ne_none_iff_exists'.1 (by simpa using defined)

namespace Token

variable {scopes : Scopes} {loaded tokens : List Token}

/-- The warnings about the missing references of a token. -/
def warnings (scopes : Scopes) (t : Token) : List Diagnostic :=
  (t.value.missing scopes).map (Reference.warning t.path.dotted)

/-- **Tokens report their missing references** one after the other. -/
theorem log_expandAll_of_ok (ok : (expandAll scopes loaded).result = .ok tokens) :
    (expandAll scopes loaded).log = loaded.flatMap (warnings scopes) := by
  induction loaded generalizing tokens with
  | nil => rfl
  | cons t rest ih =>
    rw [expandAll, Traced.bind_eq_ok_iff] at ok
    obtain ⟨e, he, ok⟩ := ok
    obtain ⟨more, hmore, -⟩ := Traced.bind_eq_ok_iff.1 ok
    obtain ⟨value, hvalue, -⟩ := expand_eq_ok_iff.1 he
    rw [expandAll, Traced.log_bind_of_ok he, Traced.log_bind_of_ok hmore, ih hmore, expand,
      Traced.log_bind_of_ok hvalue, Alias.log_expand_of_ok hvalue, List.flatMap_cons]
    simp [warnings]

end Token

namespace TokenSet

variable {set : TokenSet} {tokens primitives semantic component : List Token}

/-- Flat tokens report what is missing among the values as they are written. -/
theorem log_resolve_of_flatAlias (layout : set.layout = .flatAlias)
    (all : List.Forall₂ (Token.Expanded [Scope.ofTokens set.primitives]) set.primitives tokens) :
    set.resolve.log =
      set.primitives.flatMap (Token.warnings [Scope.ofTokens set.primitives]) := by
  simp only [resolve, layout]
  exact Token.log_expandAll_of_ok (Token.expandAll_eq_ok_iff.2 all)

/-- Each tier reports what is missing in the tiers before it. -/
theorem log_resolve_of_threeTier (layout : set.layout = .threeTier)
    (first : List.Forall₂ (Token.Expanded []) set.primitives primitives)
    (second : List.Forall₂ (Token.Expanded [Scope.ofTokens primitives]) set.semantic semantic)
    (third : List.Forall₂ (Token.Expanded [Scope.ofTokens semantic, Scope.ofTokens primitives])
      set.component component) :
    set.resolve.log =
      set.primitives.flatMap (Token.warnings []) ++
        (set.semantic.flatMap (Token.warnings [Scope.ofTokens primitives]) ++
          set.component.flatMap
            (Token.warnings [Scope.ofTokens semantic, Scope.ofTokens primitives])) := by
  have all := expandTiers_eq_ok_iff.2 ⟨primitives, semantic, component, first, second, third, rfl⟩
  rw [← Token.expandAll_eq_ok_iff] at first second third
  simp only [resolve, layout]
  rw [Traced.log_bind_of_ok all, expandTiers, Traced.log_bind_of_ok first,
    Traced.log_bind_of_ok second, Traced.log_bind_of_ok third, Token.log_expandAll_of_ok first,
    Token.log_expandAll_of_ok second, Token.log_expandAll_of_ok third]
  simp

/-- **A token set that resolves warns about missing paths only.** -/
theorem kind_of_mem_log_resolve (ok : set.resolve.result = .ok tokens) :
    ∀ d ∈ set.resolve.log, d.kind = .unresolvedReference := by
  have warnings : ∀ scopes (loaded : List Token),
      ∀ d ∈ loaded.flatMap (Token.warnings scopes), d.kind = .unresolvedReference := by
    intro scopes loaded d hd
    obtain ⟨t, -, hd⟩ := List.mem_flatMap.1 hd
    obtain ⟨r, -, rfl⟩ := List.mem_map.1 hd
    rfl
  rcases resolve_eq_ok_iff.1 ok with layout | ⟨layout, all⟩ | ⟨layout, first, second, third⟩
  · simp [resolve, layout]
  · rw [log_resolve_of_flatAlias layout all]
    exact warnings _ _
  · rw [log_resolve_of_threeTier layout first second third, List.forall_mem_append,
      List.forall_mem_append]
    exact ⟨warnings _ _, warnings _ _, warnings _ _⟩

end TokenSet

end DesignTokens
