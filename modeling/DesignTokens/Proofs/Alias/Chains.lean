import DesignTokens.Proofs.Alias.Cycles

/-!
# Results and chains

A nested expansion runs with the paths entered so far as its chain. The chain only says which
paths may not be entered again; it never changes a result.

* `result_expandAlias_of_subset` — with fewer paths in the chain, what succeeded succeeds with the
  same result.
* `result_expand_context` — the context in which a value is expanded makes no difference to it.
* `result_expandAlias_nil_of_found` — a defined path becomes exactly what its value expands to on
  its own. Entering the path first makes no difference: a walk that would come back to it shows a
  cycle that the value reaches in any case.
* `expand_aliasText` — an alias that makes up a whole text is followed as that alias.
* `result_expand_self` — a value whose aliases name no defined path is left as it is.
-/

namespace DesignTokens

namespace Alias

variable {scopes : Scopes} {context : String} {chain : List String} {path written : String}

/-- **A shorter chain does not change a result.** -/
theorem result_expandAlias_of_subset {chain' : List String} {w : Value}
    (sub : ∀ p ∈ chain', p ∈ chain)
    (ok : (expandAlias scopes context chain path written).result = .ok w) :
    (expandAlias scopes context chain' path written).result = .ok w := by
  induction chain using Scopes.chainInduction scopes
    generalizing chain' path written w with
  | step chain ih =>
    by_cases entered : path ∈ chain
    · rw [expandAlias_of_mem entered] at ok
      cases ok
    have fresh : path ∉ chain' := fun h => entered (sub path h)
    cases found : scopes.find? path with
    | none =>
      rw [result_expandAlias_of_missing entered found] at ok
      rw [result_expandAlias_of_missing fresh found, ok]
    | some target =>
      have sub' : ∀ p ∈ chain' ++ [path], p ∈ chain ++ [path] := fun p hp =>
        (List.mem_append.1 hp).elim (fun h => List.mem_append_left _ (sub p h))
          (List.mem_append_right _)
      rw [expandAlias_of_found entered found] at ok
      rw [expandAlias_of_found fresh found, ← ok]
      -- each reference of the target gives under the shorter chain what it gave under the longer
      refine result_expandWith_congr fun r hr => ?_
      obtain ⟨v, hv⟩ := expandWith_ok_iff.1 ⟨w, ok⟩ r hr
      rw [hv]
      exact ih path target entered found sub' hv

/-- The context is only named in warnings. -/
theorem result_expandAlias_context (context' : String) :
    (expandAlias scopes context chain path written).result =
      (expandAlias scopes context' chain path written).result := by
  induction chain using Scopes.chainInduction scopes generalizing path written with
  | step chain ih =>
    by_cases entered : path ∈ chain
    · rw [expandAlias_of_mem entered, expandAlias_of_mem entered]
    · cases found : scopes.find? path with
      | none =>
        rw [result_expandAlias_of_missing entered found,
          result_expandAlias_of_missing entered found]
      | some target =>
        rw [expandAlias_of_found entered found, expandAlias_of_found entered found]
        exact result_expandWith_congr fun r _ => ih path target entered found

theorem result_expand_context (context' : String) (value : Value) :
    (expand scopes context value).result = (expand scopes context' value).result :=
  result_expandWith_congr fun _ _ => result_expandAlias_context context'

/-- **A defined path becomes what its value expands to.** -/
theorem result_expandAlias_nil_of_found {target w : Value}
    (found : scopes.find? path = some target) :
    (expandAlias scopes context [] path written).result = .ok w ↔
      (expand scopes context target).result = .ok w := by
  rw [expandAlias_of_found List.not_mem_nil found, List.nil_append, expand]
  have agree : ∀ {r : Reference} {v : Value},
      (expandAlias scopes context [path] r.path r.written).result = .ok v →
        (expandAlias scopes context [] r.path r.written).result = .ok v :=
    fun ok => result_expandAlias_of_subset (by simp) ok
  refine ⟨?_, ?_⟩
  · intro ok
    rw [← ok]
    refine result_expandWith_congr fun r hr => ?_
    obtain ⟨v, hv⟩ := expandWith_ok_iff.1 ⟨w, ok⟩ r hr
    rw [hv, agree hv]
  · intro ok
    rw [← ok]
    refine result_expandWith_congr fun r hr => ?_
    have free : ¬ scopes.LeadsBack [] r.path :=
      expandAlias_ok_iff.1 (expandWith_ok_iff.1 ⟨w, ok⟩ r hr)
    -- a reference that leads back to the path leads from there to itself
    have free' : ¬ scopes.LeadsBack [path] r.path := by
      rintro ⟨again, reaches, entered | cyclic⟩
      · obtain rfl := List.mem_singleton.1 entered
        have refers : scopes.Refers again r.path :=
          ⟨target, found, Value.exists_reference_iff.1 ⟨r, hr, rfl⟩⟩
        exact free ⟨again, reaches, Or.inr (.head' refers reaches)⟩
      · exact free ⟨again, reaches, Or.inr cyclic⟩
    obtain ⟨v, hv⟩ := expandAlias_ok_iff.2 free'
    rw [hv, agree hv]

/-! ### Whole aliases -/

/-- A pending name is closed by the brace after it. -/
theorem scanFrom_name {front name : List Char} (rest : List Char) (hname : '{' ∉ name ∧ '}' ∉ name)
    (nonempty : front.reverse ++ name ≠ []) :
    scanFrom (some front) (name ++ '}' :: rest) =
      .alias (front.reverse ++ name) :: scanFrom none rest := by
  induction name generalizing front with
  | nil =>
    have : front ≠ [] := by simpa using nonempty
    simp [scanFrom, this]
  | cons c name ih =>
    have hopen : c ≠ '{' := fun h => hname.1 (h ▸ List.mem_cons_self)
    have hclose : c ≠ '}' := fun h => hname.2 (h ▸ List.mem_cons_self)
    have hmore : '{' ∉ name ∧ '}' ∉ name :=
      ⟨fun h => hname.1 (List.mem_cons_of_mem _ h), fun h => hname.2 (List.mem_cons_of_mem _ h)⟩
    rw [List.cons_append, scanFrom, if_neg hopen, if_neg hclose, ih hmore (by simp)]
    simp

theorem wholeAlias?_aliasText (name : IsAliasName path) :
    wholeAlias? (aliasText path).toList = some path.toList := by
  have hscan : scan (aliasText path).toList = [.alias path.toList] := by
    rw [toList_aliasText, Piece.source, scan, List.cons_append, scanFrom, if_pos rfl,
      scanFrom_name [] name.2 (by simpa using name.1)]
    rfl
  rw [wholeAlias?, hscan]

/-- A text that is an alias and nothing else is expanded as that alias. -/
theorem expand_aliasText (name : IsAliasName path) :
    expand scopes context (.str (aliasText path)) =
      expandAlias scopes context [] path (aliasText path) := by
  rw [expand, expandWith, expandText, wholeAlias?_aliasText name]
  simp only [String.ofList_toList]

/-! ### Values that stay as they are -/

section Unchanged

variable {follow : (path written : String) → Expansion Value}

theorem result_expandPieces_self {pieces : List Piece}
    (h : ∀ r ∈ pieceReferences pieces, (follow r.path r.written).result = .ok (.str r.written)) :
    (expandPieces follow pieces).result = .ok (String.ofList (pieces.flatMap Piece.source)) := by
  induction pieces with
  | nil => rfl
  | cons piece rest ih =>
    cases piece with
    | literal c =>
      refine Traced.bind_eq_ok_iff.2 ⟨_, ih h, ?_⟩
      simp [Piece.source, String.ofList_cons]
    | «alias» name =>
      have hrest := ih fun r hr => h r (List.mem_cons_of_mem _ hr)
      refine Traced.bind_eq_ok_iff.2 ⟨_, h _ List.mem_cons_self, ?_⟩
      refine Traced.bind_eq_ok_iff.2 ⟨_, hrest, ?_⟩
      simp [Piece.source, aliasText, Value.text, String.append_assoc]

/-- Where every reference gives its own text, the whole value stays as it is. -/
theorem result_expandWith_self {value : Value}
    (h : ∀ r ∈ value.references, (follow r.path r.written).result = .ok (.str r.written)) :
    (expandWith follow value).result = .ok value := by
  induction value using Value.fieldInduction with
  | str text =>
    rw [Value.references, textReferences] at h
    rw [expandWith, expandText]
    cases hwhole : wholeAlias? text.toList with
    | some name =>
      rw [hwhole] at h
      exact h _ (List.mem_singleton.2 rfl)
    | none =>
      rw [hwhole] at h
      refine Traced.bind_eq_ok_iff.2 ⟨_, result_expandPieces_self h, ?_⟩
      rw [scan_source, String.ofList_toList]
      rfl
  | object fields ih =>
    have hfields : (expandFields follow fields).result = .ok fields := by
      rw [Value.references] at h
      induction fields with
      | nil => rfl
      | cons field rest ihrest =>
        rw [Value.fieldReferences, List.forall_mem_append] at h
        have hfield := ih field List.mem_cons_self h.1
        have hrest := ihrest (fun f hf => ih f (List.mem_cons_of_mem _ hf)) h.2
        exact Traced.bind_eq_ok_iff.2 ⟨_, hfield, Traced.bind_eq_ok_iff.2 ⟨_, hrest, rfl⟩⟩
    exact Traced.bind_eq_ok_iff.2 ⟨_, hfields, rfl⟩
  | null | bool | int | float | list => rfl

end Unchanged

/-- **A value whose aliases name no defined path is left as it is.** -/
theorem result_expand_self {value : Value}
    (h : ∀ path, value.Writes path → scopes.find? path = none) :
    (expand scopes context value).result = .ok value := by
  refine result_expandWith_self fun r hr => ?_
  exact result_expandAlias_of_missing List.not_mem_nil
    (h r.path (Value.exists_reference_iff.1 ⟨r, hr, rfl⟩))

end Alias

end DesignTokens
