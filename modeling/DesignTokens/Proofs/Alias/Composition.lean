import DesignTokens.Proofs.Alias.Substitution
import Mathlib.Data.List.Forall2

/-!
# Expansion is compositional

What a value expands to is put together from what its parts expand to on their own. The chain of
paths that a nested expansion carries decides nothing but where a cycle is noticed: what is returned
under any chain is returned without one (`result_expandAlias_of_subset`).

* `result_expandWith_nil` — the same for a value instead of an alias.
* `expandWith_text_eq_ok_iff`, `expandWith_object_eq_ok_iff` — texts and objects by their parts.
* `expand_compositional` — every kind of value by its parts.
* `expand_induction` — what follows for proofs about expansions: what is shown of an expansion may
  be used of the expansions that it is put together from.
-/

namespace DesignTokens

namespace Alias

variable {scopes : Scopes} {context : String} {chain : List String}

/-- What a value becomes under a chain, it becomes without one. -/
theorem result_expandWith_nil {value w : Value}
    (ok : (expandWith (expandAlias scopes context chain) value).result = .ok w) :
    (expand scopes context value).result = .ok w := by
  rw [expand, ← ok]
  refine result_expandWith_congr fun r hr => ?_
  obtain ⟨v, hv⟩ := expandWith_ok_iff.1 ⟨w, ok⟩ r hr
  rw [hv, result_expandAlias_of_subset (by simp) hv]

/-- The text that is put in for an alias is that of the alias expanded on its own. -/
theorem inserts_expandAlias_nil {name inserted : List Char} (isName : IsName name) :
    Inserts (expandAlias scopes context []) name inserted ↔
      ∃ value, (expand scopes context (.str (aliasText (String.ofList name)))).result = .ok value ∧
        inserted = value.text.toList := by
  rw [Inserts, expand_aliasText (by rwa [IsAliasName, String.toList_ofList])]

/-- A text that is an alias is expanded as that alias; a line feed after it is kept for the case
that nothing is found. -/
theorem expand_wholeAlias {text path : String} (whole : IsWholeAlias text path) :
    expand scopes context (.str text) = expandAlias scopes context [] path text := by
  rw [expand, expandWith, expandText, wholeAlias?_eq_some_iff.2 whole]
  simp only [String.ofList_toList]

/-- **A text** that is an alias becomes what the alias becomes, and any other text becomes itself
with its aliases replaced. -/
theorem expandWith_text_eq_ok_iff {follow : (path written : String) → Expansion Value}
    {text : String} {w : Value} :
    (expandWith follow (.str text)).result = .ok w ↔
      (∃ path, IsWholeAlias text path ∧ (follow path text).result = .ok w) ∨
        (∀ path, ¬ IsWholeAlias text path) ∧
          ∃ out, w = .str out ∧ Substitutes (Inserts follow) text.toList out.toList := by
  have whole : ∀ path, IsWholeAlias text path ↔ wholeAlias? text.toList = some path.toList :=
    fun path => wholeAlias?_eq_some_iff.symm
  simp only [whole]
  rw [expandWith, expandText]
  cases wholeAlias? text.toList with
  | some name =>
    refine ⟨fun ok => Or.inl ⟨_, by rw [String.toList_ofList], ok⟩, ?_⟩
    rintro (⟨path, same, ok⟩ | ⟨mixed, -⟩)
    · obtain rfl := Option.some.inj same
      simpa only [String.ofList_toList] using ok
    · exact absurd (by rw [String.toList_ofList]) (mixed (String.ofList name))
  | none =>
    simp only [Traced.bind_eq_ok_iff, expandPieces_scan_eq_ok_iff, Traced.result_pure,
      Except.ok.injEq]
    refine ⟨?_, ?_⟩
    · rintro ⟨out, h, same⟩
      exact Or.inr ⟨fun _ => by simp, out, same.symm, h⟩
    · rintro (⟨path, same, -⟩ | ⟨-, out, same, h⟩)
      · cases same
      · exact ⟨out, h, same.symm⟩

theorem expandFields_eq_ok_iff {follow : (path written : String) → Expansion Value}
    {fields expanded : Fields} :
    (expandFields follow fields).result = .ok expanded ↔
      List.Forall₂ (fun field e => e.1 = field.1 ∧ (expandWith follow field.2).result = .ok e.2)
        fields expanded := by
  induction fields generalizing expanded with
  | nil =>
    rw [expandFields, Traced.result_pure, Except.ok.injEq, List.forall₂_nil_left_iff, eq_comm]
  | cons field rest ih =>
    obtain ⟨key, value⟩ := field
    rw [expandFields, Traced.bind_eq_ok_iff]
    refine ⟨?_, ?_⟩
    · rintro ⟨w, hw, hrest⟩
      obtain ⟨more, hmore, same⟩ := Traced.bind_eq_ok_iff.1 hrest
      obtain rfl := Except.ok.inj same
      exact .cons ⟨rfl, hw⟩ (ih.1 hmore)
    · rintro (_ | ⟨⟨rfl, hw⟩, hmore⟩)
      exact ⟨_, hw, Traced.bind_eq_ok_iff.2 ⟨_, ih.2 hmore, rfl⟩⟩

/-- **An object** keeps its keys, and the fields are expanded one by one. -/
theorem expandWith_object_eq_ok_iff {follow : (path written : String) → Expansion Value}
    {fields : Fields} {w : Value} :
    (expandWith follow (.object fields)).result = .ok w ↔
      ∃ expanded, w = .object expanded ∧
        List.Forall₂ (fun field e => e.1 = field.1 ∧ (expandWith follow field.2).result = .ok e.2)
          fields expanded := by
  rw [expandWith, Traced.bind_eq_ok_iff]
  simp only [expandFields_eq_ok_iff, Traced.result_pure, Except.ok.injEq]
  exact exists_congr fun e => and_comm.trans (and_congr_left' eq_comm)

/-- **Expansion is compositional.** In any scopes,

* what is returned for an alias under a chain is returned for it without one;
* a text that is an alias of a defined path becomes exactly what the value of the path becomes on
  its own, of whatever type, and with an undefined path it stays as it is;
* any other text becomes itself, with each alias replaced by the plain text of what this alias
  becomes on its own, and nothing that was put in is looked at again;
* an object keeps its keys in their order, and the value of each becomes what it becomes on its
  own;
* every other value stays as it is, lists included. -/
theorem expand_compositional (scopes : Scopes) (context : String) :
    (∀ chain path written w,
      (expandAlias scopes context chain path written).result = .ok w →
        (expandAlias scopes context [] path written).result = .ok w) ∧
    (∀ text path, IsWholeAlias text path →
      (∀ target, scopes.find? path = some target → ∀ w,
        (expand scopes context (.str text)).result = .ok w ↔
          (expand scopes context target).result = .ok w) ∧
      (scopes.find? path = none → (expand scopes context (.str text)).result = .ok (.str text))) ∧
    (∀ text, (∀ path, ¬ IsWholeAlias text path) → ∀ w,
      (expand scopes context (.str text)).result = .ok w ↔
        ∃ out, w = .str out ∧
          Substitutes (fun name inserted => ∃ value,
            (expand scopes context (.str (aliasText (String.ofList name)))).result = .ok value ∧
              inserted = value.text.toList) text.toList out.toList) ∧
    (∀ fields w, (expand scopes context (.object fields)).result = .ok w ↔
      ∃ expanded, w = .object expanded ∧
        List.Forall₂ (fun field e => e.1 = field.1 ∧
          (expand scopes context field.2).result = .ok e.2) fields expanded) ∧
    (∀ value, (∀ text, value ≠ .str text) → (∀ fields, value ≠ .object fields) →
      expand scopes context value = pure value) := by
  refine ⟨fun chain path written w ok => result_expandAlias_of_subset (by simp) ok, ?_, ?_, ?_, ?_⟩
  · intro text path whole
    rw [expand_wholeAlias whole]
    exact ⟨fun target found w => result_expandAlias_nil_of_found found,
      fun missing => result_expandAlias_of_missing List.not_mem_nil missing⟩
  · intro text mixed w
    have notWhole : ¬ ∃ path, IsWholeAlias text path ∧
        (expandAlias scopes context [] path text).result = .ok w := by
      rintro ⟨path, whole, -⟩
      exact mixed path whole
    rw [expand, expandWith_text_eq_ok_iff, or_iff_right notWhole, and_iff_right mixed]
    refine exists_congr fun out => and_congr_right fun _ => ⟨fun h => ?_, fun h => ?_⟩
    · exact h.imp fun _ _ isName => (inserts_expandAlias_nil isName).1
    · exact h.imp fun _ _ isName => (inserts_expandAlias_nil isName).2
  · exact fun fields w => expandWith_object_eq_ok_iff
  · intro value noText noObject
    cases value with
    | str text => exact absurd rfl (noText text)
    | object fields => exact absurd rfl (noObject fields)
    | null | bool | int | float | list => rfl

/-- An alias takes a number over as a number; inside a text it is put in as text. -/
theorem edge_is_put_together :
    let scopes : Scopes := [[("size", .int 4), ("edge", .str "\x7bsize\x7d \x7bsize\x7d")]]
    (expand scopes "t" (.str "\x7bsize\x7d")).result = .ok (.int 4) ∧
    (expand scopes "t" (.str "\x7bedge\x7d\n")).result = .ok (.str "4 4") ∧
    (expand scopes "t" (.str "\x7bgap\x7d\n")).result = .ok (.str "\x7bgap\x7d\n") ∧
    (expandAlias scopes "t" [] "size" "\x7bsize\x7d").result = .ok (.int 4) := by
  intro scopes
  obtain ⟨chains, whole, mixed, -, other⟩ := expand_compositional scopes "t"
  have size : (expand scopes "t" (.str "\x7bsize\x7d")).result = .ok (.int 4) := by
    refine ((whole _ "size" ⟨by decide, Or.inl rfl⟩).1 (.int 4) rfl _).2 ?_
    rw [other (.int 4) (by simp) (by simp)]
    rfl
  refine ⟨size, ?_, ?_, ?_⟩
  · refine ((whole _ "edge" ⟨by decide, Or.inr rfl⟩).1 _ rfl _).2 ((mixed _ ?_ _).2 ⟨_, rfl, ?_⟩)
    · intro path isWhole
      have := wholeAlias?_eq_some_iff.2 isWhole
      rw [show wholeAlias? "\x7bsize\x7d \x7bsize\x7d".toList = none by decide] at this
      cases this
    · have isName : IsName "size".toList := by decide
      refine @Substitutes.next _ [] "size".toList ['4'] " \x7bsize\x7d".toList " 4".toList
        (plain_of_not_mem List.not_mem_nil) isName ⟨_, size, by decide⟩ ?_
      exact @Substitutes.next _ [' '] "size".toList ['4'] [] []
        (plain_of_not_mem (by decide)) isName ⟨_, size, by decide⟩
        (.plain (plain_of_not_mem List.not_mem_nil))
  · exact (whole _ "gap" ⟨by decide, Or.inr rfl⟩).2 rfl
  · exact chains ["edge"] "size" _ _ (by rw [expandAlias]; rfl)

/-- **Induction along an expansion.** What is shown of an expansion may be used of the expansions
that it is put together from: those of the values that its aliases name, and those of the fields of
an object. -/
@[elab_as_elim]
theorem expand_induction {motive : Value → Value → Prop}
    (missing : ∀ text path, IsWholeAlias text path → scopes.find? path = none →
      motive (.str text) (.str text))
    (whole : ∀ text path target w, IsWholeAlias text path → scopes.find? path = some target →
      motive target w → motive (.str text) w)
    (mixed : ∀ text out, (expand scopes context (.str text)).result = .ok (.str out) →
      Substitutes (fun name inserted => ∃ v,
        (expand scopes context (.str (aliasText (String.ofList name)))).result = .ok v ∧
          inserted = v.text.toList ∧
          ∀ target, scopes.find? (String.ofList name) = some target → motive target v)
        text.toList out.toList → motive (.str text) (.str out))
    (object : ∀ fields expanded,
      List.Forall₂ (fun field e => motive field.2 e.2) fields expanded →
        motive (.object fields) (.object expanded))
    (other : ∀ value, (∀ text, value ≠ .str text) → (∀ fields, value ≠ .object fields) →
      motive value value)
    {value w : Value} (ok : (expand scopes context value).result = .ok w) : motive value w := by
  -- a value under a chain, given what is known of the targets that are entered from it
  have inside : ∀ chain, (∀ path written target v, scopes.find? path = some target →
      (expandAlias scopes context chain path written).result = .ok v → motive target v) →
      ∀ value w, (expandWith (expandAlias scopes context chain) value).result = .ok w →
        motive value w := by
    intro chain entered value
    induction value using Value.fieldInduction with
    | str text =>
      intro w ok'
      rcases expandWith_text_eq_ok_iff.1 ok' with ⟨path, isWhole, ok⟩ | ⟨-, out, rfl, h⟩
      · cases found : scopes.find? path with
        | none =>
          have alone := result_expandWith_nil ok'
          rw [expand_wholeAlias isWhole, result_expandAlias_of_missing List.not_mem_nil found]
            at alone
          obtain rfl := Except.ok.inj alone
          exact missing text path isWhole found
        | some target =>
          exact whole text path target w isWhole found (entered _ _ target w found ok)
      · refine mixed text out (result_expandWith_nil ok') (h.imp ?_)
        rintro name _ isName ⟨v, hv, rfl⟩
        refine ⟨v, ?_, rfl, fun target found => entered _ _ target v found hv⟩
        rw [expand_aliasText (by rwa [IsAliasName, String.toList_ofList])]
        exact result_expandAlias_of_subset (by simp) hv
    | object fields ih =>
      intro w ok
      obtain ⟨expanded, rfl, hexpanded⟩ := expandWith_object_eq_ok_iff.1 ok
      have both := (List.forall₂_and_left _ _).2 ⟨ih, hexpanded⟩
      exact object fields expanded (both.imp fun field e ⟨known, _, becomes⟩ => known _ becomes)
    | null | bool | int | float | list =>
      intro w ok
      obtain rfl := Except.ok.inj ok
      exact other _ (by simp) (by simp)
  have entered : ∀ chain path written target v, scopes.find? path = some target →
      (expandAlias scopes context chain path written).result = .ok v → motive target v := by
    intro chain
    induction chain using Scopes.chainInduction scopes with
    | step chain ih =>
      intro path written target v found ok
      by_cases mem : path ∈ chain
      · rw [expandAlias_of_mem mem] at ok
        cases ok
      rw [expandAlias_of_found mem found] at ok
      exact inside _ (ih path target mem found) target v ok
  exact inside [] (entered []) value w ok

end Alias

end DesignTokens
