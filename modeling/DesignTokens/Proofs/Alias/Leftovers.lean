import DesignTokens.Proofs.Alias.Composition
import DesignTokens.Proofs.Alias.Warnings
import DesignTokens.Proofs.Value.PlainText

/-!
# Aliases that are left over

An expanded value may still write an alias, and there are two ways to come to that. A path that no
scope defines keeps its alias, in whatever value it is met. And a text is substituted once: what
was put in is not read again together with what stands around it, so braces of different origin
can come to enclose a name, and make an alias that nobody wrote.

* `Scopes.Meets` — the values that an expansion passes through.
* `Joins` — a text whose substitution puts an alias together.
* `Scopes.Leaves` — an expansion meets one or the other, and `writes_expand_iff` says that these are
  exactly the expansions that leave an alias.
* `brace_not_mem_expand` — where no value has a brace outside its aliases, none is left in the
  expanded text, so no alias is.
-/

namespace DesignTokens

/-- Something is missing in a value when it writes a path that no scope defines. -/
theorem Value.missing_ne_nil_iff {scopes : Scopes} {value : Value} :
    value.missing scopes ≠ [] ↔ ∃ path, value.Writes path ∧ scopes.find? path = none := by
  simp only [missing, ne_eq, List.filter_eq_nil_iff, Classical.not_forall, Classical.not_not,
    Option.isNone_iff_eq_none, ← exists_reference_iff]
  refine ⟨?_, ?_⟩
  · rintro ⟨r, hr, none⟩
    exact ⟨r.path, ⟨r, hr, rfl⟩, none⟩
  · rintro ⟨_, ⟨r, hr, rfl⟩, none⟩
    exact ⟨r, hr, none⟩

theorem Value.missing_field_ne_nil {scopes : Scopes} {fields : Fields} {key : String}
    {value : Value} (mem : (key, value) ∈ fields) (missing : value.missing scopes ≠ []) :
    (Value.object fields).missing scopes ≠ [] := by
  obtain ⟨path, writes, none⟩ := missing_ne_nil_iff.1 missing
  exact missing_ne_nil_iff.2 ⟨path, .field mem writes, none⟩

/-- An expansion **meets** the value itself, what it meets in the fields of an object, and what it
meets in the values that the aliases of a text name. -/
inductive Scopes.Meets (scopes : Scopes) : Value → Value → Prop
  | here (value : Value) : Meets scopes value value
  | field {fields : Fields} {key : String} {value met : Value} (mem : (key, value) ∈ fields)
      (later : Meets scopes value met) : Meets scopes (.object fields) met
  | named {text path : String} {target met : Value} (writes : (Value.str text).Writes path)
      (found : scopes.find? path = some target) (later : Meets scopes target met) :
      Meets scopes (.str text) met

/-- A value with something missing is the value that is expanded, or it belongs to a value that the
scopes hold. -/
theorem Scopes.Meets.missing_cases {scopes : Scopes} {value met : Value}
    (meets : scopes.Meets value met) (missing : met.missing scopes ≠ []) :
    value.missing scopes ≠ [] ∨ ∃ path target, scopes.find? path = some target ∧
      scopes.Meets value target ∧ target.missing scopes ≠ [] := by
  induction meets with
  | here => exact Or.inl missing
  | field mem _ ih =>
    rcases ih missing with own | ⟨path, target, found, meets, own⟩
    · exact Or.inl (Value.missing_field_ne_nil mem own)
    · exact Or.inr ⟨path, target, found, .field mem meets, own⟩
  | named writes found _ ih =>
    rcases ih missing with own | ⟨path, target, found', meets, own⟩
    · exact Or.inr ⟨_, _, found, .named writes found (.here _), own⟩
    · exact Or.inr ⟨path, target, found', .named writes found meets, own⟩

namespace Alias

variable {scopes : Scopes} {context : String} {value w : Value}

/-- A text that is an alias of a path writes the path. -/
theorem IsWholeAlias.writes {text path : String} (whole : IsWholeAlias text path) :
    (Value.str text).Writes path := by
  obtain ⟨isName, rfl | rfl⟩ := whole
  · exact .text isName List.infix_rfl
  · exact .text isName ⟨[], ['\n'], by rw [String.toList_append]; rfl⟩

theorem mem_aliases_iff_writes {text path : String} :
    path.toList ∈ aliases text.toList ↔ (Value.str text).Writes path := by
  rw [mem_aliases_iff, Value.writes_str_iff, toList_aliasText, IsAliasName]

/-! ### What an expansion takes over -/

/-- What is left in the value of an alias is left in the text that writes the alias. -/
theorem exists_expand_of_writes {text path : String} (writes : (Value.str text).Writes path)
    (ok : (expand scopes context (.str text)).result = .ok w) :
    ∃ v, (expand scopes context (.str (aliasText path))).result = .ok v ∧
      ((∃ q, v.Writes q) → ∃ q, w.Writes q) := by
  have isName := (Value.writes_str_iff.1 writes).1
  have mem := mem_aliases_iff_writes.2 writes
  rcases expandWith_text_eq_ok_iff.1 ok with ⟨p, whole, ok⟩ | ⟨-, out, rfl, h⟩
  · -- the text has no other alias than the one that it is
    rw [aliases_of_wholeAlias? (wholeAlias?_eq_some_iff.2 whole), List.mem_singleton,
      String.toList_inj] at mem
    subst mem
    rw [expand_aliasText isName]
    cases found : scopes.find? path with
    | none =>
      rw [result_expandAlias_of_missing List.not_mem_nil found] at ok
      obtain rfl := Except.ok.inj ok
      exact ⟨_, result_expandAlias_of_missing List.not_mem_nil found, fun _ => ⟨path, writes⟩⟩
    | some target =>
      rw [result_expandAlias_nil_of_found found] at ok
      exact ⟨w, (result_expandAlias_nil_of_found found).2 ok, id⟩
  · obtain ⟨_, replaced, inside⟩ := h.exists_inserted mem
    obtain ⟨v, hv, rfl⟩ := (inserts_expandAlias_nil isName).1 replaced
    rw [String.ofList_toList] at hv
    refine ⟨v, hv, fun ⟨q, hq⟩ => ⟨q, ?_⟩⟩
    obtain ⟨name, stands⟩ := hq.infix_text
    exact .text name (stands.trans inside)

/-- What is left in a field is left in the object. -/
theorem exists_expand_of_field {fields : Fields} {key : String} (mem : (key, value) ∈ fields)
    (ok : (expand scopes context (.object fields)).result = .ok w) :
    ∃ v, (expand scopes context value).result = .ok v ∧
      ((∃ q, v.Writes q) → ∃ q, w.Writes q) := by
  obtain ⟨expanded, rfl, hexpanded⟩ := expandWith_object_eq_ok_iff.1 ok
  obtain ⟨e, he, -, becomes⟩ := exists_mem_of_mem_left hexpanded mem
  exact ⟨e.2, becomes, fun ⟨q, hq⟩ => ⟨q, .field he hq⟩⟩

/-- **What is left in a value that is met is left.** -/
theorem exists_expand_of_meets {met : Value} (meets : scopes.Meets value met)
    (ok : (expand scopes context value).result = .ok w) :
    ∃ v, (expand scopes context met).result = .ok v ∧
      ((∃ q, v.Writes q) → ∃ q, w.Writes q) := by
  induction meets generalizing w with
  | here => exact ⟨w, ok, id⟩
  | field mem _ ih =>
    obtain ⟨u, hu, left⟩ := exists_expand_of_field mem ok
    obtain ⟨v, hv, left'⟩ := ih hu
    exact ⟨v, hv, left ∘ left'⟩
  | named writes found _ ih =>
    obtain ⟨u, hu, left⟩ := exists_expand_of_writes writes ok
    rw [expand_aliasText (Value.writes_str_iff.1 writes).1, result_expandAlias_nil_of_found found]
      at hu
    obtain ⟨v, hv, left'⟩ := ih hu
    exact ⟨v, hv, left ∘ left'⟩

/-- An alias of a path that is not defined is left. -/
theorem exists_writes_of_missing (missing : value.missing scopes ≠ [])
    (ok : (expand scopes context value).result = .ok w) : ∃ q, w.Writes q := by
  obtain ⟨path, writes, none⟩ := Value.missing_ne_nil_iff.1 missing
  clear missing
  induction writes generalizing w with
  | @text text path isName stands =>
    have writes : (Value.str text).Writes path := .text isName stands
    obtain ⟨v, hv, left⟩ := exists_expand_of_writes writes ok
    -- on its own the alias keeps its text
    rw [expand_aliasText isName, result_expandAlias_of_missing List.not_mem_nil none] at hv
    obtain rfl := Except.ok.inj hv
    exact left ⟨path, .text isName List.infix_rfl⟩
  | field mem _ ih =>
    obtain ⟨v, hv, left⟩ := exists_expand_of_field mem ok
    exact left (ih hv none)

/-! ### Where an alias comes from -/

/-- A text **joins** an alias when nothing that is put in for its own aliases holds one, and yet
the text with all this put in does. -/
structure Joins (scopes : Scopes) (context text : String) : Prop where
  apart : ∀ path, (Value.str text).Writes path → ∀ v,
    (expand scopes context (.str (aliasText path))).result = .ok v → ∀ q, ¬ v.Writes q
  together : ∃ out path, (expand scopes context (.str text)).result = .ok (.str out) ∧
    (Value.str out).Writes path

end Alias

/-- An expansion **leaves** an alias when it meets a text that joins one, or a value in which a path
is missing. -/
def Scopes.Leaves (scopes : Scopes) (context : String) (value : Value) : Prop :=
  (∃ text, scopes.Meets value (.str text) ∧ Alias.Joins scopes context text) ∨
    ∃ met, scopes.Meets value met ∧ met.missing scopes ≠ []

theorem Scopes.Leaves.imp {scopes : Scopes} {context : String} {value value' : Value}
    (leaves : scopes.Leaves context value)
    (h : ∀ met, scopes.Meets value met → scopes.Meets value' met) :
    scopes.Leaves context value' :=
  Or.imp (fun ⟨text, meets, joins⟩ => ⟨text, h _ meets, joins⟩)
    (fun ⟨met, meets, missing⟩ => ⟨met, h _ meets, missing⟩) leaves

namespace Alias

variable {scopes : Scopes} {context : String} {value w : Value}

/-- **The aliases that an expansion leaves.** An expanded value writes an alias exactly when its
expansion met a text that joins one, or a value in which a path is missing. -/
theorem writes_expand_iff (ok : (expand scopes context value).result = .ok w) :
    (∃ path, w.Writes path) ↔ scopes.Leaves context value := by
  refine ⟨?_, ?_⟩
  · refine expand_induction ?missing ?whole ?mixed ?object ?other ok
    case missing =>
      rintro text path whole none -
      exact Or.inr ⟨_, .here _, Value.missing_ne_nil_iff.2 ⟨path, whole.writes, none⟩⟩
    case whole =>
      intro text path target w whole found ih left
      exact (ih left).imp fun _ meets => .named whole.writes found meets
    case mixed =>
      rintro text out ok h ⟨q, hq⟩
      by_cases apart : ∀ path, (Value.str text).Writes path → ∀ v,
          (expand scopes context (.str (aliasText path))).result = .ok v → ∀ q, ¬ v.Writes q
      · exact Or.inl ⟨text, .here _, apart, out, q, ok, hq⟩
      -- something that was put in holds an alias
      simp only [Classical.not_forall, Classical.not_not] at apart
      obtain ⟨path, writes, v, hv, left⟩ := apart
      cases found : scopes.find? path with
      | none => exact Or.inr ⟨_, .here _, Value.missing_ne_nil_iff.2 ⟨path, writes, found⟩⟩
      | some target =>
        obtain ⟨_, ⟨v', hv', -, known⟩, -⟩ := h.exists_inserted (mem_aliases_iff_writes.2 writes)
        rw [String.ofList_toList] at hv' known
        obtain rfl := Except.ok.inj (hv'.symm.trans hv)
        exact (known target found left).imp fun _ meets => .named writes found meets
    case object =>
      rintro fields expanded h ⟨q, hq⟩
      obtain ⟨e, he, hq⟩ := Value.writes_object_iff.1 hq
      obtain ⟨field, hfield, known⟩ := exists_mem_of_mem_left (List.Forall₂.flip h) he
      exact (known ⟨q, hq⟩).imp fun _ meets => .field hfield meets
    case other =>
      rintro value noText noObject ⟨q, hq⟩
      cases hq with
      | text => exact absurd rfl (noText _)
      | field => exact absurd rfl (noObject _)
  · rintro (⟨text, meets, joins⟩ | ⟨met, meets, missing⟩)
    · obtain ⟨v, hv, left⟩ := exists_expand_of_meets meets ok
      obtain ⟨out, path, hout, writes⟩ := joins.together
      rw [hout] at hv
      obtain rfl := Except.ok.inj hv
      exact left ⟨path, writes⟩
    · obtain ⟨v, hv, left⟩ := exists_expand_of_meets meets ok
      exact left (exists_writes_of_missing missing hv)

/-! ### Braces -/

/-- **Where no brace strays, no brace is left.** Let neither the value nor any value of the scopes
have a brace of one kind outside its aliases, and let no path be missing in them. Then the expanded
value has no such brace in its plain text. -/
theorem brace_not_mem_expand {brace : Char} (isBrace : brace = '{' ∨ brace = '}')
    (clean : ∀ path target, scopes.find? path = some target →
      ¬ target.Strays brace ∧ target.missing scopes = [])
    (ok : (expand scopes context value).result = .ok w) (tidy : ¬ value.Strays brace)
    (complete : value.missing scopes = []) : brace ∉ w.text.toList := by
  revert tidy complete
  refine expand_induction ?missing ?whole ?mixed ?object ?other ok
  case missing =>
    intro text path whole none tidy complete
    exact absurd complete (Value.missing_ne_nil_iff.2 ⟨path, whole.writes, none⟩)
  case whole =>
    intro text path target w whole found ih _ _
    exact ih (clean path target found).1 (clean path target found).2
  case mixed =>
    intro text out _ h tidy complete mem
    rcases h.mem_cases mem with outside | ⟨name, hname, _, ⟨v, -, rfl, known⟩, mem⟩
    · exact tidy (.text outside)
    -- a brace of an alias itself is gone, so this one was put in
    rw [← @String.toList_ofList name, mem_aliases_iff_writes] at hname
    obtain ⟨target, found⟩ := Value.exists_find?_of_missing_eq_nil complete hname
    exact known target found (clean _ target found).1 (clean _ target found).2 mem
  case object =>
    intro fields expanded h tidy complete mem
    rw [Value.toList_text_object] at mem
    rcases Value.mem_intercalate_cases mem with between | ⟨_, hpart, mem⟩
    · obtain rfl := List.mem_singleton.1 between
      rcases isBrace with h | h <;> cases h
    obtain ⟨e, he, rfl⟩ := List.mem_map.1 hpart
    obtain ⟨field, hfield, known⟩ := exists_mem_of_mem_left (List.Forall₂.flip h) he
    refine known (fun strays => tidy (.field hfield strays)) ?_ mem
    exact Classical.byContradiction fun missing =>
      Value.missing_field_ne_nil hfield missing complete
  case other =>
    exact fun value noText noObject tidy _ mem =>
      tidy (Value.strays_of_mem_text isBrace noText noObject mem)

end Alias

end DesignTokens
