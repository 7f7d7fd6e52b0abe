import DesignTokens.Proofs.Stylesheet.ThemePairs

/-!
# Registered properties

A property is registered at most once, since a second rule for it would replace the first. The rule
takes the type that the name tells and the value of the first declaration, where the shared
declarations come before those of the dark theme. So a dark value is registered only for a name that
the shared declarations do not have.

* `FirstDeclared` — the value of the first declaration of a name; `firstValue?_eq_some_iff` —
  looking for the first value finds just that.
* `propertyRules_eq_append` — the dark theme adds rules behind those of the shared declarations and
  changes none of them.
* `propertyRules_register_once` — typed names have one rule each, in the order of their first
  declarations.
-/

namespace DesignTokens

variable {declarations more root dark : List Declaration} {name value rule : String}

/-! ### First declarations -/

/-- A name is declared, and its first declaration has the given value. -/
def FirstDeclared (declarations : List Declaration) (name value : String) : Prop :=
  ∃ before d after, declarations = before ++ d :: after ∧ d.name = name ∧ d.value = value ∧
    ∀ earlier ∈ before, earlier.name ≠ name

/-- **Looking for the first value** of a name finds the value of its first declaration. -/
theorem firstValue?_eq_some_iff :
    firstValue? name declarations = some value ↔ FirstDeclared declarations name value := by
  simp only [firstValue?, Option.map_eq_some_iff, List.find?_eq_some_iff_append, decide_eq_true_eq,
    Bool.not_eq_true', decide_eq_false_iff_not]
  constructor
  · rintro ⟨d, ⟨named, before, after, cut, new⟩, valued⟩
    exact ⟨before, d, after, cut, named, valued, new⟩
  · rintro ⟨before, d, after, cut, named, valued, new⟩
    exact ⟨d, ⟨named, before, after, cut, new⟩, valued⟩

/-- A declared name has a first value. -/
theorem isSome_firstValue?_iff :
    (firstValue? name declarations).isSome ↔ name ∈ declaredNames declarations := by
  rw [firstValue?, Option.isSome_map, List.find?_isSome, mem_declaredNames_iff]
  simp

/-- Later declarations do not count for a name that has been declared. -/
theorem firstValue?_append_of_mem (declared : name ∈ declaredNames declarations) :
    firstValue? name (declarations ++ more) = firstValue? name declarations := by
  obtain ⟨value, found⟩ := Option.isSome_iff_exists.1 (isSome_firstValue?_iff.2 declared)
  rw [found, firstValue?_eq_some_iff]
  obtain ⟨before, d, after, rfl, rest⟩ := firstValue?_eq_some_iff.1 found
  exact ⟨before, d, after ++ more, by simp, rest⟩

/-- Declarations without a name can be left out in front of those with it, and among them. -/
theorem firstValue?_append_of_not_mem (new : name ∉ declaredNames declarations) :
    firstValue? name (declarations ++ more) =
      firstValue? name (more.filter fun d => d.name ∉ declaredNames declarations) := by
  have absent : declarations.find? (fun d => d.name = name) = none := by
    rw [List.find?_eq_none]
    intro d mem named
    exact new (mem_declaredNames_iff.2 ⟨d, mem, of_decide_eq_true named⟩)
  have kept : ∀ d : Declaration, d.name = name → d.name ∉ declaredNames declarations :=
    fun d named => named ▸ new
  simp only [firstValue?, List.find?_append, absent, Option.none_or, List.find?_filter,
    decide_eq_true_eq]
  congr 3
  funext d
  exact decide_eq_decide.2 ⟨fun named => ⟨kept d named, named⟩, And.right⟩

/-! ### One list of declarations after another -/

/-- The names of further declarations come behind the others, unless they are among them. -/
theorem declaredNames_append (declarations more : List Declaration) :
    declaredNames (declarations ++ more) = declaredNames declarations ++
      declaredNames (more.filter fun d => d.name ∉ declaredNames declarations) := by
  have new : (more.map (·.name)).removeAll (declarations.map (·.name)) =
      (more.filter fun d => d.name ∉ declaredNames declarations).map (·.name) := by
    rw [List.removeAll, List.filter_map]
    congr 2
    funext d
    simp only [Function.comp_apply, List.elem_eq_mem, declaredNames, List.mem_eraseDups, decide_not]
  rw [declaredNames, List.map_append, List.eraseDups_append, new]
  rfl

/-- The rule that registers a name with its first value, if the name tells a type. -/
def registration? (declarations : List Declaration) (name : String) : Option String :=
  match propertySyntax? name, firstValue? name declarations with
  | some syntaxText, some value => some (propertyRule name syntaxText value)
  | _, _ => none

theorem propertyRules_eq (root dark : List Declaration) :
    propertyRules root dark =
      (declaredNames (root ++ dark)).filterMap (registration? (root ++ dark)) :=
  rfl

/-- **Shared values win.** The dark theme adds rules behind those of the shared declarations: the
rules of what it declares without them, under names that they do not have. -/
theorem propertyRules_eq_append (root dark : List Declaration) :
    propertyRules root dark = propertyRules root [] ++
      propertyRules [] (dark.filter fun d => d.name ∉ declaredNames root) := by
  have shared : ∀ name ∈ declaredNames root,
      registration? (root ++ dark) name = registration? root name := fun name declared => by
    simp only [registration?, firstValue?_append_of_mem declared]
  have added : ∀ name ∈ declaredNames (dark.filter fun d => d.name ∉ declaredNames root),
      registration? (root ++ dark) name =
        registration? (dark.filter fun d => d.name ∉ declaredNames root) name := by
    intro name declared
    obtain ⟨d, mem, rfl⟩ := mem_declaredNames_iff.1 declared
    have new : d.name ∉ declaredNames root := of_decide_eq_true (List.mem_filter.1 mem).2
    simp only [registration?, firstValue?_append_of_not_mem new]
  simp only [propertyRules_eq, declaredNames_append root dark, List.filterMap_append,
    List.append_nil, List.nil_append]
  rw [List.filterMap_congr shared, List.filterMap_congr added]

/-! ### Rules and names -/

/-- A rule registers a name: it has these five lines, with the type that the name tells and with the
value of its first declaration. -/
def Registers (declarations : List Declaration) (name rule : String) : Prop :=
  ∃ syntaxText value, propertySyntax? name = some syntaxText ∧
    FirstDeclared declarations name value ∧
    rule = "\n".intercalate
      ["@property --" ++ name ++ " \x7b",
        "  syntax: '" ++ syntaxText ++ "';",
        "  inherits: true;",
        "  initial-value: " ++ value ++ ";",
        "\x7d"]

theorem registration?_eq_some_iff :
    registration? declarations name = some rule ↔ Registers declarations name rule := by
  have lines : ∀ syntaxText value, propertyRule name syntaxText value = "\n".intercalate _ :=
    fun syntaxText value => propertyRule_eq_stack name syntaxText value
  simp only [registration?, Registers, ← firstValue?_eq_some_iff, ← lines]
  cases propertySyntax? name <;> cases firstValue? name declarations <;> simp [eq_comm]

/-- A declared name is registered exactly if it tells a type. -/
theorem isSome_registration?_iff (declared : name ∈ declaredNames declarations) :
    (registration? declarations name).isSome ↔ (propertySyntax? name).isSome := by
  obtain ⟨value, found⟩ := Option.isSome_iff_exists.1 (isSome_firstValue?_iff.2 declared)
  simp only [registration?, found]
  cases propertySyntax? name <;> simp

/-- The elements that something is made from, beside what is made from them. -/
theorem forall₂_filterMap {α β : Type} (f : α → Option β) (l : List α) :
    List.Forall₂ (fun x y => f x = some y) (l.filter fun x => (f x).isSome) (l.filterMap f) := by
  induction l with
  | nil => exact .nil
  | cons x rest ih =>
    cases made : f x with
    | none => simpa [made] using ih
    | some y => simpa [made] using ih

/-- **Properties are registered once.** Whatever declarations are shared and whatever the dark theme
declares, there is one rule for each name among them that tells a type, and no other rule. The rules
stand in the order in which the names are first declared, and each has the value of that
declaration. The rules of the shared declarations come first, as they are without the dark theme. -/
theorem propertyRules_register_once (root dark : List Declaration) :
    (∃ names : List String,
      List.Forall₂ (Registers (root ++ dark)) names (propertyRules root dark) ∧ names.Nodup ∧
      (∀ name, name ∈ names ↔
        (∃ d ∈ root ++ dark, d.name = name) ∧ (propertySyntax? name).isSome) ∧
      names.Pairwise fun n n' =>
        firstDeclaredAt (root ++ dark) n < firstDeclaredAt (root ++ dark) n') ∧
    propertyRules root dark = propertyRules root [] ++
      propertyRules [] (dark.filter fun d => d.name ∉ declaredNames root) := by
  refine ⟨⟨(declaredNames (root ++ dark)).filter fun name =>
    (registration? (root ++ dark) name).isSome, ?_, nodup_declaredNames.filter _, fun name => ?_,
    (pairwise_declaredNames _).sublist List.filter_sublist⟩, propertyRules_eq_append root dark⟩
  · rw [propertyRules_eq]
    refine (forall₂_filterMap (registration? (root ++ dark)) _).imp fun name rule made => ?_
    exact registration?_eq_some_iff.1 made
  · rw [List.mem_filter, ← mem_declaredNames_iff]
    exact and_congr_right isSome_registration?_iff

/-- The accent is registered with its first shared value, although the dark theme declares it too,
the surface with the first dark one, and a shadow not at all. -/
theorem accent_is_registered_with_shared_value :
    let declare (name value : String) : Declaration := { name := name, value := value }
    let root := [declare "color-accent" "#f50", declare "shadow-small" "none",
      declare "color-accent" "#f60"]
    let dark := [declare "color-accent" "#000", declare "color-surface" "#111",
      declare "color-surface" "#222"]
    let rules :=
      ["@property --color-accent \x7b\n  syntax: '<color>';\n  inherits: true;\n" ++
          "  initial-value: #f50;\n\x7d",
        "@property --color-surface \x7b\n  syntax: '<color>';\n  inherits: true;\n" ++
          "  initial-value: #111;\n\x7d"]
    propertyRules root dark = rules ∧
    ∃ names : List String, List.Forall₂ (Registers (root ++ dark)) names rules ∧ names.Nodup ∧
      "color-accent" ∈ names ∧ "color-surface" ∈ names ∧ "shadow-small" ∉ names := by
  intro declare root dark rules
  have written : propertyRules root dark = rules := by decide +kernel
  obtain ⟨⟨names, registered, nodup, typed, -⟩, -⟩ := propertyRules_register_once root dark
  rw [written] at registered
  refine ⟨written, names, registered, nodup, ?_, ?_, ?_⟩
  · rw [typed]
    decide +kernel
  · rw [typed]
    decide +kernel
  · rw [typed]
    decide +kernel

end DesignTokens
