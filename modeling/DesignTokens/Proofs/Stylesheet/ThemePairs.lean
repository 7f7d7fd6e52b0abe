import DesignTokens.Proofs.Stylesheet.Cascade
import DesignTokens.Proofs.Stylesheet.Sections
import DesignTokens.Proofs.Stylesheet.Texts

/-!
# Values of both themes

A colour that both themes declare gets one declaration with both of its values. A theme may declare
a colour several times; then its last value counts, as it does on a page with the theme, while the
place of the pair is that of the first declaration.

* `LastDeclared` — the value of the last declaration of a name; `lastValue?_eq_some_iff` — looking
  for the last value finds just that.
* `pairwise_declaredNames` — declared names stand in the order of their first declarations.
* `mem_lightDarkPairs_iff` — which pairs there are.
* `lightDarkPairs_join_themes` — they have distinct names, stand in the order of the dark theme, and
  hold what pages with the themes show.
-/

namespace DesignTokens

variable {declarations dark light : List Declaration} {name value : String}

/-! ### Last declarations -/

/-- A name is declared, and its last declaration has the given value. -/
def LastDeclared (declarations : List Declaration) (name value : String) : Prop :=
  ∃ before d after, declarations = before ++ d :: after ∧ d.name = name ∧ d.value = value ∧
    ∀ later ∈ after, later.name ≠ name

theorem LastDeclared.exists_mem (last : LastDeclared declarations name value) :
    ∃ d ∈ declarations, d.name = name := by
  obtain ⟨before, d, after, rfl, named, -⟩ := last
  exact ⟨d, List.mem_append_right _ List.mem_cons_self, named⟩

/-- What stands in front of declarations does not change the last of them. -/
theorem LastDeclared.append (last : LastDeclared declarations name value)
    (shared : List Declaration) : LastDeclared (shared ++ declarations) name value := by
  obtain ⟨before, d, after, rfl, rest⟩ := last
  exact ⟨shared ++ before, d, after, (List.append_assoc _ _ _).symm, rest⟩

theorem Declaration.valueOf?_eq_some_iff {d : Declaration} :
    d.valueOf? name = some value ↔ d.name = name ∧ d.value = value := by
  simp [valueOf?]

theorem Declaration.valueOf?_eq_none_iff {d : Declaration} :
    d.valueOf? name = none ↔ d.name ≠ name := by
  simp [valueOf?]

/-- **Looking for the last value** of a name finds the value of its last declaration. -/
theorem lastValue?_eq_some_iff :
    lastValue? name declarations = some value ↔ LastDeclared declarations name value := by
  rw [lastValue?_eq_getLast?, List.getLast?_eq_some_iff]
  constructor
  · rintro ⟨values, cut⟩
    obtain ⟨before, tail, rfl, -, last⟩ := List.filterMap_eq_append_iff.1 cut
    obtain ⟨between, d, after, rfl, -, hd, none⟩ := List.filterMap_eq_cons_iff.1 last
    obtain ⟨named, valued⟩ := Declaration.valueOf?_eq_some_iff.1 hd
    refine ⟨before ++ between, d, after, (List.append_assoc _ _ _).symm, named, valued, ?_⟩
    exact fun later mem =>
      Declaration.valueOf?_eq_none_iff.1 (List.filterMap_eq_nil_iff.1 none later mem)
  · rintro ⟨before, d, after, rfl, named, valued, none⟩
    have hd : d.valueOf? name = some value := Declaration.valueOf?_eq_some_iff.2 ⟨named, valued⟩
    have others : after.filterMap (Declaration.valueOf? name) = [] :=
      List.filterMap_eq_nil_iff.2 fun later mem =>
        Declaration.valueOf?_eq_none_iff.2 (none later mem)
    refine ⟨before.filterMap (Declaration.valueOf? name), ?_⟩
    rw [List.filterMap_append, List.filterMap_cons_some hd, others]

/-- A name has one last value. -/
theorem LastDeclared.unique {value' : String} (last : LastDeclared declarations name value)
    (last' : LastDeclared declarations name value') : value = value' :=
  Option.some.inj ((lastValue?_eq_some_iff.2 last).symm.trans (lastValue?_eq_some_iff.2 last'))

/-- A declared name has a last value. -/
theorem exists_lastDeclared (declared : ∃ d ∈ declarations, d.name = name) :
    ∃ value, LastDeclared declarations name value := by
  obtain ⟨d, mem, named⟩ := declared
  cases found : lastValue? name declarations with
  | some value => exact ⟨value, lastValue?_eq_some_iff.1 found⟩
  | none =>
    -- nothing is found only where no declaration has the name
    rw [lastValue?_eq_getLast?, List.getLast?_eq_none_iff, List.filterMap_eq_nil_iff] at found
    exact absurd named (Declaration.valueOf?_eq_none_iff.1 (found d mem))

/-! ### Declared names -/

/-- The place of the first declaration of a name. -/
def firstDeclaredAt (declarations : List Declaration) (name : String) : Nat :=
  declarations.findIdx fun d => d.name = name

theorem nodup_declaredNames : (declaredNames declarations).Nodup :=
  nodup_eraseDups _

/-- **Declared names** stand in the order of their first declarations. -/
theorem pairwise_declaredNames (declarations : List Declaration) :
    (declaredNames declarations).Pairwise fun n n' =>
      firstDeclaredAt declarations n < firstDeclaredAt declarations n' := by
  have inOrder := pairwise_findIdx_eraseDups (fun d : Declaration => some d.name) declarations
  rw [List.filterMap_eq_map'] at inOrder
  simpa only [Option.some.injEq, declaredNames, firstDeclaredAt] using inOrder

/-! ### Pairs -/

/-- A declaration with the last values that two themes have for its name; the light value comes
first, and it is not empty. -/
def JoinsThemes (dark light : List Declaration) (p : Declaration) : Prop :=
  ∃ l d, LastDeclared light p.name l ∧ LastDeclared dark p.name d ∧ l ≠ "" ∧
    p = { name := p.name, value := "light-dark(" ++ l ++ ", " ++ d ++ ")" }

theorem startsWith_iff {front name : String} :
    startsWith front name ↔ front.toList <+: name.toList :=
  List.isPrefixOf_iff_prefix

/-- **The pairs of two themes** are the colours that both of them declare. -/
theorem mem_lightDarkPairs_iff {p : Declaration} :
    p ∈ lightDarkPairs dark light ↔
      "color-".toList <+: p.name.toList ∧ JoinsThemes dark light p := by
  obtain ⟨pair?, made, pairs⟩ := exists_lightDarkPairs_eq_filterMap dark light
  rw [made, List.mem_filterMap]
  simp only [pairs, startsWith_iff, lastValue?_eq_some_iff]
  constructor
  · rintro ⟨name, -, color, l, d, hlight, hdark, shown, rfl⟩
    exact ⟨color, l, d, hlight, hdark, shown, rfl⟩
  · rintro ⟨color, l, d, hlight, hdark, shown, written⟩
    have declared : p.name ∈ declaredNames dark := mem_declaredNames_iff.2 hdark.exists_mem
    exact ⟨p.name, declared, color, l, d, hlight, hdark, shown, written⟩

/-- What is made from some elements of a list, and can be told back from them, keeps their order. -/
theorem map_filterMap_sublist {α β : Type} {f : α → Option β} {g : β → α}
    (back : ∀ x y, f x = some y → g y = x) (l : List α) : ((l.filterMap f).map g).Sublist l := by
  induction l with
  | nil => exact .slnil
  | cons x rest ih =>
    cases made : f x with
    | none =>
      rw [List.filterMap_cons_none made]
      exact ih.cons x
    | some y =>
      rw [List.filterMap_cons_some made, List.map_cons, back x y made]
      exact ih.cons_cons x

/-- The names of the pairs are names of the dark theme, in their order. -/
theorem map_name_lightDarkPairs_sublist (dark light : List Declaration) :
    ((lightDarkPairs dark light).map (·.name)).Sublist (declaredNames dark) := by
  obtain ⟨pair?, made, pairs⟩ := exists_lightDarkPairs_eq_filterMap dark light
  rw [made]
  refine map_filterMap_sublist (fun name p pair => ?_) _
  obtain ⟨-, -, -, -, -, -, rfl⟩ := (pairs name p).1 pair
  rfl

/-- **Pairs join themes.** Whatever two themes declare, the pairs have distinct names. These are
the names of colours that both themes declare, with a last light value that is not empty. The
pairs stand in the order in which the dark theme first declares their names. Each of them holds
the last light value and then the last dark value of its name, which are the values of the name
on pages with these themes, whatever both of them share. -/
theorem lightDarkPairs_join_themes (dark light : List Declaration) :
    let pairs := lightDarkPairs dark light
    (pairs.map (·.name)).Nodup ∧
    (∀ name, name ∈ pairs.map (·.name) ↔
      "color-".toList <+: name.toList ∧ (∃ d ∈ dark, d.name = name) ∧
        (∃ d ∈ light, d.name = name) ∧ ¬LastDeclared light name "") ∧
    (pairs.Pairwise fun p q => firstDeclaredAt dark p.name < firstDeclaredAt dark q.name) ∧
    ∀ p ∈ pairs, ∃ l d,
      p = { name := p.name, value := "light-dark(" ++ l ++ ", " ++ d ++ ")" } ∧
      LastDeclared light p.name l ∧ LastDeclared dark p.name d ∧
      ∀ shared, lastValue? p.name (shared ++ light) = some l ∧
        lastValue? p.name (shared ++ dark) = some d := by
  intro pairs
  have names := map_name_lightDarkPairs_sublist dark light
  have inOrder := (pairwise_declaredNames dark).sublist names
  rw [List.pairwise_map] at inOrder
  refine ⟨names.nodup nodup_declaredNames, fun name => ?_, inOrder, fun p mem => ?_⟩
  · rw [List.mem_map]
    constructor
    · rintro ⟨p, mem, rfl⟩
      obtain ⟨color, l, d, hlight, hdark, shown, -⟩ := mem_lightDarkPairs_iff.1 mem
      refine ⟨color, hdark.exists_mem, hlight.exists_mem, fun empty => shown ?_⟩
      exact hlight.unique empty
    · rintro ⟨color, inDark, inLight, shown⟩
      obtain ⟨l, hlight⟩ := exists_lastDeclared inLight
      obtain ⟨d, hdark⟩ := exists_lastDeclared inDark
      have notEmpty : l ≠ "" := fun empty => shown (empty ▸ hlight)
      exact ⟨{ name := name, value := _ },
        mem_lightDarkPairs_iff.2 ⟨color, l, d, hlight, hdark, notEmpty, rfl⟩, rfl⟩
  · obtain ⟨-, l, d, hlight, hdark, -, written⟩ := mem_lightDarkPairs_iff.1 mem
    refine ⟨l, d, written, hlight, hdark, fun shared => ⟨?_, ?_⟩⟩
    · exact lastValue?_eq_some_iff.2 (hlight.append shared)
    · exact lastValue?_eq_some_iff.2 (hdark.append shared)

/-- The background stands first, as in the dark theme, with the values that were declared last. -/
example :
    let declare (name value : String) : Declaration := { name := name, value := value }
    lightDarkPairs
        [declare "color-bg" "#000", declare "size-md" "4px", declare "color-fg" "#ddd",
          declare "color-bg" "#111"]
        [declare "color-fg" "#222", declare "color-bg" "", declare "size-md" "5px",
          declare "color-bg" "#fff"] =
      [declare "color-bg" "light-dark(#fff, #111)",
        declare "color-fg" "light-dark(#222, #ddd)"] := by
  decide +kernel

end DesignTokens
