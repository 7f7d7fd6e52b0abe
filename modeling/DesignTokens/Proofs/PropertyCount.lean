import Mathlib.Data.Finset.Card
import DesignTokens.Proofs.Generation
import DesignTokens.Proofs.Stylesheet.Cascade

/-!
# How many properties a stylesheet declares

A stylesheet is reported with a total, as the number of its unique properties. The total adds two
lengths, that of the shared declarations and that of the declarations of the larger theme
(`total_eq_length_counted`). Names do not enter into it, so there are two ways in which it departs from the
number of names:

* a declaration that repeats a name is counted again (`repeatsIn`),
* a name that only the smaller theme declares is not counted (`Emission.uncounted`).

There is no other way (`total_add_card_uncounted`). So the total is right exactly if the two make up
for each other (`total_eq_card_names_iff`), as they do when there is nothing of either: when no name
is repeated and the themes declare the same names (`total_of_matching_themes`).
-/

namespace DesignTokens

/-- How many declarations have a name that a later one **repeats**. -/
def repeatsIn : List Declaration → Nat
  | [] => 0
  | d :: rest => repeatsIn rest + if d.name ∈ rest.map (·.name) then 1 else 0

namespace Emission

/-- The names that are declared in a bucket. -/
def namesIn (e : Emission) (b : Bucket) : Finset String :=
  ((e.declarations b).map (·.name)).toFinset

/-- All names that are declared. -/
def names (e : Emission) : Finset String :=
  e.namesIn .root ∪ e.namesIn .dark ∪ e.namesIn .light

/-- The theme with more declarations; the dark one if both have as many. -/
def largerTheme (e : Emission) : Bucket :=
  if (e.declarations .light).length ≤ (e.declarations .dark).length then .dark else .light

/-- The other theme. -/
def smallerTheme (e : Emission) : Bucket :=
  if (e.declarations .light).length ≤ (e.declarations .dark).length then .light else .dark

/-- The declarations that are counted, the shared ones and those of the larger theme. -/
def counted (e : Emission) : List Declaration :=
  e.declarations .root ++ e.declarations e.largerTheme

/-- The names that only the smaller theme declares: they are **not counted**. -/
def uncounted (e : Emission) : Finset String :=
  e.namesIn e.smallerTheme \ (e.counted.map (·.name)).toFinset

end Emission

open Emission

variable {t : FileTree} {o : Options} {sheet : Stylesheet}

/-! ### Repeated names -/

/-- Declarations are as many as their names and the repeats among them. -/
theorem card_names_add_repeatsIn (ds : List Declaration) :
    (ds.map (·.name)).toFinset.card + repeatsIn ds = ds.length := by
  induction ds with
  | nil => rfl
  | cons d rest ih =>
    rw [List.map_cons, List.toFinset_cons, repeatsIn, List.length_cons, ← ih]
    split
    next again =>
      rw [Finset.card_insert_of_mem (List.mem_toFinset.2 again)]
      omega
    next new =>
      rw [Finset.card_insert_of_notMem (mt List.mem_toFinset.1 new)]
      omega

/-- Nothing repeats exactly if no two declarations have one name. -/
theorem repeatsIn_eq_zero_iff {ds : List Declaration} :
    repeatsIn ds = 0 ↔ (ds.map (·.name)).Nodup := by
  induction ds with
  | nil => simp [repeatsIn]
  | cons d rest ih =>
    rw [repeatsIn, Nat.add_eq_zero_iff, ih, List.map_cons, List.nodup_cons, and_comm]
    refine and_congr_left fun _ => ?_
    split
    next again => exact iff_of_false Nat.one_ne_zero (not_not_intro again)
    next new => exact iff_of_true rfl new

/-! ### The total of an emission -/

theorem total_eq_length_counted (set : TokenSet) (e : Emission) :
    (Stats.of set e).total = e.counted.length := by
  rw [Stats.total, Stats.of, counted, List.length_append, largerTheme]
  dsimp only
  split
  next larger => rw [Nat.max_eq_left larger]
  next smaller => rw [Nat.max_eq_right (Nat.le_of_not_le smaller)]

/-- The names are those that are counted and those of the smaller theme. -/
theorem names_eq_union (e : Emission) :
    e.names = (e.counted.map (·.name)).toFinset ∪ e.namesIn e.smallerTheme := by
  have countedNames : (e.counted.map (·.name)).toFinset =
      e.namesIn .root ∪ e.namesIn e.largerTheme := by
    rw [counted, List.map_append, List.toFinset_append]
    rfl
  rw [names, countedNames, largerTheme, smallerTheme]
  split
  · rfl
  · exact Finset.union_right_comm _ _ _

/-- **The total and the names.** Up to the declarations that repeat a name and the names that are
not counted, the total is the number of names. -/
theorem total_add_card_uncounted (set : TokenSet) (e : Emission) :
    (Stats.of set e).total + e.uncounted.card = e.names.card + repeatsIn e.counted := by
  -- the names fall into those that are counted and the rest
  have parts : e.uncounted.card + (e.counted.map (·.name)).toFinset.card = e.names.card := by
    rw [uncounted, Finset.card_sdiff_add_card, names_eq_union, Finset.union_comm]
  calc (Stats.of set e).total + e.uncounted.card
      = (e.counted.map (·.name)).toFinset.card + repeatsIn e.counted + e.uncounted.card := by
        rw [total_eq_length_counted, card_names_add_repeatsIn]
    _ = e.uncounted.card + (e.counted.map (·.name)).toFinset.card + repeatsIn e.counted := by
        omega
    _ = e.names.card + repeatsIn e.counted := by rw [parts]

theorem uncounted_eq_empty {e : Emission} (matching : e.namesIn .dark = e.namesIn .light) :
    e.uncounted = ∅ := by
  have themes : e.namesIn e.smallerTheme = e.namesIn e.largerTheme := by
    rw [smallerTheme, largerTheme]
    split
    · exact matching.symm
    · exact matching
  rw [uncounted, themes, Finset.sdiff_eq_empty_iff_subset, counted, List.map_append,
    List.toFinset_append]
  exact Finset.subset_union_right

/-- **Where the themes match, the total is right**: they declare the same names, and of the counted
declarations no two have one name. -/
theorem total_of_matching_themes (set : TokenSet) {e : Emission}
    (distinct : (e.counted.map (·.name)).Nodup) (matching : e.namesIn .dark = e.namesIn .light) :
    (Stats.of set e).total = e.names.card := by
  have total := total_add_card_uncounted set e
  rwa [repeatsIn_eq_zero_iff.2 distinct, uncounted_eq_empty matching, Finset.card_empty] at total

/-! ### The total of a stylesheet -/

/-- The names that are declared in a bucket are those of its tokens. -/
theorem mem_namesIn_ofTokens {oklch : Bool} {tokens : List Token} {b : Bucket} {name : String} :
    name ∈ (Emission.ofTokens oklch tokens).namesIn b ↔
      ∃ token ∈ tokens, token.bucket = b ∧ token.propertyName = name := by
  have declared : (Emission.ofTokens oklch tokens).declarations b =
      (orderedGroups tokens).flatMap fun group =>
        (group.2.filter fun t => t.bucket = b).map (Token.declare group.1.label) := by
    rw [Emission.declarations, Emission.ofTokens, List.flatMap_map]
    exact List.flatMap_congr fun group _ => by rw [LabelledSection.ofTokens, ByBucket.get_of]
  have names : ((Emission.ofTokens oklch tokens).declarations b).map (·.name) =
      (bucketTokens b tokens).map Token.propertyName := by
    rw [declared, bucketTokens, emissionOrder, List.filter_flatMap, List.map_flatMap,
      List.map_flatMap]
    exact List.flatMap_congr fun group _ => List.map_map
  rw [namesIn, names, List.mem_toFinset, List.mem_map]
  simp only [bucketTokens, List.mem_filter, (emissionOrder_perm tokens).mem_iff, decide_eq_true_eq,
    and_assoc]

/-- **When the total is the number of properties.** The names that a stylesheet declares are those
of the tokens that its source resolves to. Its total is their number exactly if as many of the
counted declarations repeat a name as there are names that are not counted. -/
theorem total_eq_card_names_iff (ended : (generate t o).result = .ok sheet) :
    ∃ set tokens, (loadSource t o.tokensDir).result = .ok set ∧ set.ResolvesTo tokens ∧
      let e := Emission.ofTokens o.oklch tokens
      sheet.stats = Stats.of set e ∧
      (∀ b name, name ∈ e.namesIn b ↔
        ∃ token ∈ tokens, token.bucket = b ∧ token.propertyName = name) ∧
      sheet.stats.total + e.uncounted.card = e.names.card + repeatsIn e.counted ∧
      (sheet.stats.total = e.names.card ↔ repeatsIn e.counted = e.uncounted.card) := by
  obtain ⟨set, tokens, loaded, resolved, rfl⟩ := generate_eq_ok_iff.1 ended
  refine ⟨set, tokens, loaded, resolved, ?_⟩
  intro e
  have total : (Stats.of set e).total + e.uncounted.card = e.names.card + repeatsIn e.counted :=
    total_add_card_uncounted set e
  refine ⟨rfl, fun b name => mem_namesIn_ofTokens, total, ?_⟩
  change (Stats.of set e).total = _ ↔ _
  omega

/-- Two files set the same size, and there are no themes. There is one name, the total is two, and
one declaration repeats the name. -/
theorem repeated_size_is_counted_twice :
    let size := Node.file "\x7b\"gap\":\x7b\"$value\":\"4px\"\x7d\x7d".toUTF8
    let t : FileTree :=
      { nodes := [(["tokens"], .directory), (["tokens", "a.tokens.json"], size),
          (["tokens", "b.tokens.json"], size)]
        workingDirectory := [] }
    ∃ sheet, (generate t {}).result = .ok sheet ∧ sheet.stats.total = 2 ∧
      ∃ set tokens, (loadSource t (Location.ofString "tokens")).result = .ok set ∧
        set.ResolvesTo tokens ∧
        let e := Emission.ofTokens false tokens
        e.names.card = 1 ∧ repeatsIn e.counted = 1 ∧
        sheet.stats.total + e.uncounted.card = e.names.card + repeatsIn e.counted ∧
        (sheet.stats.total = e.names.card ↔ repeatsIn e.counted = e.uncounted.card) := by
  intro size t
  have total : (generate t {}).result.toOption.map (·.stats.total) = some 2 := by
    decide +kernel
  obtain ⟨sheet, ended, two⟩ := Option.map_eq_some_iff.mp total
  have ended := Traced.toOption_eq_some_iff.mp ended
  obtain ⟨set, tokens, loaded, resolved, -, -, sum, right⟩ := total_eq_card_names_iff ended
  -- what the source resolves to is computed once more, to count the names
  have counts : ((loadSource t (Location.ofString "tokens")).result.toOption.bind fun set =>
      set.resolve.result.toOption.map fun tokens =>
        ((Emission.ofTokens false tokens).names.card,
          repeatsIn (Emission.ofTokens false tokens).counted)) = some (1, 1) := by
    decide +kernel
  rw [Traced.toOption_eq_some_iff.2 loaded, Option.bind_some,
    Traced.toOption_eq_some_iff.2 (TokenSet.resolve_eq_ok_iff.2 resolved), Option.map_some] at counts
  obtain ⟨names, again⟩ := Prod.mk.inj (Option.some.inj counts)
  exact ⟨sheet, ended, two, set, tokens, loaded, resolved, names, again, sum, right⟩

/-- A colour that stands in the dark theme alone and one that stands in the light theme alone are
two properties; the total is one. -/
theorem one_name_in_each_theme_is_counted_once :
    let t : FileTree :=
      { nodes := [(["tokens"], .directory),
          (["tokens", "a.tokens.json"], .file ("\x7b\"color\":\x7b" ++
            "\"bg\":\x7b\"dark\":\x7b\"$value\":\"#000\"," ++
              "\"$extensions\":\x7b\"mode\":\"dark\"\x7d\x7d\x7d," ++
            "\"fg\":\x7b\"light\":\x7b\"$value\":\"#fff\"," ++
              "\"$extensions\":\x7b\"mode\":\"light\"\x7d\x7d\x7d\x7d\x7d").toUTF8)]
        workingDirectory := [] }
    let o : Options := {}
    ∃ sheet set tokens, (generate t o).result = .ok sheet ∧
      (loadSource t o.tokensDir).result = .ok set ∧ set.ResolvesTo tokens ∧
      sheet = Stylesheet.ofTokens o set tokens ∧ sheet.stats.total = 1 ∧
      (Emission.ofTokens o.oklch tokens).names.card = 2 := by
  intro t o
  have computed : ((loadSource t o.tokensDir).result.toOption.bind fun set =>
      set.resolve.result.toOption.map fun tokens =>
        ((Stylesheet.ofTokens o set tokens).stats.total,
          (Emission.ofTokens o.oklch tokens).names.card)) = some (1, 2) := by
    decide +kernel
  obtain ⟨set, loaded, rest⟩ := Option.bind_eq_some_iff.1 computed
  obtain ⟨tokens, resolved, counts⟩ := Option.map_eq_some_iff.1 rest
  have loaded := Traced.toOption_eq_some_iff.1 loaded
  have resolved := TokenSet.resolve_eq_ok_iff.1 (Traced.toOption_eq_some_iff.1 resolved)
  obtain ⟨total, names⟩ := Prod.mk.inj counts
  exact ⟨_, set, tokens, generate_eq_ok_iff.2 ⟨set, tokens, loaded, resolved, rfl⟩, loaded,
    resolved, rfl, total, names⟩

end DesignTokens
