import DesignTokens.Proofs.Alias.Substitution
import Mathlib.Data.List.Infix
import Mathlib.Data.List.TakeWhile

/-!
# The places where aliases stand

A text is searched for aliases by a scan that keeps a pending part. Here the same aliases are found
place by place: at every place of the text, what begins there is an alias or it is not, and this is
decided by looking no further than to the next brace.

* `Alias.leadingName?` — the name of the alias that a text begins with.
* `Alias.occurrences` — these names for every place of a text, from left to right. The scan finds
  exactly them, in this order (`Alias.aliases_eq_occurrences`).
* `Value.strings` — the texts of a value, depth first and field by field; those in a list are left
  out.
* `Value.mentions` — the paths that stand in them as aliases, one for each place. They are the paths
  of the references that an expansion follows (`Value.map_path_references`).

Between two aliases nothing is found: an alias that began before the next one would have to run over
the opening brace of that one, and a name holds no brace (`leadingName?_append_eq_none`).
-/

namespace DesignTokens

namespace Alias

/-- Whether a character may stand in a name. -/
def isNameChar (c : Char) : Bool :=
  c ≠ '{' && c ≠ '}'

/-- The name of the alias that a text begins with: what stands between an opening brace and the
next brace, if that one is closing and the name is not empty. -/
def leadingName? : List Char → Option (List Char)
  | [] => none
  | c :: rest =>
    let name := rest.takeWhile isNameChar
    if c = '{' ∧ name ≠ [] ∧ (rest.dropWhile isNameChar).head? = some '}' then some name else none

/-- The names of the aliases that begin at the places of a text, from left to right. -/
def occurrences (text : List Char) : List (List Char) :=
  text.tails.filterMap leadingName?

theorem forall_isNameChar_iff {name : List Char} :
    (∀ c ∈ name, isNameChar c) ↔ '{' ∉ name ∧ '}' ∉ name := by
  simp only [isNameChar, Bool.and_eq_true, decide_eq_true_eq]
  refine ⟨fun h => ⟨fun hmem => (h _ hmem).1 rfl, fun hmem => (h _ hmem).2 rfl⟩, ?_⟩
  rintro ⟨noOpening, noClosing⟩ c hc
  exact ⟨fun h => noOpening (h ▸ hc), fun h => noClosing (h ▸ hc)⟩

/-- A text begins with an alias exactly if a name between braces is a prefix of it. -/
theorem leadingName?_eq_some_iff {text name : List Char} :
    leadingName? text = some name ↔ IsName name ∧ (Piece.alias name).source <+: text := by
  cases text with
  | nil => simp [leadingName?, Piece.source]
  | cons c rest =>
    rw [leadingName?, Option.ite_none_right_eq_some, Option.some.injEq]
    refine ⟨?_, ?_⟩
    · rintro ⟨⟨rfl, nonempty, closed⟩, rfl⟩
      have inside : ∀ d ∈ rest.takeWhile isNameChar, isNameChar d :=
        fun d hd => List.mem_takeWhile_imp hd
      obtain ⟨more, hmore⟩ := List.head?_eq_some_iff.1 closed
      refine ⟨⟨nonempty, forall_isNameChar_iff.1 inside⟩, more, ?_⟩
      -- the text is its name, the closing brace and the rest
      have whole := List.takeWhile_append_dropWhile (p := isNameChar) (l := rest)
      rw [hmore] at whole
      simpa [Piece.source] using whole
    · rintro ⟨isName, more, hmore⟩
      obtain ⟨rfl, rfl⟩ : '{' = c ∧ name ++ '}' :: more = rest := by
        simpa [Piece.source] using hmore
      have inside := forall_isNameChar_iff.2 isName.2
      have stops : isNameChar '}' = false := rfl
      rw [List.takeWhile_append_of_pos inside, List.dropWhile_append_of_pos inside,
        List.takeWhile_cons_of_neg (by simp [stops]), List.dropWhile_cons_of_neg (by simp [stops]),
        List.append_nil]
      exact ⟨⟨rfl, isName.1, rfl⟩, rfl⟩

/-- No alias begins where there is no opening brace. -/
theorem leadingName?_cons_of_ne {c : Char} (other : c ≠ '{') (rest : List Char) :
    leadingName? (c :: rest) = none := by
  rw [leadingName?, if_neg fun h => other h.1]

/-- **No alias begins in a plain text and runs over the next opening brace.** -/
theorem leadingName?_append_eq_none {front rest : List Char} (plain : Plain front)
    (nonempty : front ≠ []) (follows : ∀ c ∈ rest.head?, c = '{') :
    leadingName? (front ++ rest) = none := by
  refine Option.eq_none_iff_forall_ne_some.2 fun name h => ?_
  obtain ⟨isName, starts⟩ := leadingName?_eq_some_iff.1 h
  rcases List.prefix_or_prefix_of_prefix starts (List.prefix_append front rest) with inside | beyond
  · exact plain name isName inside.isInfix
  obtain ⟨more, hmore⟩ := beyond
  cases front with
  | nil => exact nonempty rfl
  | cons c front =>
    -- what is left of the alias is closed in the rest, and holds no opening brace
    have left : front ++ more = name ++ ['}'] := by
      simpa [Piece.source] using (List.cons.inj hmore).2
    have later : more <+: rest := by
      rw [← hmore, List.prefix_append_right_inj] at starts
      exact starts
    have unopened : '{' ∉ more := fun h => by
      have : '{' ∈ name ++ ['}'] := left ▸ List.mem_append_right _ h
      simp [isName.2.1] at this
    cases more with
    | nil =>
      refine plain name isName ?_
      rw [← hmore, List.append_nil]
    | cons d more =>
      obtain ⟨tail, rfl⟩ := later
      exact unopened (follows d rfl ▸ List.mem_cons_self)

/-- Where no alias begins, the search goes on. -/
theorem occurrences_append {front rest : List Char}
    (none : ∀ part, part <:+ front → part ≠ [] → leadingName? (part ++ rest) = none) :
    occurrences (front ++ rest) = occurrences rest := by
  induction front with
  | nil => rfl
  | cons c front ih =>
    have here := none (c :: front) List.suffix_rfl (List.cons_ne_nil _ _)
    rw [List.cons_append] at here
    rw [List.cons_append, occurrences, List.tails_cons, List.filterMap_cons_none here]
    exact ih fun part hpart => none part (hpart.trans (List.suffix_cons c front))

theorem occurrences_plain_append {front rest : List Char} (plain : Plain front)
    (follows : ∀ c ∈ rest.head?, c = '{') : occurrences (front ++ rest) = occurrences rest :=
  occurrences_append fun _ hpart nonempty =>
    leadingName?_append_eq_none (plain.of_infix hpart.isInfix) nonempty follows

/-- An alias is found at its opening brace, and nothing is found in its name. -/
theorem occurrences_source_append {name : List Char} (isName : IsName name) (rest : List Char) :
    occurrences ((Piece.alias name).source ++ rest) = name :: occurrences rest := by
  have first : leadingName? ('{' :: ((name ++ ['}']) ++ rest)) = some name :=
    leadingName?_eq_some_iff.2 ⟨isName, rest, by simp [Piece.source]⟩
  have within : occurrences ((name ++ ['}']) ++ rest) = occurrences rest := by
    refine occurrences_append fun part hpart nonempty => ?_
    cases part with
    | nil => exact absurd rfl nonempty
    | cons c part =>
      refine leadingName?_cons_of_ne ?_ _
      rintro rfl
      have := hpart.subset List.mem_cons_self
      simp [isName.2.1] at this
  rw [← within]
  change occurrences ('{' :: ((name ++ ['}']) ++ rest)) = _
  rw [occurrences, List.tails_cons, List.filterMap_cons_some first]
  rfl

/-- **The scan finds the aliases that begin at the places of a text**, in their order. -/
theorem aliases_eq_occurrences (text : List Char) : aliases text = occurrences text := by
  induction hn : text.length using Nat.strongRecOn generalizing text with
  | ind n ih =>
    by_cases plain : Plain text
    · have nowhere := @occurrences_plain_append text [] plain (by simp)
      rw [List.append_nil] at nowhere
      rw [aliases_eq_nil_iff.2 plain, nowhere]
      rfl
    -- otherwise both find the first alias and go on after it
    obtain ⟨front, name, rest, plain', isName, rfl⟩ := exists_first_alias plain
    have shorter : rest.length < n := by
      simp only [← hn, List.length_append, Piece.source, List.length_cons]
      omega
    rw [aliases_plain_append plain' isName, ih rest.length shorter rest rfl,
      occurrences_plain_append plain' (by simp [Piece.source]), occurrences_source_append isName]

end Alias

namespace Value

mutual

/-- The texts of a value that are searched for aliases, depth first. -/
def strings : Value → List String
  | .str text => [text]
  | .object fields => fieldStrings fields
  | .null | .bool _ | .int _ | .float _ | .list _ => []

/-- The texts of the fields of an object. -/
def fieldStrings : Fields → List String
  | [] => []
  | (_, value) :: rest => strings value ++ fieldStrings rest

end

/-- The paths that stand in a value as aliases, one for each place. -/
def mentions (value : Value) : List String :=
  value.strings.flatMap fun text => (Alias.occurrences text.toList).map String.ofList

theorem mentions_object (fields : Fields) :
    (Value.object fields).mentions = fields.flatMap fun field => field.2.mentions := by
  rw [mentions, strings]
  induction fields with
  | nil => rfl
  | cons field rest ih => rw [fieldStrings, List.flatMap_append, ih, List.flatMap_cons, mentions]

/-- **The paths of the references of a value are those that stand in it as aliases**, place by
place. -/
theorem map_path_references (value : Value) :
    value.references.map Reference.path = value.mentions := by
  induction value using fieldInduction with
  | str text =>
    have scanned : (Alias.textReferences text).map Reference.path =
        (Alias.aliases text.toList).map String.ofList := by
      unfold Alias.textReferences
      cases whole : Alias.wholeAlias? text.toList with
      | some name => rw [Alias.aliases_of_wholeAlias? whole]; rfl
      | none => rw [Alias.pieceReferences, List.map_map]; rfl
    rw [references, scanned, Alias.aliases_eq_occurrences, mentions, strings,
      List.flatMap_singleton]
  | object fields ih =>
    rw [references, fieldReferences_eq_flatMap, List.map_flatMap, mentions_object]
    exact List.flatMap_congr ih
  | null | bool | int | float | list => rfl

end Value

end DesignTokens
