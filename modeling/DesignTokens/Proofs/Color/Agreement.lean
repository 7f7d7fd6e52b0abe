import DesignTokens.Proofs.Color.HexNotation
import DesignTokens.Proofs.Color.OklchText

/-!
# What a colour is

Four functions tell colours from other texts, each in its own way: one looks at the beginning of a
text, one reads a whole `oklch()` colour, one reads a whole hex colour, and one converts. They agree
on every text. What is converted is a colour in `oklch()` notation without blanks around it, and
converting it once more leaves it as it is.

* `IsOpening` — the beginning that `oklch()` colours have; `isOklch_iff` — it is what is looked for.
* `isOklch_trim` — blanks around a text do not matter, at the end because the beginning ends in a
  bracket.
* `isOklch_eq_false_of_ofHex?` — a hex colour begins otherwise.
* `Oklch.isOklch_of_css`, `Oklch.isTrimmed_of_css` — what is written for a colour begins so, and has
  no blanks around it.
* `conversion_agrees` — the theorem.
-/

namespace DesignTokens

variable {text rest inside converted : List Char}

/-! ### How a colour begins -/

/-- A visible letter is visible in either case. -/
theorem isBlank_of_isLetter {letter c : Char} (visible : Text.isBlank letter = false)
    (h : isLetter letter c = true) : Text.isBlank c = false := by
  simp only [isLetter, Bool.or_eq_true, Bool.and_eq_true, beq_iff_eq] at h
  rcases h with lower | ⟨-, rfl⟩
  · rw [← Text.isBlank_toLower, lower, visible]
  · decide

/-- A word that spells a name, each letter in either case. -/
def Spells (name word : List Char) : Prop :=
  List.Forall₂ (fun letter c => isLetter letter c = true) name word

theorem afterName?_eq_some_iff {name : List Char} :
    afterName? name text = some rest ↔ ∃ word, Spells name word ∧ text = word ++ rest := by
  induction name generalizing text with
  | nil => simp [afterName?, Spells, List.forall₂_nil_left_iff]
  | cons letter name ih =>
    simp only [Spells, List.forall₂_cons_left_iff] at ih ⊢
    cases text with
    | nil => simp [afterName?]
    | cons c text =>
      by_cases h : isLetter letter c = true
      · simp only [afterName?, h, if_true, ih]
        constructor
        · rintro ⟨word, spells, rfl⟩
          exact ⟨c :: word, ⟨c, word, h, spells, rfl⟩, rfl⟩
        · rintro ⟨-, ⟨c', word, -, spells, rfl⟩, same⟩
          exact ⟨word, spells, (List.cons.inj same).2⟩
      · simp only [afterName?, h, Bool.false_eq_true, if_false, reduceCtorEq, false_iff]
        rintro ⟨-, ⟨c', word, spelled, -, rfl⟩, same⟩
        exact h ((List.cons.inj same).1 ▸ spelled)

/-- The beginning of an `oklch()` colour: blanks, the name in either case, blanks, and a bracket. -/
def IsOpening (front : List Char) : Prop :=
  ∃ before word between, front = before ++ (word ++ (between ++ ['('])) ∧
    Spells ['o', 'k', 'l', 'c', 'h'] word ∧ (∀ c ∈ before, Text.isBlank c = true) ∧
    ∀ c ∈ between, Text.isBlank c = true

theorem skipBlanks_append {blanks : List Char} (h : ∀ c ∈ blanks, Text.isBlank c = true)
    (hrest : ∀ c ∈ rest.head?, Text.isBlank c = false) : skipBlanks (blanks ++ rest) = rest :=
  dropWhile_append_of_head? h hrest

/-- The name begins with a visible letter. -/
theorem Spells.isBlank_head? {word : List Char} (h : Spells ['o', 'k', 'l', 'c', 'h'] word)
    (rest : List Char) : ∀ c ∈ (word ++ rest).head?, Text.isBlank c = false := by
  obtain ⟨first, others, letter, -, rfl⟩ := List.forall₂_cons_left_iff.1 h
  rintro c ⟨rfl⟩
  exact isBlank_of_isLetter (by decide) letter

theorem afterOklch?_eq_some_iff :
    afterOklch? text = some inside ↔ ∃ front, IsOpening front ∧ text = front ++ inside := by
  constructor
  · intro h
    rw [afterOklch?] at h
    split at h
    · exact nomatch h
    · next rest named =>
      split at h
      · next inside' opened =>
        obtain rfl := Option.some.inj h
        obtain ⟨word, spells, skipped⟩ := afterName?_eq_some_iff.1 named
        refine ⟨_, ⟨text.takeWhile Text.isBlank, word, rest.takeWhile Text.isBlank, rfl, spells,
          fun c => List.mem_takeWhile_imp, fun c => List.mem_takeWhile_imp⟩, ?_⟩
        have bracket : rest = rest.takeWhile Text.isBlank ++ '(' :: inside' := by
          rw [← opened, skipBlanks, List.takeWhile_append_dropWhile]
        have whole : text = text.takeWhile Text.isBlank ++ (word ++ rest) := by
          rw [← skipped, skipBlanks, List.takeWhile_append_dropWhile]
        simpa [← bracket] using whole
      · exact nomatch h
  · rintro ⟨-, ⟨before, word, between, rfl, spells, hbefore, hbetween⟩, rfl⟩
    have named : afterName? ['o', 'k', 'l', 'c', 'h'] (word ++ (between ++ '(' :: inside)) =
        some (between ++ '(' :: inside) := afterName?_eq_some_iff.2 ⟨word, spells, rfl⟩
    have opened : skipBlanks (between ++ '(' :: inside) = '(' :: inside :=
      skipBlanks_append hbetween (by rintro c ⟨rfl⟩; decide)
    have skipped : skipBlanks (before ++ (word ++ (between ++ '(' :: inside))) =
        word ++ (between ++ '(' :: inside) := skipBlanks_append hbefore (spells.isBlank_head? _)
    simp only [List.append_assoc, List.singleton_append]
    rw [afterOklch?, skipped, named]
    simp only [opened]

/-- **What is looked for** is the beginning of an `oklch()` colour. -/
theorem isOklch_iff : isOklch text = true ↔ ∃ front, IsOpening front ∧ front <+: text := by
  simp only [isOklch, Option.isSome_iff_exists, afterOklch?_eq_some_iff]
  constructor
  · rintro ⟨inside, front, opening, rfl⟩
    exact ⟨front, opening, inside, rfl⟩
  · rintro ⟨front, opening, inside, rfl⟩
    exact ⟨inside, front, opening, rfl⟩

/-- A colour keeps its beginning without the blanks around it. -/
theorem isOklch_trim (h : isOklch text = true) : isOklch (Text.trim text) = true := by
  obtain ⟨-, ⟨before, word, between, rfl, spells, hbefore, hbetween⟩, inside, rfl⟩ :=
    isOklch_iff.1 h
  have begun : (before ++ (word ++ (between ++ ['('])) ++ inside).dropWhile Text.isBlank =
      word ++ between ++ '(' :: inside := by
    simpa [skipBlanks] using
      skipBlanks_append hbefore (spells.isBlank_head? (between ++ '(' :: inside))
  -- blanks at the end are dropped up to the bracket at most
  have trimmed : Text.trim (before ++ (word ++ (between ++ ['('])) ++ inside) =
      word ++ between ++ '(' :: Text.dropEndWhile Text.isBlank inside := by
    rw [Text.trim, begun, Text.dropEndWhile_append_cons (by decide)]
  rw [trimmed]
  refine isOklch_iff.2 ⟨_, ⟨[], word, between, rfl, spells, by simp, hbetween⟩, ?_⟩
  exact ⟨Text.dropEndWhile Text.isBlank inside, by simp⟩

/-! ### Colours of one notation and the other -/

/-- A hex colour begins with a number sign, which is no letter. -/
theorem isOklch_eq_false_of_ofHex? (h : (Rgba.ofHex? text).isSome = true) :
    isOklch text = false := by
  obtain ⟨digits, -, before, after, rfl, hbefore, -⟩ := Rgba.isSome_ofHex?_iff.1 h
  have skipped : skipBlanks (before ++ ('#' :: digits ++ after)) = '#' :: (digits ++ after) :=
    skipBlanks_append hbefore (by rintro c ⟨rfl⟩; decide)
  have noLetter : isLetter 'o' '#' = false := by decide
  rw [List.append_assoc, isOklch, afterOklch?, skipped]
  simp [afterName?, noLetter]

/-- What is read as an `oklch()` colour begins as one. -/
theorem isOklch_of_ofText? {reading : OklchReading} (h : OklchReading.ofText? text = some reading) :
    isOklch text = true := by
  obtain ⟨parts, cut, -⟩ := Option.bind_eq_some_iff.1 h
  obtain ⟨inside, opened, -⟩ := Option.bind_eq_some_iff.1 cut
  rw [isOklch, opened, Option.isSome_some]

/-! ### What is written -/

namespace OklchParts

theorem isOklch_text (parts : OklchParts) : isOklch parts.text = true :=
  rfl

/-- The text of a colour begins with a letter and ends in a bracket. -/
theorem isTrimmed_text (parts : OklchParts) : Text.IsTrimmed parts.text := by
  constructor
  · rintro c ⟨rfl⟩
    decide
  · have bracket : (ending parts.alpha).getLast? = some ')' := by
      cases parts.alpha with
      | none => rfl
      | some alpha =>
        have grouped : ending (some alpha) = (" / ".toList ++ alpha) ++ [')'] := by simp [ending]
        rw [grouped, List.getLast?_concat]
    have nonempty : ending parts.alpha ≠ [] := fun none => by simp [none] at bracket
    intro c hc
    -- unfolded without its equation, whose proof would evaluate the literal
    delta text at hc
    rw [List.getLast?_append_of_ne_nil _ (by simp), List.getLast?_append_of_ne_nil _ (by simp),
      List.getLast?_cons_of_ne_nil (by simp), List.getLast?_append_of_ne_nil _ (by simp),
      List.getLast?_cons_of_ne_nil (by simp [nonempty]),
      List.getLast?_append_of_ne_nil _ nonempty, bracket] at hc
    rw [← Option.some.inj hc]
    decide

end OklchParts

namespace Oklch

variable {c : Oklch} {alpha : Float}

theorem isOklch_of_css (h : c.css alpha = .ok text) : isOklch text = true := by
  obtain ⟨printed, rfl, -⟩ := exists_prints h
  exact printed.parts.isOklch_text

theorem isTrimmed_of_css (h : c.css alpha = .ok text) : Text.IsTrimmed text := by
  obtain ⟨printed, rfl, -⟩ := exists_prints h
  exact printed.parts.isTrimmed_text

end Oklch

namespace Rgba

/-- The text of a colour is written, or it is the black that stands in for it. -/
theorem oklchText_cases (c : Rgba) :
    (∃ (converted : Oklch) (alpha : Float), converted.css alpha = .ok c.oklchText) ∨
      c.oklchText = "oklch(0% 0 none)".toList := by
  unfold oklchText
  cases computed : c.oklch with
  | error _ => exact .inr rfl
  | ok text =>
    obtain ⟨converted, -, written⟩ := Oklch.bind_eq_ok_iff.1 computed
    exact .inl ⟨converted, _, written⟩

theorem isOklch_oklchText (c : Rgba) : isOklch c.oklchText = true := by
  obtain ⟨_, _, written⟩ | black := c.oklchText_cases
  · exact Oklch.isOklch_of_css written
  · rw [black]
    decide

theorem isTrimmed_oklchText (c : Rgba) : Text.IsTrimmed c.oklchText := by
  obtain ⟨_, _, written⟩ | black := c.oklchText_cases
  · exact Oklch.isTrimmed_of_css written
  · rw [black]
    constructor <;> (rintro c ⟨rfl⟩; decide)

end Rgba

/-! ### Conversion -/

/-- What a text is converted to is a colour in `oklch()` notation without blanks around it. -/
theorem isOklch_of_oklchOfText? (h : oklchOfText? text = some converted) :
    isOklch converted = true ∧ Text.IsTrimmed converted := by
  rw [oklchOfText?] at h
  split at h
  · next written =>
    obtain rfl := Option.some.inj h
    exact ⟨isOklch_trim written, Text.isTrimmed_trim text⟩
  · obtain ⟨c, -, rfl⟩ := Option.map_eq_some_iff.1 h
    exact ⟨c.isOklch_oklchText, c.isTrimmed_oklchText⟩

/-- Such a colour keeps its text. -/
theorem oklchOfText?_eq_self (written : isOklch text = true) (trimmed : Text.IsTrimmed text) :
    oklchOfText? text = some text := by
  rw [oklchOfText?, if_pos written, trimmed.trim_eq]

/-- A hex colour is converted to what is computed for it. -/
theorem oklchOfText?_of_ofHex? {c : Rgba} (read : Rgba.ofHex? text = some c)
    (computed : c.oklch = .ok converted) : oklchOfText? text = some converted := by
  have other : isOklch text = false := isOklch_eq_false_of_ofHex? (by simp [read])
  simp [oklchOfText?, oklchOfHex?, Rgba.oklchText, other, read, computed]

/-- **Colours and their conversion agree.** A value of any type is converted exactly if it counts as
a colour. No text is a colour in both notations, and every text that is read as an `oklch()` colour
begins as one. Whatever a value is converted to begins as an `oklch()` colour, has no blanks around
it, and is converted to itself. For a hex colour it is the text that is computed for its channels,
whenever the computation has a result. -/
theorem conversion_agrees :
    (∀ v : Value, v.oklch?.isSome = true ↔ v.isColor = true) ∧
    (∀ text, ¬(isOklch text = true ∧ (Rgba.ofHex? text).isSome = true)) ∧
    (∀ text reading, OklchReading.ofText? text = some reading → isOklch text = true) ∧
    (∀ v converted, Value.oklch? v = some converted → isOklch converted = true ∧
      Text.IsTrimmed converted ∧ oklchOfText? converted = some converted) ∧
    ∀ text c converted, Rgba.ofHex? text = some c → c.oklch = .ok converted →
      oklchOfText? text = some converted := by
  refine ⟨fun v => by rw [v.isSome_oklch?], fun text both => ?_,
    fun _ _ => isOklch_of_ofText?, fun v converted h => ?_, fun _ _ _ => oklchOfText?_of_ofHex?⟩
  · have other := isOklch_eq_false_of_ofHex? both.2
    rw [both.1] at other
    exact nomatch other
  · cases v with
    | str text =>
      obtain ⟨written, trimmed⟩ := isOklch_of_oklchOfText? h
      exact ⟨written, trimmed, oklchOfText?_eq_self written trimmed⟩
    | _ => exact nomatch h

/-- The sign for kelvin counts as one letter of the name, and the text keeps it. -/
example : oklchOfText? " OK\u212ACH (50% 0.1 200)\n".toList = none ∧
    oklchOfText? " O\u212ALCH (50% 0.1 200)\n".toList =
      some "O\u212ALCH (50% 0.1 200)".toList := by
  decide

end DesignTokens
