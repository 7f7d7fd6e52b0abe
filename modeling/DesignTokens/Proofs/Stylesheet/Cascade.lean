import DesignTokens.Stylesheet.Assembly
import DesignTokens.Stylesheet.Emission
import Mathlib.Data.List.Basic

/-!
# The cascade

Which value a property has on a page whose root names a theme. The rules of a stylesheet that
apply there are those of `:root` and of the theme, first the ones of the declarations and then,
behind their condition, the ones of the converted colours. All of them count the same, so the last
declaration of a property decides (`Emission.computed?`).

The rules are read off the tokens: `Token.declared?` is what a token declares for a property, and
`Token.override?` what its converted colour declares for it in addition, under its own name or
under the name for the colour as it was. Both are taken in the order of the cascade, the shared
tokens before those of the theme (`appliedTokens`).

* `Emission.exists_writesRules` — the rules are those of the text.
* `computed?_base`, `computed?_overrides` — the value of a property with and without converted
  colours, in terms of the tokens.
* `overrides_keep_colour_iff` — exactly when the converted colours leave the colour of a property
  what it was.

The rules of the converted colours stand after all rules of the declarations. A conversion
therefore wins over every declaration, also over one that was made to replace the declaration it
was converted from; that one keeps the last word only if it is converted in its turn. The dark
theme may replace a shared colour by a value that cannot be converted: such a page shows the
shared colour (`conversion_outlives_redeclaration`).
-/

namespace DesignTokens

/-! ### Rules that apply -/

/-- The rules with the selector of a bucket, in the order in which they are written: `themeRule`
writes the declarations of each bucket, and behind all of these `oklchThemeLines` writes what the
converted colours of each bucket declare. -/
def Emission.rules (oklch : Bool) (e : Emission) : List (Bucket × List Declaration) :=
  Bucket.all.map (fun b => (b, e.declarations b)) ++
    if oklch then Bucket.all.map fun b => (b, overridesIn e.derivations b) else []

/-- Whether the rules of a bucket apply to a page whose root names a theme. -/
def Bucket.appliesTo (m : Mode) (b : Bucket) : Bool :=
  b = .root || b = .ofMode (some m)

/-- The value of a property on a page whose root names a theme: that of its last declaration in
the rules that apply. -/
def Emission.computed? (oklch : Bool) (e : Emission) (m : Mode) (name : String) : Option String :=
  lastValue? name (((e.rules oklch).filter fun rule => rule.1.appliesTo m).flatMap Prod.snd)

/-- The conversion of a value that is written as a text. -/
def oklchText? (value : String) : Option String :=
  (oklchOfText? value.toList).map String.ofList

/-! ### Rules in the text -/

/-- A rule with the labels that its declarations are written under. -/
abbrev LabelledRule := Bucket × List (String × List Declaration)

/-- The rule without the labels. -/
def LabelledRule.rule (r : LabelledRule) : Bucket × List Declaration :=
  (r.1, r.2.flatMap Prod.snd)

/-- The text of a rule with labels. -/
def LabelledRule.text (r : LabelledRule) : String :=
  themeSelector r.1 ++ " \x7b" ++
    "\n".intercalate (r.2.flatMap fun group => ("\n  /* " ++ group.1 ++ " */") ::
      group.2.map fun d => "  --" ++ d.name ++ ": " ++ d.value ++ ";") ++ "\n\x7d\n"

/-- The lines of a rule behind a condition. -/
def supportedLines (rule : Bucket × List Declaration) : List String :=
  ("  " ++ themeSelector rule.1 ++ " \x7b") ::
    rule.2.map (fun d => "    --" ++ d.name ++ ": " ++ d.value ++ ";") ++ ["  \x7d\n"]

/-- Blocks write the rules of an emission: one below the other those of the declarations, and behind
them, under the condition that the notation is supported, those of the converted colours. -/
def Emission.WritesRules (e : Emission) (blocks : List String) : Prop :=
  ∃ (labelled : List LabelledRule) (overriding : List (Bucket × List Declaration))
    (front back : List String),
    e.rules false = labelled.map LabelledRule.rule ∧ e.rules true = e.rules false ++ overriding ∧
    blocks = front ++ labelled.map LabelledRule.text ++ back ∧
    ((∀ rule ∈ overriding, rule.2 = []) ∨ ∃ more,
      "\n".intercalate ("@supports (color: oklch(0% 0 0)) \x7b" ::
        (overriding.filter fun rule => rule.2 ≠ []).flatMap supportedLines ++ more ++ ["\x7d"]) ∈
          back)

/-- What a section declares in a bucket, with its label; a section that declares nothing there has
none. -/
def LabelledSection.group (b : Bucket) (s : LabelledSection) : List (String × List Declaration) :=
  match s.declarations.get b with
  | [] => []
  | declarations => [(s.label, declarations)]

/-- The rule of a bucket, with the labels of the sections. -/
def Emission.labelledRule (e : Emission) (b : Bucket) : LabelledRule :=
  (b, e.sections.flatMap (LabelledSection.group b))

/-- Without their labels, the sections are the declarations of the bucket. -/
theorem Emission.rule_labelledRule (e : Emission) (b : Bucket) :
    (e.labelledRule b).rule = (b, e.declarations b) := by
  rw [labelledRule, LabelledRule.rule, declarations, List.flatMap_assoc]
  refine congrArg _ (List.flatMap_congr fun s _ => ?_)
  unfold LabelledSection.group
  split
  · next none => rw [none]; rfl
  · simp

/-- With their labels, they are what is written in the rule. -/
theorem Emission.text_labelledRule (e : Emission) (b : Bucket) :
    (e.labelledRule b).text = themeRule e b := by
  rw [labelledRule, LabelledRule.text, themeRule, bucketBody, stack, List.flatMap_assoc]
  have lines : ∀ s ∈ e.sections, sectionLines b s = (LabelledSection.group b s).flatMap fun group =>
      ("\n  /* " ++ group.1 ++ " */") ::
        group.2.map fun d => "  --" ++ d.name ++ ": " ++ d.value ++ ";" := by
    intro s _
    unfold LabelledSection.group sectionLines
    cases s.declarations.get b with
    | nil => rfl
    | cons d rest => simp [Declaration.line]
  rw [List.flatMap_congr lines]

/-- The rules behind a condition are those that declare something. -/
theorem flatMap_supportedLines (derivations : List Derivation) (buckets : List Bucket) :
    ((buckets.map fun b => (b, overridesIn derivations b)).filter fun rule => rule.2 ≠ []).flatMap
      supportedLines = buckets.flatMap (oklchThemeLines derivations) := by
  induction buckets with
  | nil => rfl
  | cons b rest ih =>
    rw [List.map_cons, List.flatMap_cons, ← ih, oklchThemeLines]
    cases overridden : overridesIn derivations b with
    | nil => simp [innerRule]
    | cons d more => simp [innerRule, supportedLines, Declaration.line]

/-- **The rules of the cascade are written** in the text of a stylesheet. -/
theorem Emission.exists_writesRules (e : Emission) (modernCss : Bool) :
    ∃ blocks, e.css true modernCss = "\n".intercalate blocks ++ "\n" ∧ e.WritesRules blocks := by
  refine ⟨e.blocks true modernCss, rfl, ?_⟩
  obtain ⟨preferences, theme⟩ : ∃ preferences,
      themeBlocks e = Bucket.all.map (themeRule e) ++ preferences := ⟨_, rfl⟩
  refine ⟨Bucket.all.map e.labelledRule, Bucket.all.map fun b => (b, overridesIn e.derivations b),
    headerBlocks, preferences ++ oklchBlocks e.derivations ++
      (if modernCss then modernBlocks true e else []), ?_, ?_, ?_, ?_⟩
  · simp [rules, rule_labelledRule]
  · simp [rules]
  · simp [blocks, theme, text_labelledRule]
  · cases derived : e.derivations with
    | nil => exact Or.inl (by simp [overridesIn])
    | cons d rest =>
      rw [flatMap_supportedLines, ← derived]
      refine Or.inr ⟨Mode.all.flatMap (oklchPreferenceLines e.derivations), ?_⟩
      simp [oklchBlocks, derived, stack]

/-! ### Last declarations -/

/-- What a declaration gives to a property. -/
def Declaration.valueOf? (name : String) (d : Declaration) : Option String :=
  if d.name = name then some d.value else none

theorem lastValue?_eq_getLast? (name : String) (declarations : List Declaration) :
    lastValue? name declarations =
      (declarations.filterMap (Declaration.valueOf? name)).getLast? := by
  induction declarations with
  | nil => rfl
  | cons d rest ih =>
    rw [lastValue?, ih, List.filterMap_cons]
    by_cases same : d.name = name
    · rw [if_pos same, Declaration.valueOf?, if_pos same, List.getLast?_cons]
      cases (rest.filterMap (Declaration.valueOf? name)).getLast? <;> rfl
    · rw [if_neg same, Declaration.valueOf?, if_neg same]
      cases (rest.filterMap (Declaration.valueOf? name)).getLast? <;> rfl

/-! ### Tokens in the cascade -/

/-- The tokens of a bucket, in the order in which they are written. -/
def bucketTokens (b : Bucket) (tokens : List Token) : List Token :=
  (emissionOrder tokens).filter fun t => t.bucket = b

/-- The tokens that apply to a page with a theme, in the order of the cascade. -/
def appliedTokens (m : Mode) (tokens : List Token) : List Token :=
  bucketTokens .root tokens ++ bucketTokens (.ofMode (some m)) tokens

namespace Token

/-- Whether a token is a colour that is converted. -/
def IsConverted (t : Token) : Prop :=
  t.effectiveType = .color ∧ isColor t.valueText.toList

instance (t : Token) : Decidable t.IsConverted :=
  inferInstanceAs (Decidable (_ ∧ _))

/-- What a token declares for a property. -/
def declared? (name : String) (t : Token) : Option String :=
  if t.propertyName = name then some t.valueText else none

/-- What the converted colour of a token declares for a property: the colour as it was under the
name for it, and the conversion under the token's own name. -/
def override? (name : String) (t : Token) : Option String :=
  if t.IsConverted then
    if t.propertyName ++ "-hex" = name then some t.valueText
    else if t.propertyName = name then oklchText? t.valueText
    else none
  else none

end Token

/-- The last of the converted colours' declarations of a property on a page with a theme. -/
def lastOverride? (m : Mode) (tokens : List Token) (name : String) : Option String :=
  ((appliedTokens m tokens).filterMap (Token.override? name)).getLast?

theorem append_hex_ne (name : String) : name ++ "-hex" ≠ name := by
  intro h
  have := congrArg String.length h
  simp at this

namespace Token

/-- A token has a conversion exactly if it is a colour that is converted. -/
theorem derivation?_of_isConverted {t : Token} (converted : t.IsConverted) :
    ∃ w, oklchText? t.valueText = some w ∧
      t.derivation? = some
        { name := t.propertyName, source := t.valueText, converted := w, bucket := t.bucket } := by
  obtain ⟨color, isColor⟩ := converted
  have some' : (oklchOfText? t.valueText.toList).isSome := by rwa [isSome_oklchOfText?]
  obtain ⟨w, hw⟩ := Option.isSome_iff_exists.mp some'
  refine ⟨String.ofList w, by rw [oklchText?, hw]; rfl, ?_⟩
  rw [derivation?, if_pos ⟨color, by simp [isUnparseable, isColor]⟩, hw]
  rfl

theorem derivation?_of_not_isConverted {t : Token} (h : ¬ t.IsConverted) :
    t.derivation? = none := by
  rw [derivation?, if_neg]
  rintro ⟨color, parseable⟩
  refine h ⟨color, ?_⟩
  simpa [isUnparseable, color] using parseable

/-- **A token's overrides.** The converted colour of a token declares for a property what
`Token.override?` says, and declares it once. -/
theorem filterMap_overrides (name : String) (t : Token) :
    (t.derivation?.toList.flatMap Derivation.overrides).filterMap (Declaration.valueOf? name) =
      (t.override? name).toList := by
  by_cases converted : t.IsConverted
  · obtain ⟨w, hw, derived⟩ := derivation?_of_isConverted converted
    rw [derived, override?, if_pos converted, hw]
    -- the two names are never the same, so at most one of the two declarations counts
    by_cases companion : t.propertyName ++ "-hex" = name
    · have own : t.propertyName ≠ name := fun own => append_hex_ne _ (companion.trans own.symm)
      simp [Derivation.overrides, Declaration.valueOf?, companion, own]
    · by_cases own : t.propertyName = name <;>
        simp [Derivation.overrides, Declaration.valueOf?, companion, own]
  · rw [derivation?_of_not_isConverted converted, override?, if_neg converted]
    rfl

/-- A conversion goes where the token's declaration goes. -/
theorem bucket_of_derivation? {t : Token} {d : Derivation} (derived : t.derivation? = some d) :
    d.bucket = t.bucket := by
  by_cases converted : t.IsConverted
  · obtain ⟨w, -, derived'⟩ := derivation?_of_isConverted converted
    rw [derived', Option.some.injEq] at derived
    rw [← derived]
  · rw [derivation?_of_not_isConverted converted] at derived
    exact nomatch derived

end Token

/-- The overrides of a bucket are those of its tokens, in their order. -/
theorem overridesIn_filterMap (tokens : List Token) (b : Bucket) :
    overridesIn (tokens.filterMap Token.derivation?) b =
      (tokens.filter fun t => t.bucket = b).flatMap fun t =>
        t.derivation?.toList.flatMap Derivation.overrides := by
  induction tokens with
  | nil => rfl
  | cons t rest ih =>
    unfold overridesIn at ih ⊢
    by_cases here : t.bucket = b
    · cases derived : t.derivation? with
      | none => simp [derived, here, ih]
      | some d =>
        have there : d.bucket = b := (Token.bucket_of_derivation? derived).trans here
        simp [derived, here, there, ih]
    · cases derived : t.derivation? with
      | none => simp [derived, here, ih]
      | some d =>
        have there : d.bucket ≠ b := by rwa [Token.bucket_of_derivation? derived]
        simp [derived, here, there, ih]

/-- The declarations of a bucket are those of its tokens, in their order. -/
theorem declarations_ofTokens (oklch : Bool) (tokens : List Token) (b : Bucket) (name : String) :
    ((Emission.ofTokens oklch tokens).declarations b).filterMap (Declaration.valueOf? name) =
      (bucketTokens b tokens).filterMap (Token.declared? name) := by
  unfold Emission.declarations Emission.ofTokens bucketTokens emissionOrder
  rw [List.flatMap_map, List.filter_flatMap, List.filterMap_flatMap, List.filterMap_flatMap]
  refine List.flatMap_congr fun group _ => ?_
  rw [LabelledSection.ofTokens, ByBucket.get_of, List.filterMap_map]
  rfl

/-- The overrides of a bucket, read for one property, are those of its tokens, in their order. -/
theorem overridesIn_ofTokens (tokens : List Token) (b : Bucket) (name : String) :
    (overridesIn (Emission.ofTokens true tokens).derivations b).filterMap
        (Declaration.valueOf? name) =
      (bucketTokens b tokens).filterMap (Token.override? name) := by
  have derivations : (Emission.ofTokens true tokens).derivations =
      (emissionOrder tokens).filterMap Token.derivation? := rfl
  rw [derivations, overridesIn_filterMap, List.filterMap_flatMap,
    List.filterMap_eq_flatMap_toList]
  exact List.flatMap_congr fun t _ => Token.filterMap_overrides name t

/-! ### The value of a property -/

/-- Of one rule for each bucket, a page with a theme meets the shared one and that of its theme. -/
theorem flatMap_appliesTo (m : Mode) (f : Bucket → List Declaration) :
    ((Bucket.all.map fun b => (b, f b)).filter fun rule => rule.1.appliesTo m).flatMap Prod.snd =
      f .root ++ f (.ofMode (some m)) := by
  cases m <;> simp [Bucket.all, Bucket.appliesTo, Bucket.ofMode]

/-- Without converted colours the last token that declares a property decides. -/
theorem computed?_base (oklch : Bool) (tokens : List Token) (m : Mode) (name : String) :
    (Emission.ofTokens oklch tokens).computed? false m name =
      ((appliedTokens m tokens).filterMap (Token.declared? name)).getLast? := by
  rw [Emission.computed?, lastValue?_eq_getLast?, Emission.rules, if_neg (by decide),
    List.append_nil, flatMap_appliesTo, List.filterMap_append, declarations_ofTokens,
    declarations_ofTokens, ← List.filterMap_append, appliedTokens]

/-- **The cascade with converted colours.** The last override of a property decides; without one
the property has the value that it has without converted colours. -/
theorem computed?_overrides (tokens : List Token) (m : Mode) (name : String) :
    (Emission.ofTokens true tokens).computed? true m name =
      (lastOverride? m tokens name).or
        ((Emission.ofTokens true tokens).computed? false m name) := by
  rw [Emission.computed?, Emission.computed?, lastValue?_eq_getLast?, lastValue?_eq_getLast?,
    Emission.rules, Emission.rules, if_pos rfl, if_neg (by decide), List.append_nil,
    List.filter_append, List.flatMap_append, List.filterMap_append, List.getLast?_append,
    flatMap_appliesTo _ fun b => overridesIn _ b, List.filterMap_append (l := overridesIn _ _),
    overridesIn_ofTokens, overridesIn_ofTokens, ← List.filterMap_append]
  rfl

/-- Whether the converted colours leave a property its colour: it has the value that it has
without them, or the conversion of that value. -/
def Emission.KeepsColour (e : Emission) (m : Mode) (name : String) : Prop :=
  e.computed? true m name = e.computed? false m name ∨
    ∃ v w, e.computed? false m name = some v ∧ oklchText? v = some w ∧
      e.computed? true m name = some w

/-- The tokens that declare a property on a page with a theme. -/
def declarers (m : Mode) (tokens : List Token) (name : String) : List Token :=
  (appliedTokens m tokens).filter fun t => t.propertyName = name

theorem filterMap_declared? (m : Mode) (tokens : List Token) (name : String) :
    (appliedTokens m tokens).filterMap (Token.declared? name) =
      (declarers m tokens name).map Token.valueText := by
  rw [declarers, ← List.filterMap_eq_map, List.filterMap_filter]
  refine List.filterMap_congr fun t _ => ?_
  by_cases own : t.propertyName = name <;> simp [Token.declared?, own]

/-- Unless the property is the name for some colour as it was, only its own tokens override it. -/
theorem filterMap_override? {m : Mode} {tokens : List Token} {name : String}
    (companion : ∀ t ∈ appliedTokens m tokens, t.IsConverted → t.propertyName ++ "-hex" ≠ name) :
    (appliedTokens m tokens).filterMap (Token.override? name) =
      (declarers m tokens name).filterMap (Token.override? name) := by
  rw [declarers, List.filterMap_filter]
  refine List.filterMap_congr fun t applied => ?_
  by_cases own : t.propertyName = name
  · simp [own]
  · by_cases converted : t.IsConverted
    · simp [Token.override?, converted, own, companion t applied converted]
    · simp [Token.override?, converted]

theorem getLast?_filterMap_eq_some {α β : Type} {f : α → Option β} {l : List α} {x : α} {y : β}
    (last : l.getLast? = some x) (hy : f x = some y) : (l.filterMap f).getLast? = some y := by
  obtain ⟨front, rfl⟩ := List.getLast?_eq_some_iff.mp last
  simp [List.filterMap_append, hy]

section Keeping

variable {m : Mode} {tokens : List Token} {name : String}

/-- The converted colours change nothing unless there is an override, and then nothing if the
override is harmless. -/
theorem keepsColour_iff :
    (Emission.ofTokens true tokens).KeepsColour m name ↔
      ∀ w, lastOverride? m tokens name = some w →
        ∃ v, (Emission.ofTokens true tokens).computed? false m name = some v ∧
          (w = v ∨ oklchText? v = some w) := by
  have cascade := computed?_overrides tokens m name
  refine ⟨?_, ?_⟩
  · -- an override is the value of the property, so it is what has been kept
    intro keeps w last
    rw [last, Option.some_or] at cascade
    obtain same | ⟨v, w', hv, hw', converted⟩ := keeps
    · exact ⟨w, by rw [← same, cascade], Or.inl rfl⟩
    · rw [cascade, Option.some.injEq] at converted
      exact ⟨v, hv, Or.inr (by rw [hw', converted])⟩
  · intro harmless
    cases last : lastOverride? m tokens name with
    | none => exact Or.inl (by rw [cascade, last, Option.none_or])
    | some w =>
      rw [last, Option.some_or] at cascade
      obtain ⟨v, hv, rfl | converted⟩ := harmless w last
      · exact Or.inl (by rw [cascade, hv])
      · exact Or.inr ⟨v, w, hv, converted, cascade⟩

/-- A property whose last token is converted is overridden last by this conversion. -/
theorem lastOverride?_of_isConverted {t : Token}
    (last : (declarers m tokens name).getLast? = some t) (converted : t.IsConverted)
    (companion : ∀ c ∈ appliedTokens m tokens, c.IsConverted → c.propertyName ++ "-hex" ≠ name) :
    ∃ w, oklchText? t.valueText = some w ∧ lastOverride? m tokens name = some w := by
  obtain ⟨w, hw, -⟩ := Token.derivation?_of_isConverted converted
  have mem : t ∈ declarers m tokens name := List.mem_of_getLast? last
  have applied : t ∈ appliedTokens m tokens := List.mem_of_mem_filter mem
  have own : t.propertyName = name := of_decide_eq_true (List.mem_filter.mp mem).2
  refine ⟨w, hw, ?_⟩
  rw [lastOverride?, filterMap_override? companion]
  refine getLast?_filterMap_eq_some last ?_
  rw [Token.override?, if_pos converted, if_neg (companion t applied converted), if_pos own, hw]

/-- **Converted colours and the colours they were.** On a page with a theme the converted colours
leave a property its colour exactly if its last override, when it has one, is the value that the
property has without converted colours or the conversion of it. That is so if the last token that
declares the property is itself converted, and no colour as it was is kept under the name of the
property; and it is so if nothing overrides the property. The rules that decide are those in the
text of the stylesheet. -/
theorem overrides_keep_colour_iff (tokens : List Token) (m : Mode) (name : String) :
    let e := Emission.ofTokens true tokens
    (e.KeepsColour m name ↔
      ∀ w, lastOverride? m tokens name = some w →
        ∃ v, e.computed? false m name = some v ∧ (w = v ∨ oklchText? v = some w)) ∧
    (∀ t, (declarers m tokens name).getLast? = some t → t.IsConverted →
      (∀ c ∈ appliedTokens m tokens, c.IsConverted → c.propertyName ++ "-hex" ≠ name) →
        e.computed? false m name = some t.valueText ∧
          e.computed? true m name = oklchText? t.valueText) ∧
    (lastOverride? m tokens name = none →
      e.computed? true m name = e.computed? false m name) ∧
    ∀ modernCss, ∃ blocks,
      e.css true modernCss = "\n".intercalate blocks ++ "\n" ∧ e.WritesRules blocks := by
  intro e
  have cascade : e.computed? true m name =
      (lastOverride? m tokens name).or (e.computed? false m name) :=
    computed?_overrides tokens m name
  refine ⟨keepsColour_iff, ?_, ?_, e.exists_writesRules⟩
  · intro t last converted companion
    obtain ⟨w, hw, overridden⟩ := lastOverride?_of_isConverted last converted companion
    refine ⟨?_, by rw [cascade, overridden, hw, Option.some_or]⟩
    rw [computed?_base, filterMap_declared?, List.getLast?_map, last]
    rfl
  · intro none
    rw [cascade, none, Option.none_or]

end Keeping

/-- **A conversion outlives a redeclaration.** The dark theme replaces a shared colour by one that
cannot be converted. Without converted colours a dark page shows the replacement; with them it
shows the conversion of the shared colour, which the page had replaced. -/
theorem conversion_outlives_redeclaration :
    let shared : Token := { path := ⟨"color", ["bg"]⟩, value := .str "oklch(50% 0.1 200)" }
    let night : Token :=
      { path := ⟨"color", ["bg", "dark"]⟩, value := .str "rgba(0, 0, 0, 0.5)", mode := some .dark }
    let e := Emission.ofTokens true [shared, night]
    night.propertyName = "color-bg" ∧
    e.computed? false .dark "color-bg" = some "rgba(0, 0, 0, 0.5)" ∧
    e.computed? true .dark "color-bg" = some "oklch(50% 0.1 200)" ∧
    ¬ e.KeepsColour .dark "color-bg" := by
  intro shared night e
  have before : e.computed? false .dark "color-bg" = some "rgba(0, 0, 0, 0.5)" := by
    decide +kernel
  have after : e.computed? true .dark "color-bg" = some "oklch(50% 0.1 200)" := by
    decide +kernel
  refine ⟨by decide +kernel, before, after, ?_⟩
  -- neither the same value nor the conversion of it, for there is none
  rintro (same | ⟨v, w, hv, hw, -⟩)
  · rw [before, after] at same
    exact absurd same (by decide)
  · rw [before, Option.some.injEq] at hv
    subst hv
    have unconverted : oklchText? "rgba(0, 0, 0, 0.5)" = none := by decide +kernel
    rw [unconverted] at hw
    exact nomatch hw

end DesignTokens
