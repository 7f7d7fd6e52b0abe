import DesignTokens.Stylesheet.Assembly
import Mathlib.Data.List.Basic

/-!
# What the texts of a stylesheet are made of

Everything in a stylesheet is put together from the texts of an emission, the labels, names and
values of its declarations and the texts of its colours, and from fixed texts between them. A
property of texts which plain fixed texts have and which is kept by putting texts together
(`Composes`) therefore goes over from the texts of an emission to all that is computed from them,
whatever the property says.

* `Emission.Has` — all texts of an emission have a property.
* `Declaration.Has.line`, `has_of_mem_overridesIn`, `has_of_mem_derive`,
  `has_of_mem_lightDarkPairs` — then so have the lines of its declarations, the overrides of its
  converted colours, the states of its colours and the pairs of its themes.
* `exists_of_mem_propertyRules` — a registered property is registered with the texts of a
  declaration.
* `HoldsOfRules.of_mem_modernBlocks` — what holds of the rules that enhancements are made of holds
  of all their blocks.
-/

namespace DesignTokens

/-- A text of one line without braces. -/
def IsPlain (text : String) : Prop :=
  ∀ c ∈ text.toList, c ≠ '\n' ∧ c ≠ '{' ∧ c ≠ '}'

instance (text : String) : Decidable (IsPlain text) :=
  -- character by character in the text; there are too many characters to go through them all
  List.decidableBAll (fun c => c ≠ '\n' ∧ c ≠ '{' ∧ c ≠ '}') text.toList

/-- A property of texts that plain texts have and that putting together keeps. -/
structure Composes (P : String → Prop) : Prop where
  plain : ∀ {text}, IsPlain text → P text
  append : ∀ {first second}, P first → P second → P (first ++ second)

namespace Composes

variable {P : String → Prop} {text more : String}

theorem append_plain (composes : Composes P) (has : P text) (plain : IsPlain more) :
    P (text ++ more) :=
  composes.append has (composes.plain plain)

theorem plain_append (composes : Composes P) (plain : IsPlain text) (has : P more) :
    P (text ++ more) :=
  composes.append (composes.plain plain) has

end Composes

/-- The name and the value of a declaration have a property. -/
structure Declaration.Has (P : String → Prop) (d : Declaration) : Prop where
  name : P d.name
  value : P d.value

/-- The name of a converted colour and its two texts have a property. -/
structure Derivation.Has (P : String → Prop) (d : Derivation) : Prop where
  name : P d.name
  source : P d.source
  converted : P d.converted

/-- All texts of an emission have a property. -/
structure Emission.Has (P : String → Prop) (e : Emission) : Prop where
  labels : ∀ s ∈ e.sections, P s.label
  declarations : ∀ b, ∀ d ∈ e.declarations b, d.Has P
  derivations : ∀ d ∈ e.derivations, d.Has P

section Decidable

variable (P : String → Prop) [DecidablePred P]

instance (d : Declaration) : Decidable (d.Has P) :=
  decidable_of_iff (P d.name ∧ P d.value) ⟨fun h => ⟨h.1, h.2⟩, fun h => ⟨h.name, h.value⟩⟩

instance (d : Derivation) : Decidable (d.Has P) :=
  decidable_of_iff (P d.name ∧ P d.source ∧ P d.converted)
    ⟨fun h => ⟨h.1, h.2.1, h.2.2⟩, fun h => ⟨h.name, h.source, h.converted⟩⟩

instance (e : Emission) : Decidable (e.Has P) :=
  decidable_of_iff
    ((∀ s ∈ e.sections, P s.label) ∧ (∀ b ∈ Bucket.all, ∀ d ∈ e.declarations b, d.Has P) ∧
      ∀ d ∈ e.derivations, d.Has P)
    ⟨fun h => ⟨h.1, fun b => h.2.1 b (by cases b <;> decide), h.2.2⟩,
      fun h => ⟨h.labels, fun b _ => h.declarations b, h.derivations⟩⟩

end Decidable

variable {P : String → Prop} {declarations dark light : List Declaration}

/-- What holds of texts, and of two texts with a separator between them if it holds of both, holds
of all texts with the separator between any two. -/
theorem intercalate_induction {separator : String} {texts : List String} (empty : P "")
    (append : ∀ {first second}, P first → P second → P (first ++ separator ++ second))
    (all : ∀ text ∈ texts, P text) : P (separator.intercalate texts) := by
  induction texts with
  | nil => exact empty
  | cons text more ih =>
    rw [List.forall_mem_cons] at all
    by_cases last : more = []
    · rw [last, String.intercalate_singleton]
      exact all.1
    · rw [String.intercalate_cons_of_ne_nil last]
      exact append all.1 (ih all.2)

/-- The declarations of a section are among those of the emission. -/
theorem Emission.Has.of_mem_section {e : Emission} (has : e.Has P) {s : LabelledSection}
    (mem : s ∈ e.sections) {b : Bucket} {d : Declaration} (hd : d ∈ s.declarations.get b) :
    d.Has P :=
  has.declarations b d (List.mem_flatMap.2 ⟨s, mem, hd⟩)

/-! ### Lines -/

theorem isPlain_spaces (n : Nat) : IsPlain (String.ofList (List.replicate n ' ')) := by
  intro c mem
  rw [String.toList_ofList] at mem
  rw [List.eq_of_mem_replicate mem]
  decide

theorem Declaration.Has.line (composes : Composes P) {d : Declaration} (has : d.Has P)
    (indent : Nat) : P (d.line indent) := by
  have dashes := composes.append_plain (composes.plain (isPlain_spaces indent))
    (by decide : IsPlain "--")
  have named := composes.append_plain (composes.append dashes has.name) (by decide : IsPlain ": ")
  exact composes.append_plain (composes.append named has.value) (by decide)

/-! ### Converted colours -/

theorem has_of_mem_overridesIn (composes : Composes P) {derivations : List Derivation}
    (has : ∀ d ∈ derivations, d.Has P) (b : Bucket) : ∀ d ∈ overridesIn derivations b, d.Has P := by
  intro d mem
  obtain ⟨colour, hcolour, mem⟩ := List.mem_flatMap.1 mem
  have hascolour := has colour (List.mem_of_mem_filter hcolour)
  simp only [Derivation.overrides, List.mem_cons, List.not_mem_nil, or_false] at mem
  rcases mem with rfl | rfl
  · exact ⟨hascolour.name, hascolour.converted⟩
  · exact ⟨composes.append_plain hascolour.name (by decide), hascolour.source⟩

/-! ### Enhancements -/

/-- The texts of a state around the colour are plain. -/
structure Variant.Plain (v : Variant) : Prop where
  suffix : IsPlain v.suffix
  before : IsPlain v.before
  after : IsPlain v.after

theorem plain_interactionVariants : ∀ v ∈ interactionVariants, v.Plain := by
  simp only [interactionVariants, List.forall_mem_cons]
  exact ⟨⟨by decide, by decide, by decide⟩, ⟨by decide, by decide, by decide⟩, by simp⟩

theorem plain_shadeVariants : ∀ v ∈ shadeVariants, v.Plain := by
  simp only [shadeVariants, List.forall_mem_cons]
  exact ⟨⟨by decide, by decide, by decide⟩, ⟨by decide, by decide, by decide⟩, by simp⟩

theorem has_of_mem_derive (composes : Composes P) {variants : List Variant}
    (plain : ∀ v ∈ variants, v.Plain) (has : ∀ d ∈ declarations, d.Has P) :
    ∀ d ∈ derive variants declarations, d.Has P := by
  intro d mem
  obtain ⟨base, hbase, mem⟩ := List.mem_flatMap.1 mem
  obtain ⟨v, hv, rfl⟩ := List.mem_map.1 mem
  have hasbase := has base (List.mem_of_mem_filter hbase)
  have hv := plain v hv
  have dashed := composes.append_plain hasbase.name (by decide : IsPlain "-")
  have opened := composes.append_plain (composes.plain hv.before) (by decide : IsPlain "var(--")
  have closed := composes.append_plain (composes.append opened hasbase.name)
    (by decide : IsPlain ")")
  exact ⟨composes.append_plain dashed hv.suffix, composes.append_plain closed hv.after⟩

/-- A declared name is the name of a declaration. -/
theorem mem_declaredNames_iff {name : String} :
    name ∈ declaredNames declarations ↔ ∃ d ∈ declarations, d.name = name := by
  rw [declaredNames, List.mem_eraseDups, List.mem_map]

theorem exists_of_lastValue? {name value : String}
    (last : lastValue? name declarations = some value) : ∃ d ∈ declarations, d.value = value := by
  induction declarations with
  | nil => exact nomatch last
  | cons d rest ih =>
    rw [lastValue?] at last
    split at last
    · next later found =>
      obtain ⟨d', mem, same⟩ := ih (found.trans last)
      exact ⟨d', List.mem_cons_of_mem _ mem, same⟩
    · split at last
      · exact ⟨d, List.mem_cons_self, Option.some.inj last⟩
      · exact nomatch last

/-- The pairs of two themes are made name by name: a colour with a last value in each of them, the
light one not empty, has a pair. -/
theorem exists_lightDarkPairs_eq_filterMap (dark light : List Declaration) :
    ∃ pair? : String → Option Declaration,
      lightDarkPairs dark light = (declaredNames dark).filterMap pair? ∧
      ∀ name p, pair? name = some p ↔
        startsWith "color-" name ∧ ∃ l d, lastValue? name light = some l ∧
          lastValue? name dark = some d ∧ l ≠ "" ∧
          p = { name := name, value := "light-dark(" ++ l ++ ", " ++ d ++ ")" } := by
  refine ⟨_, rfl, fun name p => ?_⟩
  by_cases color : startsWith "color-" name
  · rw [if_pos color]
    cases lastValue? name light <;> cases lastValue? name dark <;> simp [color, eq_comm]
  · rw [if_neg color]
    simp [color]

theorem has_of_mem_lightDarkPairs (composes : Composes P) (hasDark : ∀ d ∈ dark, d.Has P)
    (hasLight : ∀ d ∈ light, d.Has P) : ∀ d ∈ lightDarkPairs dark light, d.Has P := by
  intro d mem
  obtain ⟨pair?, made, pairs⟩ := exists_lightDarkPairs_eq_filterMap dark light
  rw [made] at mem
  obtain ⟨name, declared, pair⟩ := List.mem_filterMap.1 mem
  obtain ⟨-, lightValue, darkValue, hlight, hdark, -, rfl⟩ := (pairs name d).1 pair
  obtain ⟨named, hnamed, rfl⟩ := mem_declaredNames_iff.1 declared
  obtain ⟨l, hl, rfl⟩ := exists_of_lastValue? hlight
  obtain ⟨d, hd, rfl⟩ := exists_of_lastValue? hdark
  have opened := composes.plain_append (by decide : IsPlain "light-dark(") (hasLight l hl).value
  have comma := composes.append_plain opened (by decide : IsPlain ", ")
  have both := composes.append comma (hasDark d hd).value
  exact ⟨(hasDark named hnamed).name, composes.append_plain both (by decide)⟩

theorem isPlain_of_propertySyntax? {name syntaxText : String}
    (typed : propertySyntax? name = some syntaxText) : IsPlain syntaxText := by
  have plain : ∀ entry ∈ propertySyntaxes, ∀ text ∈ entry.2, IsPlain text := by decide
  obtain ⟨entry, found, same⟩ := Option.bind_eq_some_iff.1 typed
  exact plain entry (List.mem_of_find?_eq_some found) syntaxText same

/-- A rule that registers a property has five lines. -/
theorem propertyRule_eq_stack (name syntaxText value : String) :
    propertyRule name syntaxText value =
      stack ["@property --" ++ name ++ " \x7b", "  syntax: '" ++ syntaxText ++ "';",
        "  inherits: true;", "  initial-value: " ++ value ++ ";", "\x7d"] := by
  unfold propertyRule stack
  refine String.toList_inj.1 ?_
  simp

/-- A rule that registers a property has the texts of declarations, and a plain type. -/
theorem exists_of_mem_propertyRules {root : List Declaration} {rule : String}
    (has : ∀ d ∈ root ++ dark, d.Has P) (mem : rule ∈ propertyRules root dark) :
    ∃ name syntaxText value, rule = propertyRule name syntaxText value ∧ P name ∧
      IsPlain syntaxText ∧ P value := by
  obtain ⟨name, declared, registered⟩ := List.mem_filterMap.1 mem
  split at registered
  · next syntaxText value typed first =>
    obtain ⟨named, hnamed, rfl⟩ := mem_declaredNames_iff.1 declared
    obtain ⟨valued, found, rfl⟩ := Option.map_eq_some_iff.1 first
    exact ⟨_, _, _, (Option.some.inj registered).symm, (has named hnamed).name,
      isPlain_of_propertySyntax? typed, (has valued (List.mem_of_find?_eq_some found)).value⟩
  · exact nomatch registered

/-! ### Blocks of enhancements -/

/-- A property of blocks that holds of the rules of enhancements, if the texts that they are put
together from have another property, and of what stands between them. -/
structure HoldsOfRules (P Q : String → Prop) : Prop where
  composes : Composes P
  /-- comments and empty lines between the rules -/
  note : ∀ {text}, IsPlain text → text.toList.head? ≠ some ' ' → Q text
  /-- rules with an empty line between them -/
  gap : ∀ {first second}, Q first → Q second → Q (first ++ "\n\n" ++ second)
  property : ∀ {name syntaxText value}, P name → IsPlain syntaxText → P value →
    Q (propertyRule name syntaxText value)
  conditional : ∀ {condition} {declared : ByBucket (List Declaration)}, IsPlain condition →
    (∀ b, ∀ d ∈ declared.get b, d.Has P) → Q (conditionalBlock condition declared)
  pairs : ∀ {pairs}, (∀ d ∈ pairs, Declaration.Has P d) → Q (lightDarkBlock pairs)

namespace HoldsOfRules

variable {Q : String → Prop} {declared : ByBucket (List Declaration)}

theorem of_mem_propertyBlocks (rules : HoldsOfRules P Q)
    (has : ∀ b, ∀ d ∈ declared.get b, d.Has P) : ∀ block ∈ propertyBlocks declared, Q block := by
  have each : ∀ rule ∈ propertyRules declared.root declared.dark, Q rule := by
    intro rule mem
    obtain ⟨name, syntaxText, value, rfl, hname, htype, hvalue⟩ := exists_of_mem_propertyRules
      (List.forall_mem_append.2 ⟨has .root, has .dark⟩) mem
    exact rules.property hname htype hvalue
  have empty : Q "" := rules.note (by decide) (by decide)
  unfold propertyBlocks
  split
  · exact fun _ mem => nomatch mem
  · rw [List.forall_mem_cons, List.forall_mem_cons, List.forall_mem_singleton]
    exact ⟨empty, rules.note (by decide) (by decide),
      intercalate_induction empty rules.gap each⟩

/-- The states of the colours that are declared, behind a condition. -/
theorem of_mem_derived (rules : HoldsOfRules P Q) (has : ∀ b, ∀ d ∈ declared.get b, d.Has P)
    {variants : List Variant} (plain : ∀ v ∈ variants, v.Plain) {comment condition : String}
    (hcomment : IsPlain comment) (outer : comment.toList.head? ≠ some ' ')
    (hcondition : IsPlain condition) :
    ∀ block ∈ (if anyDeclared (declared.map (derive variants)) then
      ["", comment, conditionalBlock condition (declared.map (derive variants))] else []),
      Q block := by
  have states : ∀ b, ∀ d ∈ (declared.map (derive variants)).get b, d.Has P := by
    intro b
    rw [ByBucket.get_map]
    exact has_of_mem_derive rules.composes plain (has b)
  split
  · rw [List.forall_mem_cons, List.forall_mem_cons, List.forall_mem_singleton]
    exact ⟨rules.note (by decide) (by decide), rules.note hcomment outer,
      rules.conditional hcondition states⟩
  · exact fun _ mem => nomatch mem

theorem of_mem_lightDarkBlocks (rules : HoldsOfRules P Q)
    (has : ∀ b, ∀ d ∈ declared.get b, d.Has P) : ∀ block ∈ lightDarkBlocks declared, Q block := by
  have pairs := has_of_mem_lightDarkPairs rules.composes (has .dark) (has .light)
  unfold lightDarkBlocks
  split
  · exact fun _ mem => nomatch mem
  · rw [List.forall_mem_cons, List.forall_mem_cons, List.forall_mem_singleton]
    exact ⟨rules.note (by decide) (by decide), rules.note (by decide) (by decide),
      rules.pairs pairs⟩

/-- **Every block of the enhancements** of an emission has the property of the rules. -/
theorem of_mem_modernBlocks (rules : HoldsOfRules P Q) {e : Emission} (has : e.Has P)
    (oklch : Bool) : ∀ block ∈ modernBlocks oklch e, Q block := by
  have declared : ∀ b, ∀ d ∈ (ByBucket.of e.declarations).get b, d.Has P := by
    intro b
    rw [ByBucket.get_of]
    exact has.declarations b
  have notes : ∀ block ∈ ["", "/* Modern CSS — progressive enhancement */",
      "/* Browser support: Chrome 111+, Safari 16.4+, Firefox 113+ */"], Q block := by
    rw [List.forall_mem_cons, List.forall_mem_cons, List.forall_mem_singleton]
    exact ⟨rules.note (by decide) (by decide), rules.note (by decide) (by decide),
      rules.note (by decide) (by decide)⟩
  have states : ∀ block ∈ stateBlocks (ByBucket.of e.declarations), Q block :=
    rules.of_mem_derived declared plain_interactionVariants (by decide) (by decide) (by decide)
  have shades : ∀ block ∈ (if oklch then shadeBlocks (ByBucket.of e.declarations) else []),
      Q block := by
    split
    · exact rules.of_mem_derived declared plain_shadeVariants (by decide) (by decide) (by decide)
    · exact fun _ mem => nomatch mem
  unfold modernBlocks
  simp only [List.forall_mem_append]
  exact ⟨⟨⟨⟨notes, rules.of_mem_propertyBlocks declared⟩, states⟩,
    rules.of_mem_lightDarkBlocks declared⟩, shades⟩

end HoldsOfRules

end DesignTokens
