import DesignTokens.Proofs.Stylesheet.Texts
import DesignTokens.Proofs.Text.Braces

/-!
# The rules of a stylesheet nest

Every block of a stylesheet closes the braces that it opens: a rule opens one, stays below it with
whatever it holds, and closes it. So do the blocks that stand one below the other, whichever of
them there are, as long as the texts that they are made of close what they open.

* `WellNested` — a text closes the braces that it opens; `Nests` — it leads from one number of open
  braces to another.
* `wellNested_rule` — an opening line, well-nested lines and a closing line are well-nested.
* `Emission.css_wellNested` — a stylesheet is.
-/

namespace DesignTokens

/-- A text closes the braces that it opens, and no others. -/
def WellNested (text : String) : Prop :=
  Text.Balanced text.toList

instance (text : String) : Decidable (WellNested text) :=
  inferInstanceAs (Decidable (Text.Balanced _))

/-- A text leads from one number of open braces to another. -/
def Nests (before after : Nat) (text : String) : Prop :=
  Text.depthAfter? before text.toList = some after

instance (before after : Nat) (text : String) : Decidable (Nests before after text) :=
  inferInstanceAs (Decidable (_ = _))

variable {before between after : Nat} {text first second : String} {e : Emission}
  {declarations : List Declaration} {declared : ByBucket (List Declaration)}

theorem wellNested_iff : WellNested text ↔ Nests 0 0 text :=
  Text.balanced_iff

/-! ### Texts one after the other -/

theorem Nests.append (hfirst : Nests before between first) (hsecond : Nests between after second) :
    Nests before after (first ++ second) := by
  rw [Nests, String.toList_append, Text.depthAfter?_append, hfirst, Option.bind_some]
  exact hsecond

theorem WellNested.append (hfirst : WellNested first) (hsecond : WellNested second) :
    WellNested (first ++ second) :=
  wellNested_iff.2 ((wellNested_iff.1 hfirst).append (wellNested_iff.1 hsecond))

theorem wellNested_of_isPlain (plain : IsPlain text) : WellNested text :=
  wellNested_iff.2 (Text.depthAfter?_of_forall (fun c mem => (plain c mem).2) 0)

theorem composes_wellNested : Composes WellNested where
  plain := wellNested_of_isPlain
  append := WellNested.append

/-- A text that closes what it opens does so below any number of open braces. -/
theorem WellNested.nests (nested : WellNested text) (depth : Nat) : Nests depth depth text :=
  Text.depthAfter?_add depth (wellNested_iff.1 nested)

/-! ### Blocks one below the other -/

variable {blocks blocks' : List String}

theorem wellNested_stack (all : ∀ block ∈ blocks, WellNested block) : WellNested (stack blocks) := by
  have empty : WellNested "" := by decide
  have newline : WellNested "\n" := by decide
  exact intercalate_induction empty
    (fun hfirst hsecond => (hfirst.append newline).append hsecond) all

theorem toList_stack (blocks : List String) :
    (stack blocks).toList = Text.unlines (blocks.map String.toList) := by
  induction blocks with
  | nil => rfl
  | cons block more ih =>
    by_cases last : more = []
    · subst last
      simp [stack, Text.unlines, Text.join]
    · have below : stack (block :: more) = block ++ "\n" ++ stack more :=
        String.intercalate_cons_of_ne_nil last
      have rest : more.map String.toList ≠ [] := by simpa using last
      rw [below, List.map_cons, Text.unlines, Text.join_cons rest, ← Text.unlines, ← ih]
      simp

/-- Stacks one below the other are read one after the other. -/
theorem Nests.stack_append (hfirst : Nests before between (stack blocks))
    (hsecond : Nests between after (stack blocks')) :
    Nests before after (stack (blocks ++ blocks')) := by
  rw [Nests, toList_stack, Text.depthAfter?_unlines] at hfirst hsecond ⊢
  rw [List.map_append, List.foldlM_append, hfirst]
  exact hsecond

/-- **A rule** opens a brace, holds lines that close what they open, and closes the brace. -/
theorem wellNested_rule {opening closing : String} {lines : List String} (opens : Nests 0 1 opening)
    (inside : WellNested (stack lines)) (closes : Nests 1 0 closing) :
    WellNested (stack (opening :: lines ++ [closing])) := by
  have opened : Nests 0 1 (stack [opening]) := by rwa [stack, String.intercalate_singleton]
  have closed : Nests 1 0 (stack [closing]) := by rwa [stack, String.intercalate_singleton]
  exact wellNested_iff.2 ((opened.stack_append (inside.nests 1)).stack_append closed)

theorem wellNested_stack_flatMap {α : Type} {parts : List α} {lines : α → List String}
    (all : ∀ part ∈ parts, WellNested (stack (lines part))) :
    WellNested (stack (parts.flatMap lines)) := by
  induction parts with
  | nil => exact (by decide : WellNested (stack []))
  | cons part more ih =>
    rw [List.forall_mem_cons] at all
    exact wellNested_iff.2
      ((wellNested_iff.1 all.1).stack_append (wellNested_iff.1 (ih all.2)))

theorem wellNested_lines (has : ∀ d ∈ declarations, d.Has WellNested) (indent : Nat) :
    ∀ line ∈ declarations.map (Declaration.line indent), WellNested line :=
  List.forall_mem_map.2 fun d hd => (has d hd).line composes_wellNested indent

/-! ### The rules of the buckets -/

theorem wellNested_bucketBody (nested : e.Has WellNested) (b : Bucket) :
    WellNested (bucketBody e b) := by
  refine wellNested_stack (List.forall_mem_flatMap.2 fun s hs => ?_)
  have label : WellNested ("\n  /* " ++ s.label ++ " */") :=
    (WellNested.append (by decide) (nested.labels s hs)).append (by decide)
  unfold sectionLines
  split
  · exact fun _ mem => nomatch mem
  · rw [List.forall_mem_cons]
    exact ⟨label, wellNested_lines (fun d => nested.of_mem_section hs) 2⟩

theorem wellNested_themeRule (nested : e.Has WellNested) (b : Bucket) :
    WellNested (themeRule e b) := by
  have opens : Nests 0 1 (themeSelector b ++ " \x7b") := by cases b <;> decide
  have closes : Nests 1 0 "\n\x7d\n" := by decide
  exact wellNested_iff.2 ((opens.append ((wellNested_bucketBody nested b).nests 1)).append closes)

theorem wellNested_preferenceRule (nested : e.Has WellNested) (m : Mode) :
    WellNested (preferenceRule e m) := by
  have opens : Nests 0 2 ("@media (prefers-color-scheme: " ++ m.text ++ ") \x7b\n  " ++
      noThemeSelector ++ " \x7b") := by cases m <;> decide
  -- the body is read below two open braces, and moving it there does not change its braces
  have body : Nests 2 2 (nestedBody e (.ofMode m)) := by
    rw [Nests, nestedBody, String.toList_ofList, Text.depthAfter?_indent]
    exact (wellNested_bucketBody nested (.ofMode m)).nests 2
  have closes : Nests 2 0 "\n  \x7d\n\x7d" := by decide
  exact wellNested_iff.2 ((opens.append body).append closes)

theorem wellNested_themeBlocks (nested : e.Has WellNested) :
    ∀ block ∈ themeBlocks e, WellNested block := by
  have rules : ∀ block ∈ Bucket.all.map (themeRule e), WellNested block :=
    List.forall_mem_map.2 fun b _ => wellNested_themeRule nested b
  rw [themeBlocks, List.forall_mem_append, List.forall_mem_cons, List.forall_mem_cons,
    List.forall_mem_singleton]
  exact ⟨rules, by decide, (wellNested_preferenceRule nested .dark).append (by decide),
    wellNested_preferenceRule nested .light⟩

/-! ### Rules behind a condition -/

theorem wellNested_innerRule (has : ∀ d ∈ declarations, d.Has WellNested) {b : Bucket}
    {closing : String} (closes : Nests 1 0 closing) :
    WellNested (stack (innerRule b closing declarations)) := by
  unfold innerRule
  split
  · decide
  · have opens : Nests 0 1 ("  " ++ themeSelector b ++ " \x7b") := by cases b <;> decide
    exact wellNested_rule opens (wellNested_stack (wellNested_lines has 4)) closes

theorem wellNested_conditionalBlock {condition : String} (plain : IsPlain condition)
    (has : ∀ b, ∀ d ∈ declared.get b, d.Has WellNested) :
    WellNested (conditionalBlock condition declared) := by
  have front : Nests 0 0 "@supports (" := by decide
  have opens : Nests 0 1 ("@supports (" ++ condition ++ ") \x7b") :=
    (front.append ((wellNested_of_isPlain plain).nests 0)).append (by decide)
  refine wellNested_rule opens (wellNested_stack_flatMap fun b _ => ?_) (by decide)
  have closes : Nests 1 0 (if b = .light then "  \x7d" else "  \x7d\n") := by cases b <;> decide
  exact wellNested_innerRule (has b) closes

/-! ### Converted colours -/

theorem wellNested_oklchPreferenceLines (has : ∀ d ∈ e.derivations, d.Has WellNested) (m : Mode) :
    WellNested (stack (oklchPreferenceLines e.derivations m)) := by
  have hasOverrides := has_of_mem_overridesIn composes_wellNested has (.ofMode m)
  unfold oklchPreferenceLines
  split
  · decide
  · have media : Nests 0 1 ("  @media (prefers-color-scheme: " ++ m.text ++ ") \x7b") := by
      cases m <;> decide
    have pages : Nests 0 1 ("    " ++ noThemeSelector ++ " \x7b") := by decide
    have closes : Nests 1 0 (if m = .light then "  \x7d" else "  \x7d\n") := by
      cases m <;> decide
    -- one rule inside of another
    have inside := wellNested_rule pages (wellNested_stack (wellNested_lines hasOverrides 6))
      (by decide : Nests 1 0 "    \x7d")
    have whole := wellNested_rule media inside closes
    simpa using whole

theorem wellNested_oklchBlocks (has : ∀ d ∈ e.derivations, d.Has WellNested) :
    ∀ block ∈ oklchBlocks e.derivations, WellNested block := by
  unfold oklchBlocks
  split
  · exact fun _ mem => nomatch mem
  · have themes : WellNested (stack (Bucket.all.flatMap (oklchThemeLines e.derivations))) :=
      wellNested_stack_flatMap fun b _ => wellNested_innerRule
        (has_of_mem_overridesIn composes_wellNested has b) (by decide)
    have preferences : WellNested (stack (Mode.all.flatMap (oklchPreferenceLines e.derivations))) :=
      wellNested_stack_flatMap fun m _ => wellNested_oklchPreferenceLines has m
    have inside := (wellNested_iff.1 themes).stack_append (wellNested_iff.1 preferences)
    rw [List.forall_mem_cons, List.forall_mem_cons, List.forall_mem_cons, List.forall_mem_singleton]
    exact ⟨by decide, by decide, by decide,
      wellNested_rule (by decide) (wellNested_iff.2 inside) (by decide)⟩

/-! ### Enhancements -/

theorem wellNested_propertyRule {name syntaxText value : String} (hname : WellNested name)
    (htype : IsPlain syntaxText) (hvalue : WellNested value) :
    WellNested (propertyRule name syntaxText value) := by
  have front : Nests 0 0 "@property --" := by decide
  have opens : Nests 0 1 ("@property --" ++ name ++ " \x7b") :=
    (front.append (hname.nests 0)).append (by decide)
  have typeLine : WellNested ("  syntax: '" ++ syntaxText ++ "';") :=
    (WellNested.append (by decide) (wellNested_of_isPlain htype)).append (by decide)
  have valueLine : WellNested ("  initial-value: " ++ value ++ ";") :=
    (WellNested.append (by decide) hvalue).append (by decide)
  have inside : WellNested (stack ["  syntax: '" ++ syntaxText ++ "';", "  inherits: true;",
      "  initial-value: " ++ value ++ ";"]) := by
    refine wellNested_stack ?_
    rw [List.forall_mem_cons, List.forall_mem_cons, List.forall_mem_singleton]
    exact ⟨typeLine, by decide, valueLine⟩
  have whole := wellNested_rule opens inside (by decide : Nests 1 0 "\x7d")
  rw [propertyRule_eq_stack]
  exact whole

theorem wellNested_lightDarkBlock {pairs : List Declaration}
    (has : ∀ d ∈ pairs, d.Has WellNested) : WellNested (lightDarkBlock pairs) := by
  have scheme : WellNested "    color-scheme: light dark;" := by decide
  have lines := List.forall_mem_cons.2 ⟨scheme, wellNested_lines has 4⟩
  have root : Nests 0 1 "  :root \x7b" := by decide
  have inside := wellNested_rule root (wellNested_stack lines) (by decide : Nests 1 0 "  \x7d")
  have opens : Nests 0 1 "@supports (color: light-dark(red, blue)) \x7b" := by decide
  have whole := wellNested_rule opens inside (by decide : Nests 1 0 "\x7d")
  simpa [lightDarkBlock] using whole

/-- **Every enhancement closes** the braces that it opens. -/
theorem holdsOfRules_wellNested : HoldsOfRules WellNested WellNested where
  composes := composes_wellNested
  note plain _ := wellNested_of_isPlain plain
  gap hfirst hsecond := (hfirst.append (by decide)).append hsecond
  property := wellNested_propertyRule
  conditional := wellNested_conditionalBlock
  pairs := wellNested_lightDarkBlock

/-! ### The whole -/

theorem wellNested_blocks (nested : e.Has WellNested) (oklch modernCss : Bool) :
    ∀ block ∈ e.blocks oklch modernCss, WellNested block := by
  have header : ∀ block ∈ headerBlocks, WellNested block := by decide
  have colours : ∀ block ∈ (if oklch then oklchBlocks e.derivations else []),
      WellNested block := by
    split
    · exact wellNested_oklchBlocks nested.derivations
    · exact fun _ mem => nomatch mem
  have enhancements : ∀ block ∈ (if modernCss then modernBlocks oklch e else []),
      WellNested block := by
    split
    · exact holdsOfRules_wellNested.of_mem_modernBlocks nested oklch
    · exact fun _ mem => nomatch mem
  rw [Emission.blocks, List.forall_mem_append, List.forall_mem_append, List.forall_mem_append]
  exact ⟨⟨⟨header, wellNested_themeBlocks nested⟩, colours⟩, enhancements⟩

/-- **A stylesheet is a well-nested sequence of rules.** If all texts of an emission close the
braces that they open, so does its stylesheet, whatever is asked for and whichever buckets are
empty: on the way it never closes more braces than it has opened, and in the end it has closed all
of them. -/
theorem Emission.css_wellNested (nested : e.Has WellNested) (oklch modernCss : Bool) :
    WellNested (e.css oklch modernCss) :=
  (wellNested_stack (wellNested_blocks nested oklch modernCss)).append (by decide)

/-- An alias that is left in a value opens a brace and closes it, so a stylesheet is well-nested
around it, with everything that can be asked for and with an empty light theme. -/
theorem left_alias_keeps_nesting :
    let accent : Declaration :=
      { name := "color-accent-a", value := "\x7bbase.accent\x7d", unparseable := true }
    let e : Emission :=
      { sections :=
          [{ label := "Colors",
             declarations :=
               { root := [{ name := "color-text", value := "#000" }], dark := [accent],
                 light := [] } }]
        derivations :=
          [{ name := "color-text", source := "#000", converted := "oklch(0 0 0)",
             bucket := .root }] }
    ¬IsPlain accent.value ∧ e.Has WellNested ∧ WellNested (e.css true true) := by
  intro accent e
  have nested : e.Has WellNested := by decide
  exact ⟨by decide, nested, Emission.css_wellNested nested true true⟩

end DesignTokens
