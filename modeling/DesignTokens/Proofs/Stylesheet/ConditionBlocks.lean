import DesignTokens.Proofs.Stylesheet.Lines

/-!
# Blocks behind a condition

The states of colours stand in blocks behind conditions of their own: one for the colours that are
mixed, and one for those that are adjusted. In a stylesheet these blocks can be found by how they
open. Nothing else opens like that, and where all texts are of one line, nothing else has a line
like that.

* `filter_opensBlock_mixes`, `filter_opensBlock_adjusts` — what is found by the two conditions among
  the blocks of a stylesheet.
* `opensBlock_of_mem_linesOf` — only a block behind a condition has the line of the condition.
* `ruleBody?_of_filter_eq_singleton`, `ruleBody?_of_filter_eq_nil` — so a block is found among the
  lines of the text if it is found among the blocks.
-/

namespace DesignTokens

variable {variants : List Variant} {declarations : List Declaration} {condition : String}

/-! ### The two conditions -/

/-- The line that opens a block behind a condition. -/
def conditionOpening (condition : String) : String :=
  "@supports (" ++ condition ++ ") \x7b"

/-- Whether a block is one behind a condition. -/
def opensBlock (condition block : String) : Bool :=
  startsWith (conditionOpening condition) block

/-- The condition of the interaction states. -/
def mixesColours : String :=
  "color: color-mix(in oklch, red, blue)"

/-- The condition of the shades. -/
def adjustsColours : String :=
  "color: oklch(from red l c h)"

/-- One of the two conditions. -/
def OfStates (condition : String) : Prop :=
  condition = mixesColours ∨ condition = adjustsColours

/-- A block behind neither of the two conditions. -/
def OpensNeither (block : String) : Prop :=
  opensBlock mixesColours block = false ∧ opensBlock adjustsColours block = false

instance (block : String) : Decidable (OpensNeither block) :=
  inferInstanceAs (Decidable (_ ∧ _))

/-- Neither of two texts is the beginning of the other. -/
def Diverge (text text' : String) : Prop :=
  ¬text.toList <+: text'.toList ∧ ¬text'.toList <+: text.toList

instance (text text' : String) : Decidable (Diverge text text') :=
  inferInstanceAs (Decidable (_ ∧ _))

theorem startsWith_append_of_diverge {front text : String} (diverge : Diverge front text)
    (rest : String) : startsWith front (text ++ rest) = false := by
  rw [startsWith, Bool.eq_false_iff, Ne, List.isPrefixOf_iff_prefix, String.toList_append]
  -- of two beginnings of one text, one is a beginning of the other
  intro begins
  exact (List.prefix_or_prefix_of_prefix begins (List.prefix_append _ _)).elim diverge.1 diverge.2

/-- A text that a block of neither condition may begin with. -/
def DivergesFromBoth (text : String) : Prop :=
  Diverge (conditionOpening mixesColours) text ∧ Diverge (conditionOpening adjustsColours) text

instance (text : String) : Decidable (DivergesFromBoth text) :=
  inferInstanceAs (Decidable (_ ∧ _))

/-- A block that begins otherwise is behind neither condition, whatever it goes on with. -/
theorem opensNeither_append {text : String} (diverge : DivergesFromBoth text) (rest : String) :
    OpensNeither (text ++ rest) :=
  ⟨startsWith_append_of_diverge diverge.1 rest, startsWith_append_of_diverge diverge.2 rest⟩

/-- Texts with a separator between them begin with the first one. -/
theorem exists_intercalate_cons (separator text : String) (more : List String) :
    ∃ rest, separator.intercalate (text :: more) = text ++ rest := by
  by_cases last : more = []
  · exact ⟨"", by simp [last]⟩
  · exact ⟨separator ++ separator.intercalate more, by
      rw [String.intercalate_cons_of_ne_nil last, String.append_assoc]⟩

/-- A block that is stacked from a line that begins otherwise is behind neither condition. -/
theorem opensNeither_stack {line : String} (diverge : DivergesFromBoth line)
    (more : List String) : OpensNeither (stack (line :: more)) := by
  obtain ⟨rest, begins⟩ := exists_intercalate_cons "\n" line more
  rw [stack, begins]
  exact opensNeither_append diverge rest

theorem opensNeither_themeBlocks (e : Emission) : ∀ block ∈ themeBlocks e, OpensNeither block := by
  have themes : ∀ block ∈ Bucket.all.map (themeRule e), OpensNeither block := by
    rw [List.forall_mem_map]
    intro b _
    rw [themeRule, String.append_assoc, String.append_assoc]
    exact opensNeither_append (by cases b <;> decide) _
  have preference : ∀ m, ∀ more, OpensNeither (preferenceRule e m ++ more) := by
    intro m more
    unfold preferenceRule
    simp only [String.append_assoc]
    exact opensNeither_append (by decide) _
  rw [themeBlocks, List.forall_mem_append, List.forall_mem_cons, List.forall_mem_cons,
    List.forall_mem_singleton]
  refine ⟨themes, by decide, preference .dark _, ?_⟩
  -- the last rule stands alone, where the others go on after theirs
  rw [← String.append_empty (s := preferenceRule e .light)]
  exact preference .light _

theorem opensNeither_oklchBlocks (derivations : List Derivation) :
    ∀ block ∈ oklchBlocks derivations, OpensNeither block := by
  unfold oklchBlocks
  split
  · exact fun _ mem => nomatch mem
  · rw [List.forall_mem_cons, List.forall_mem_cons, List.forall_mem_cons,
      List.forall_mem_singleton]
    refine ⟨by decide, by decide, by decide, ?_⟩
    exact opensNeither_stack (by decide) _

theorem opensNeither_propertyBlocks (declared : ByBucket (List Declaration)) :
    ∀ block ∈ propertyBlocks declared, OpensNeither block := by
  -- the block begins as its first rule does, whatever the rules are joined by
  have begins : ∀ rule ∈ propertyRules declared.root declared.dark, ∃ rest,
      rule = "@property --" ++ rest := by
    intro rule mem
    obtain ⟨name, -, registered⟩ := List.mem_filterMap.1 mem
    split at registered
    · rw [← Option.some.inj registered, propertyRule_eq_stack]
      obtain ⟨rest, first⟩ := exists_intercalate_cons "\n" ("@property --" ++ name ++ " \x7b") _
      rw [stack, first, String.append_assoc, String.append_assoc]
      exact ⟨_, rfl⟩
    · cases registered
  unfold propertyBlocks
  cases rules : propertyRules declared.root declared.dark with
  | nil => exact fun _ mem => absurd mem List.not_mem_nil
  | cons rule more =>
    obtain ⟨first, rfl⟩ := begins rule (rules ▸ List.mem_cons_self)
    obtain ⟨rest, joined⟩ := exists_intercalate_cons "\n\n" ("@property --" ++ first) more
    have block : OpensNeither ("\n\n".intercalate (("@property --" ++ first) :: more)) := by
      rw [joined, String.append_assoc]
      exact opensNeither_append (by decide) _
    rw [List.forall_mem_cons, List.forall_mem_cons, List.forall_mem_singleton]
    exact ⟨by decide, by decide, block⟩

theorem opensNeither_lightDarkBlocks (declared : ByBucket (List Declaration)) :
    ∀ block ∈ lightDarkBlocks declared, OpensNeither block := by
  unfold lightDarkBlocks
  split
  · exact fun _ mem => nomatch mem
  · rw [List.forall_mem_cons, List.forall_mem_cons, List.forall_mem_singleton]
    exact ⟨by decide, by decide, opensNeither_stack (by decide) _⟩

/-- The states of all buckets. -/
def Emission.derived (e : Emission) (variants : List Variant) : ByBucket (List Declaration) :=
  (ByBucket.of e.declarations).map (derive variants)

theorem Emission.get_derived (e : Emission) (variants : List Variant) (b : Bucket) :
    (e.derived variants).get b = derive variants (e.declarations b) := by
  rw [derived, ByBucket.get_map, ByBucket.get_of]

/-- What derives states from the declarations of an emission: the blocks of the states, and with
converted colours those of the shades. -/
def Emission.derivedBlocks (oklch : Bool) (e : Emission) : List String :=
  stateBlocks (.of e.declarations) ++ if oklch then shadeBlocks (.of e.declarations) else []

/-- **No other block** of a stylesheet is behind one of the two conditions. -/
theorem filter_opensBlock_blocks (oklch : Bool) (e : Emission) (of : OfStates condition) :
    (e.blocks oklch true).filter (opensBlock condition) =
      (e.derivedBlocks oklch).filter (opensBlock condition) := by
  have neither : ∀ {blocks : List String}, (∀ block ∈ blocks, OpensNeither block) →
      blocks.filter (opensBlock condition) = [] := by
    intro blocks all
    rw [List.filter_eq_nil_iff]
    intro block mem opens
    obtain rfl | rfl := of
    · exact Bool.false_ne_true ((all block mem).1.symm.trans opens)
    · exact Bool.false_ne_true ((all block mem).2.symm.trans opens)
  have header : headerBlocks.filter (opensBlock condition) = [] := neither (by decide)
  have themes := neither (opensNeither_themeBlocks e)
  have converted : (if oklch then oklchBlocks e.derivations else []).filter
      (opensBlock condition) = [] := by
    cases oklch with
    | false => rfl
    | true => exact neither (opensNeither_oklchBlocks e.derivations)
  have notes : ["", "/* Modern CSS — progressive enhancement */",
      "/* Browser support: Chrome 111+, Safari 16.4+, Firefox 113+ */"].filter
      (opensBlock condition) = [] := neither (by decide)
  have properties := neither (opensNeither_propertyBlocks (.of e.declarations))
  have pairs := neither (opensNeither_lightDarkBlocks (.of e.declarations))
  simp only [Emission.blocks, modernBlocks, Emission.derivedBlocks, List.filter_append, header,
    themes, converted, notes, properties, pairs, if_true, List.nil_append, List.append_nil]


/-! ### The blocks of the states -/

/-- The line of a condition opens a block behind it. -/
theorem opensBlock_append (condition rest : String) :
    opensBlock condition (conditionOpening condition ++ rest) := by
  rw [opensBlock, startsWith, List.isPrefixOf_iff_prefix, String.toList_append]
  exact List.prefix_append _ _

theorem exists_conditionalBlock_eq (condition : String) (declared : ByBucket (List Declaration)) :
    ∃ rest, conditionalBlock condition declared = conditionOpening condition ++ rest :=
  exists_intercalate_cons "\n" (conditionOpening condition) _

section Filters

variable {declared : ByBucket (List Declaration)} {comment : String}
  (hcomment : opensBlock condition comment = false)

include hcomment

/-- A block behind a condition is found by its condition. -/
theorem filter_opensBlock_own :
    (if anyDeclared declared then ["", comment, conditionalBlock condition declared]
      else []).filter (opensBlock condition) =
    if anyDeclared declared then [conditionalBlock condition declared] else [] := by
  obtain ⟨rest, begins⟩ := exists_conditionalBlock_eq condition declared
  have opens : opensBlock condition (conditionalBlock condition declared) :=
    begins ▸ opensBlock_append condition rest
  have empty : opensBlock condition "" = false := by
    simp [opensBlock, startsWith, conditionOpening]
  split
  · simp [empty, hcomment, opens]
  · rfl

/-- It is not found by another condition. -/
theorem filter_opensBlock_other {condition' : String}
    (diverge : Diverge (conditionOpening condition) (conditionOpening condition')) :
    (if anyDeclared declared then ["", comment, conditionalBlock condition' declared]
      else []).filter (opensBlock condition) = [] := by
  obtain ⟨rest, begins⟩ := exists_conditionalBlock_eq condition' declared
  have other : opensBlock condition (conditionalBlock condition' declared) = false := by
    rw [begins]
    exact startsWith_append_of_diverge diverge rest
  have empty : opensBlock condition "" = false := by
    simp [opensBlock, startsWith, conditionOpening]
  split
  · simp [empty, hcomment, other]
  · rfl

end Filters

/-- The blocks of the interaction states, if there are any. -/
theorem stateBlocks_eq (e : Emission) : stateBlocks (.of e.declarations) =
    if anyDeclared (e.derived interactionVariants) then
      ["", "/* color-mix() — runtime hover/active derived states */",
        conditionalBlock mixesColours (e.derived interactionVariants)] else [] :=
  rfl

/-- The blocks of the shades, if there are any. -/
theorem shadeBlocks_eq (e : Emission) : shadeBlocks (.of e.declarations) =
    if anyDeclared (e.derived shadeVariants) then
      ["", "/* Relative color syntax — OKLCH shade generation */",
        conditionalBlock adjustsColours (e.derived shadeVariants)] else [] :=
  rfl

/-- **Mixed colours.** Of all blocks of a stylesheet, the one of the interaction states is found by
their condition, if there are any. -/
theorem filter_opensBlock_mixes (oklch : Bool) (e : Emission) :
    (e.blocks oklch true).filter (opensBlock mixesColours) =
      if anyDeclared (e.derived interactionVariants) then
        [conditionalBlock mixesColours (e.derived interactionVariants)] else [] := by
  have shades : (if oklch then shadeBlocks (.of e.declarations) else []).filter
      (opensBlock mixesColours) = [] := by
    cases oklch with
    | false => rfl
    | true => exact filter_opensBlock_other (by decide) (by decide)
  rw [filter_opensBlock_blocks oklch e (.inl rfl), Emission.derivedBlocks, List.filter_append,
    shades, stateBlocks_eq, filter_opensBlock_own (by decide), List.append_nil]

/-- **Adjusted colours.** Of all blocks of a stylesheet, the one of the shades is found by their
condition, if there are any and colours are converted. -/
theorem filter_opensBlock_adjusts (oklch : Bool) (e : Emission) :
    (e.blocks oklch true).filter (opensBlock adjustsColours) =
      if oklch ∧ anyDeclared (e.derived shadeVariants) then
        [conditionalBlock adjustsColours (e.derived shadeVariants)] else [] := by
  rw [filter_opensBlock_blocks oklch e (.inr rfl), Emission.derivedBlocks, List.filter_append,
    stateBlocks_eq, filter_opensBlock_other (by decide) (by decide), List.nil_append]
  cases oklch with
  | false => rfl
  | true => rw [if_pos rfl, shadeBlocks_eq, filter_opensBlock_own (by decide)]; simp

/-! ### The lines of the states -/

variable {e : Emission} {opening : String}

/-- A text whose lines are empty or stand two columns to the right. -/
def InnerText (text : String) : Prop :=
  ∀ line ∈ linesOf text, isInner line

instance (text : String) : Decidable (InnerText text) :=
  inferInstanceAs (Decidable (∀ line ∈ linesOf text, isInner line))

theorem innerText_line {d : Declaration} (single : d.Has SingleLine) (indent : Nat) :
    InnerText (d.line (indent + 2)) := by
  intro line mem
  rw [linesOf_of_singleLine (single.line composes_singleLine _), List.mem_singleton] at mem
  rw [mem, toList_line]
  rfl

/-- The lines of a rule at the beginning of the lines of the text. -/
theorem linesOf_rule (single : SingleLine opening) (lines : List String) :
    linesOf (stack (opening :: lines ++ ["\x7d"])) =
      opening.toList :: (lines.flatMap linesOf ++ ["\x7d".toList]) := by
  rw [linesOf_stack (by simp), List.flatMap_append, List.flatMap_cons,
    linesOf_of_singleLine single]
  rfl

/-- The line that opens a block behind one of the two conditions opens nothing else. -/
theorem opening_ne (of : OfStates condition) {text : String}
    (neither : OpensNeither text) : (conditionOpening condition).toList ≠ text.toList := by
  intro same
  have opens := opensBlock_append condition ""
  rw [String.append_empty, String.toList_inj.1 same] at opens
  obtain rfl | rfl := of
  · exact Bool.false_ne_true (neither.1.symm.trans opens)
  · exact Bool.false_ne_true (neither.2.symm.trans opens)

theorem opening_outer (of : OfStates condition) :
    ¬isInner (conditionOpening condition).toList ∧
      (conditionOpening condition).toList ≠ "\x7d".toList := by
  obtain rfl | rfl := of <;> decide

/-- A text of one line that opens otherwise does not have that line. -/
theorem not_mem_linesOf_single (of : OfStates condition)
    {text : String} (single : SingleLine text) (neither : OpensNeither text) :
    (conditionOpening condition).toList ∉ linesOf text := by
  rw [linesOf_of_singleLine single, List.mem_singleton]
  exact opening_ne of neither

/-- A rule that opens otherwise does not have that line. -/
theorem not_mem_linesOf_rule (of : OfStates condition)
    (single : SingleLine opening) (neither : OpensNeither opening) {lines : List String}
    (inner : ∀ line ∈ lines, InnerText line) :
    (conditionOpening condition).toList ∉ linesOf (stack (opening :: lines ++ ["\x7d"])) := by
  obtain ⟨outer, closes⟩ := opening_outer of
  rw [linesOf_rule single, List.mem_cons, List.mem_append, List.mem_singleton, List.mem_flatMap]
  rintro (opens | ⟨text, mem, among⟩ | closing)
  · exact opening_ne of neither opens
  · exact outer (inner text mem _ among)
  · exact closes closing

/-- The rule of a bucket behind a condition stands to the right. -/
theorem innerText_innerRule (has : ∀ d ∈ declarations, d.Has SingleLine) {b : Bucket}
    {closing : String} (inner : InnerText closing) :
    ∀ line ∈ innerRule b closing declarations, InnerText line := by
  unfold innerRule
  split
  · exact fun _ mem => nomatch mem
  · have opening : InnerText ("  " ++ themeSelector b ++ " \x7b") := by cases b <;> decide
    have lines : ∀ line ∈ declarations.map (Declaration.line 4), InnerText line :=
      List.forall_mem_map.2 fun d hd => innerText_line (has d hd) 2
    rw [List.cons_append, List.forall_mem_cons, List.forall_mem_append, List.forall_mem_singleton]
    exact ⟨opening, lines, inner⟩

theorem innerText_conditionalLines {declared : ByBucket (List Declaration)}
    (has : ∀ b, ∀ d ∈ declared.get b, d.Has SingleLine) :
    ∀ line ∈ Bucket.all.flatMap (conditionalLines declared), InnerText line := by
  rw [List.forall_mem_flatMap]
  intro b _
  have closing : InnerText (if b = .light then "  \x7d" else "  \x7d\n") := by
    cases b <;> decide
  exact innerText_innerRule (has b) closing

theorem innerText_oklchPreferenceLines (has : ∀ d ∈ e.derivations, d.Has SingleLine) (m : Mode) :
    ∀ line ∈ oklchPreferenceLines e.derivations m, InnerText line := by
  have hasOverrides := has_of_mem_overridesIn composes_singleLine has (.ofMode m)
  unfold oklchPreferenceLines
  split
  · exact fun _ mem => nomatch mem
  · have media : InnerText ("  @media (prefers-color-scheme: " ++ m.text ++ ") \x7b") := by
      cases m <;> decide
    have lines : ∀ line ∈ (overridesIn e.derivations (.ofMode m)).map (Declaration.line 6),
        InnerText line :=
      List.forall_mem_map.2 fun d hd => innerText_line (hasOverrides d hd) 4
    have last : InnerText (if m = .light then "  \x7d" else "  \x7d\n") := by
      cases m <;> decide
    rw [List.forall_mem_append, List.forall_mem_append, List.forall_mem_cons,
      List.forall_mem_singleton, List.forall_mem_cons, List.forall_mem_singleton]
    exact ⟨⟨⟨media, by decide⟩, lines⟩, by decide, last⟩

theorem has_of_mem_derived (single : e.Has SingleLine) (plain : ∀ v ∈ variants, v.Plain) :
    ∀ b, ∀ d ∈ (e.derived variants).get b, d.Has SingleLine := by
  intro b
  rw [e.get_derived]
  exact has_of_mem_derive composes_singleLine plain (single.declarations b)

/-! ### No other line is that of a condition -/

section Lines

variable (of : OfStates condition)

include of

theorem not_mem_linesOf_themeBlocks (single : e.Has SingleLine) :
    ∀ block ∈ themeBlocks e, (conditionOpening condition).toList ∉ linesOf block := by
  obtain ⟨outer, closes⟩ := opening_outer of
  have themes : ∀ block ∈ Bucket.all.map (themeRule e),
      (conditionOpening condition).toList ∉ linesOf block := by
    rw [List.forall_mem_map]
    intro b _
    have opens := opening_ne of (by cases b <;> decide : OpensNeither (ruleOpening b))
    exact not_mem_linesOf_themeRule single outer opens closes
  have preference : ∀ m, (conditionOpening condition).toList ∉ linesOf (preferenceRule e m) := by
    intro m
    have opens := opening_ne of (by cases m <;> decide : OpensNeither (preferenceOpening m))
    exact not_mem_linesOf_preferenceRule outer opens closes
  have comment := not_mem_linesOf_single of
    (by decide : SingleLine "/* OS preference fallback (when no .dark/.light class is set) */")
    (by decide)
  have empty : (conditionOpening condition).toList ∉ [[]] := by simp [conditionOpening]
  rw [themeBlocks, List.forall_mem_append, List.forall_mem_cons, List.forall_mem_cons,
    List.forall_mem_singleton, linesOf_newline]
  exact ⟨themes, comment, List.not_mem_append (preference .dark) empty, preference .light⟩

theorem not_mem_linesOf_oklchBlocks (has : ∀ d ∈ e.derivations, d.Has SingleLine) :
    ∀ block ∈ oklchBlocks e.derivations, (conditionOpening condition).toList ∉ linesOf block := by
  unfold oklchBlocks
  split
  · exact fun _ mem => nomatch mem
  · have themes : ∀ line ∈ Bucket.all.flatMap (oklchThemeLines e.derivations), InnerText line := by
      rw [List.forall_mem_flatMap]
      exact fun b _ => innerText_innerRule (has_of_mem_overridesIn composes_singleLine has b)
        (by decide)
    have preferences : ∀ line ∈ Mode.all.flatMap (oklchPreferenceLines e.derivations),
        InnerText line := by
      rw [List.forall_mem_flatMap]
      exact fun m _ => innerText_oklchPreferenceLines has m
    rw [List.forall_mem_cons, List.forall_mem_cons, List.forall_mem_cons,
      List.forall_mem_singleton]
    exact ⟨not_mem_linesOf_single of (by decide) (by decide),
      not_mem_linesOf_single of (by decide) (by decide),
      not_mem_linesOf_single of (by decide) (by decide),
      not_mem_linesOf_rule of (by decide) (by decide)
        (List.forall_mem_append.2 ⟨themes, preferences⟩)⟩

theorem not_mem_linesOf_propertyRule {name syntaxText value : String} (hname : SingleLine name)
    (htype : SingleLine syntaxText) (hvalue : SingleLine value) :
    (conditionOpening condition).toList ∉ linesOf (propertyRule name syntaxText value) := by
  have around : ∀ {before text after}, SingleLine before → SingleLine text → SingleLine after →
      SingleLine (before ++ text ++ after) := fun hbefore htext hafter =>
    composes_singleLine.append (composes_singleLine.append hbefore htext) hafter
  have typeLine : InnerText ("  syntax: '" ++ syntaxText ++ "';") := by
    intro line mem
    rw [linesOf_of_singleLine (around (by decide) htype (by decide)), List.mem_singleton] at mem
    rw [mem, String.toList_append, String.toList_append]
    rfl
  have valueLine : InnerText ("  initial-value: " ++ value ++ ";") := by
    intro line mem
    rw [linesOf_of_singleLine (around (by decide) hvalue (by decide)), List.mem_singleton] at mem
    rw [mem, String.toList_append, String.toList_append]
    rfl
  have opens : OpensNeither ("@property --" ++ name ++ " \x7b") := by
    rw [String.append_assoc]
    exact opensNeither_append (by decide) _
  have inner : ∀ line ∈ ["  syntax: '" ++ syntaxText ++ "';", "  inherits: true;",
      "  initial-value: " ++ value ++ ";"], InnerText line := by
    rw [List.forall_mem_cons, List.forall_mem_cons, List.forall_mem_singleton]
    exact ⟨typeLine, by decide, valueLine⟩
  have rule := not_mem_linesOf_rule of (around (by decide) hname (by decide)) opens inner
  rw [propertyRule_eq_stack]
  exact rule

variable {declared : ByBucket (List Declaration)}

theorem not_mem_linesOf_propertyBlocks (has : ∀ b, ∀ d ∈ declared.get b, d.Has SingleLine) :
    ∀ block ∈ propertyBlocks declared, (conditionOpening condition).toList ∉ linesOf block := by
  have rules : ∀ rule ∈ propertyRules declared.root declared.dark,
      (conditionOpening condition).toList ∉ linesOf rule := by
    intro rule mem
    obtain ⟨name, syntaxText, value, rfl, hname, htype, hvalue⟩ := exists_of_mem_propertyRules
      (List.forall_mem_append.2 ⟨has .root, has .dark⟩) mem
    exact not_mem_linesOf_propertyRule of hname (composes_singleLine.plain htype) hvalue
  have empty : (conditionOpening condition).toList ∉ linesOf "" :=
    not_mem_linesOf_single of (by decide) (by decide)
  unfold propertyBlocks
  split
  · exact fun _ mem => nomatch mem
  · rw [List.forall_mem_cons, List.forall_mem_cons, List.forall_mem_singleton]
    refine ⟨empty, not_mem_linesOf_single of (by decide) (by decide), ?_⟩
    refine intercalate_induction empty (fun {first second} hfirst hsecond => ?_) rules
    have gap : first ++ "\n\n" ++ second = first ++ "\n" ++ "" ++ "\n" ++ second := by
      refine String.toList_inj.1 ?_
      simp
    rw [gap, linesOf_append_newline, linesOf_append_newline]
    exact List.not_mem_append (List.not_mem_append hfirst empty) hsecond

theorem not_mem_linesOf_lightDarkBlocks (has : ∀ b, ∀ d ∈ declared.get b, d.Has SingleLine) :
    ∀ block ∈ lightDarkBlocks declared, (conditionOpening condition).toList ∉ linesOf block := by
  have pairs := has_of_mem_lightDarkPairs composes_singleLine (has .dark) (has .light)
  unfold lightDarkBlocks
  split
  · exact fun _ mem => nomatch mem
  · have lines : ∀ line ∈ (lightDarkPairs declared.dark declared.light).map (Declaration.line 4),
        InnerText line :=
      List.forall_mem_map.2 fun d hd => innerText_line (pairs d hd) 2
    have inner : ∀ line ∈ "  :root \x7b" :: "    color-scheme: light dark;" ::
        ((lightDarkPairs declared.dark declared.light).map (Declaration.line 4) ++ ["  \x7d"]),
        InnerText line := by
      rw [List.forall_mem_cons, List.forall_mem_cons, List.forall_mem_append,
        List.forall_mem_singleton]
      exact ⟨by decide, by decide, lines, by decide⟩
    have rule := not_mem_linesOf_rule of
      (by decide : SingleLine "@supports (color: light-dark(red, blue)) \x7b") (by decide) inner
    rw [List.forall_mem_cons, List.forall_mem_cons, List.forall_mem_singleton]
    refine ⟨not_mem_linesOf_single of (by decide) (by decide),
      not_mem_linesOf_single of (by decide) (by decide), ?_⟩
    simpa [lightDarkBlock] using rule

/-- A block behind any condition has the line of a condition only if it opens with it. -/
theorem opensBlock_of_mem_conditionalBlock {condition' : String} (plain : IsPlain condition')
    (has : ∀ b, ∀ d ∈ declared.get b, d.Has SingleLine)
    (mem : (conditionOpening condition).toList ∈ linesOf (conditionalBlock condition' declared)) :
    opensBlock condition (conditionalBlock condition' declared) := by
  obtain ⟨outer, closes⟩ := opening_outer of
  have single : SingleLine (conditionOpening condition') := by
    have before := composes_singleLine.plain_append (by decide : IsPlain "@supports (")
      (composes_singleLine.plain plain)
    exact composes_singleLine.append before (by decide)
  have inner := innerText_conditionalLines has
  have lines := linesOf_rule single (Bucket.all.flatMap (conditionalLines declared))
  obtain ⟨rest, begins⟩ := exists_conditionalBlock_eq condition' declared
  change linesOf (conditionalBlock condition' declared) = _ at lines
  rw [lines, List.mem_cons, List.mem_append, List.mem_singleton, List.mem_flatMap] at mem
  obtain opens | ⟨text, among, line⟩ | closing := mem
  · rw [begins, ← String.toList_inj.1 opens]
    exact opensBlock_append condition rest
  · exact absurd (inner text among _ line) outer
  · exact absurd closing closes

/-- **Only a block behind a condition** has its line, of all blocks of a stylesheet. -/
theorem opensBlock_of_mem_linesOf (single : e.Has SingleLine) (oklch : Bool) :
    ∀ block ∈ e.blocks oklch true, (conditionOpening condition).toList ∈ linesOf block →
      opensBlock condition block := by
  have declared : ∀ b, ∀ d ∈ (ByBucket.of e.declarations).get b, d.Has SingleLine := by
    intro b
    rw [ByBucket.get_of]
    exact single.declarations b
  have without : ∀ {blocks : List String},
      (∀ block ∈ blocks, (conditionOpening condition).toList ∉ linesOf block) →
      ∀ block ∈ blocks, (conditionOpening condition).toList ∈ linesOf block →
        opensBlock condition block :=
    fun none block mem line => absurd line (none block mem)
  have header : ∀ block ∈ headerBlocks, (conditionOpening condition).toList ∉ linesOf block := by
    obtain rfl | rfl := of <;> decide
  have notes : ∀ block ∈ ["", "/* Modern CSS — progressive enhancement */",
      "/* Browser support: Chrome 111+, Safari 16.4+, Firefox 113+ */"],
      (conditionOpening condition).toList ∉ linesOf block := by
    obtain rfl | rfl := of <;> decide
  have derived : ∀ {variants : List Variant} (comment condition' : String),
      (∀ v ∈ variants, v.Plain) → IsPlain condition' →
      (conditionOpening condition).toList ∉ linesOf comment →
      ∀ block ∈ (if anyDeclared (e.derived variants) then
        ["", comment, conditionalBlock condition' (e.derived variants)] else []),
        (conditionOpening condition).toList ∈ linesOf block → opensBlock condition block := by
    intro variants comment condition' plain hcondition hcomment
    split
    · rw [List.forall_mem_cons, List.forall_mem_cons, List.forall_mem_singleton]
      exact ⟨fun line => absurd line (not_mem_linesOf_single of (by decide) (by decide)),
        fun line => absurd line hcomment,
        opensBlock_of_mem_conditionalBlock of hcondition (has_of_mem_derived single plain)⟩
    · exact fun _ mem => absurd mem List.not_mem_nil
  have mixed := derived "/* color-mix() — runtime hover/active derived states */" mixesColours
    plain_interactionVariants (by decide) (not_mem_linesOf_single of (by decide) (by decide))
  have adjusted := derived "/* Relative color syntax — OKLCH shade generation */" adjustsColours
    plain_shadeVariants (by decide) (not_mem_linesOf_single of (by decide) (by decide))
  simp only [Emission.blocks, modernBlocks, stateBlocks_eq, shadeBlocks_eq, if_true,
    List.forall_mem_append]
  refine ⟨⟨⟨without header, without (not_mem_linesOf_themeBlocks of single)⟩, ?_⟩,
    ⟨⟨⟨without notes, without (not_mem_linesOf_propertyBlocks of declared)⟩, mixed⟩,
      without (not_mem_linesOf_lightDarkBlocks of declared)⟩, ?_⟩
  · cases oklch with
    | false => exact fun _ mem => absurd mem List.not_mem_nil
    | true => exact without (not_mem_linesOf_oklchBlocks of single.derivations)
  · cases oklch with
    | false => exact fun _ mem => absurd mem List.not_mem_nil
    | true => exact adjusted

end Lines

/-! ### Finding a block in the text -/

/-- A block that is found among the blocks is found among the lines. -/
theorem ruleBody?_of_filter_eq_singleton (of : OfStates condition) (single : e.Has SingleLine)
    {oklch : Bool} {lines : List String} (inner : ∀ line ∈ lines, InnerText line)
    (found : (e.blocks oklch true).filter (opensBlock condition) =
      [stack (conditionOpening condition :: lines ++ ["\x7d"])]) :
    ruleBody? [conditionOpening condition] "\x7d" (linesOf (e.css oklch true)) =
      some (lines.flatMap linesOf) := by
  obtain ⟨front, back, blocks, others, -, -⟩ := List.filter_eq_cons_iff.1 found
  have whole : SingleLine (conditionOpening condition) := by
    obtain rfl | rfl := of <;> decide
  have new : (conditionOpening condition).toList ∉ front.flatMap linesOf := by
    rw [List.mem_flatMap]
    rintro ⟨block, mem, line⟩
    refine others block mem (opensBlock_of_mem_linesOf of single oklch block ?_ line)
    rw [blocks]
    exact List.mem_append_left _ mem
  have closes : "\x7d".toList ∉ lines.flatMap linesOf := by
    rw [List.mem_flatMap]
    rintro ⟨text, mem, line⟩
    exact absurd (inner text mem _ line) (by decide)
  refine ruleBody?_eq new closes ⟨back.flatMap linesOf ++ [[]], ?_⟩
  rw [linesOf_css, blocks, List.flatMap_append, List.flatMap_cons, linesOf_rule whole]
  simp

/-- Without such a block there is no such rule in the text. -/
theorem ruleBody?_of_filter_eq_nil (of : OfStates condition) (single : e.Has SingleLine)
    {oklch : Bool} (none : (e.blocks oklch true).filter (opensBlock condition) = []) :
    ruleBody? [conditionOpening condition] "\x7d" (linesOf (e.css oklch true)) = .none := by
  rw [List.filter_eq_nil_iff] at none
  have new : (conditionOpening condition).toList ∉ linesOf (e.css oklch true) := by
    rw [linesOf_css, List.mem_append, List.mem_flatMap, List.mem_singleton]
    rintro (⟨block, mem, line⟩ | empty)
    · exact none block mem (opensBlock_of_mem_linesOf of single oklch block mem line)
    · exact (opening_outer of).1 (empty ▸ rfl)
  have search : afterLines? [(conditionOpening condition).toList]
      (linesOf (e.css oklch true) ++ []) = .none := afterLines?_append new
  rw [ruleBody?, List.map_singleton, ← List.append_nil (linesOf _), search]

end DesignTokens
