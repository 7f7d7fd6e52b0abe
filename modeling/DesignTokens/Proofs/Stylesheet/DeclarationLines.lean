import DesignTokens.Proofs.Stylesheet.Lines

/-!
# The lines of a stylesheet that are declarations

A declaration of a bucket is written on a line of its own, two columns to the right, in the rule of
its bucket. Nothing else stands in such a line: whatever a stylesheet adds to the declarations
stands further to the right, behind a condition, or is not a declaration. The rule of a theme
for pages that leave the theme to the system repeats the lines of the theme's own rule, moved.

* `declarationLines_css` — the declarations two columns to the right are those of the buckets.
* `filter_bodyLines` — the declarations in a body are those of its bucket.
* `Emission.css_carries_declarations` — both, and where the bodies are found.
-/

namespace DesignTokens

variable {e : Emission} {declarations : List Declaration}

/-! ### Lines that declare -/

/-- Whether a line is a declaration that stands a number of columns to the right. -/
def declaresAt (indent : Nat) (line : List Char) : Bool :=
  (List.replicate indent ' ' ++ ['-', '-']).isPrefixOf line

theorem declaresAt_line (indent : Nat) (d : Declaration) :
    declaresAt indent (d.line indent).toList := by
  rw [declaresAt, List.isPrefixOf_iff_prefix, toList_line]
  exact List.prefix_append_right_inj _ |>.2 ⟨_, rfl⟩

theorem not_declaresAt_line {indent : Nat} (far : 2 < indent) (d : Declaration) :
    ¬declaresAt 2 (d.line indent).toList := by
  obtain ⟨more, rfl⟩ : ∃ more, indent = more + 3 := ⟨indent - 3, by omega⟩
  rw [toList_line, List.replicate_succ, List.replicate_succ, List.replicate_succ]
  exact Bool.false_ne_true

theorem not_declaresAt_of_head? {line : List Char} (outer : line.head? ≠ some ' ') :
    ¬declaresAt 2 line := by
  cases line with
  | nil => exact Bool.false_ne_true
  | cons c rest =>
    rw [List.head?_cons, Ne, Option.some.injEq] at outer
    simp [declaresAt, List.replicate_succ, Ne.symm outer]

/-- The lines of declarations, a number of columns to the right. -/
def writtenAt (indent : Nat) (declarations : List Declaration) : List (List Char) :=
  declarations.map fun d => (d.line indent).toList

/-- The lines of a text that are declarations two columns to the right. -/
def declarationLines (text : String) : List (List Char) :=
  (linesOf text).filter (declaresAt 2)

theorem declarationLines_append_newline (first second : String) :
    declarationLines (first ++ "\n" ++ second) =
      declarationLines first ++ declarationLines second := by
  rw [declarationLines, linesOf_append_newline, List.filter_append]
  rfl

theorem declarationLines_stack (blocks : List String) :
    declarationLines (stack blocks) = blocks.flatMap declarationLines := by
  by_cases none : blocks = []
  · subst none
    decide
  · rw [declarationLines, linesOf_stack none, List.filter_flatMap]
    rfl

theorem declarationLines_line {d : Declaration} (single : d.Has SingleLine) :
    declarationLines (d.line 2) = [(d.line 2).toList] := by
  rw [declarationLines, linesOf_of_singleLine (single.line composes_singleLine 2)]
  exact List.filter_cons_of_pos (declaresAt_line 2 d)

/-! ### Bodies -/

/-- **The declarations in a body** are those of its bucket. -/
theorem declarationLines_bucketBody (single : e.Has SingleLine) (b : Bucket) :
    declarationLines (bucketBody e b) = writtenAt 2 (e.declarations b) := by
  -- of a section, only the lines below its label declare
  have ofSection : ∀ s ∈ e.sections, (sectionLines b s).flatMap declarationLines =
      writtenAt 2 (s.declarations.get b) := by
    intro s hs
    have hlabel : declarationLines ("\n  /* " ++ s.label ++ " */") = [] := by
      rw [declarationLines, linesOf_label (single.labels s hs), String.toList_append,
        String.toList_append]
      rfl
    have hlines : ∀ d ∈ s.declarations.get b,
        declarationLines (d.line 2) = [(d.line 2).toList] := fun d hd =>
      declarationLines_line (single.of_mem_section hs hd)
    rw [sectionLines]
    split
    · next none => rw [none]; rfl
    · rw [List.flatMap_cons, hlabel, List.nil_append, List.flatMap_map,
        List.flatMap_congr hlines]
      exact List.map_eq_flatMap.symm
  rw [bucketBody, declarationLines_stack, List.flatMap_assoc, List.flatMap_congr ofSection,
    Emission.declarations, writtenAt, List.map_flatMap]
  rfl

theorem filter_bodyLines (single : e.Has SingleLine) (b : Bucket) :
    (bodyLines e b).filter (declaresAt 2) = writtenAt 2 (e.declarations b) := by
  have body := declarationLines_bucketBody single b
  rwa [declarationLines, linesOf_bucketBody, List.filter_cons_of_neg (by decide)] at body

theorem declaresAt_indentLine (indent : Nat) (line : List Char) :
    declaresAt (indent + 2) (Text.indentLine line) = declaresAt indent line := by
  cases line with
  | nil => cases indent <;> rfl
  | cons c rest => rfl

theorem indentLine_line (indent : Nat) (d : Declaration) :
    Text.indentLine (d.line indent).toList = (d.line (indent + 2)).toList := by
  rw [toList_line, toList_line]
  cases indent <;> rfl

/-- The declarations in a body that was moved are those of its bucket, moved. -/
theorem filter_map_indentLine (single : e.Has SingleLine) (b : Bucket) :
    ((bodyLines e b).map Text.indentLine).filter (declaresAt 4) =
      writtenAt 4 (e.declarations b) := by
  have same : declaresAt 4 ∘ Text.indentLine = declaresAt 2 := funext (declaresAt_indentLine 2)
  have moved : (writtenAt 2 (e.declarations b)).map Text.indentLine =
      writtenAt 4 (e.declarations b) := by
    rw [writtenAt, List.map_map]
    exact List.map_congr_left fun d _ => indentLine_line 2 d
  rw [List.filter_map, same, filter_bodyLines single, moved]

theorem declarationLines_themeRule (single : e.Has SingleLine) (b : Bucket) :
    declarationLines (themeRule e b) = writtenAt 2 (e.declarations b) := by
  have opening : ¬declaresAt 2 (ruleOpening b).toList := by cases b <;> decide
  have closing : ["\x7d".toList, []].filter (declaresAt 2) = [] := by decide
  rw [declarationLines, linesOf_themeRule, List.filter_append, closing, List.append_nil,
    List.filter_cons_of_neg opening, filter_bodyLines single]

/-! ### Texts without declarations two columns to the right -/

/-- No line of a text is a declaration two columns to the right. -/
def DeclaresNothing (text : String) : Prop :=
  declarationLines text = []

instance (text : String) : Decidable (DeclaresNothing text) :=
  inferInstanceAs (Decidable (_ = _))

theorem DeclaresNothing.append_newline {first second : String} (none : DeclaresNothing first)
    (none' : DeclaresNothing second) : DeclaresNothing (first ++ "\n" ++ second) := by
  rw [DeclaresNothing, declarationLines_append_newline, none, none', List.append_nil]

variable {blocks : List String}

theorem flatMap_declarationLines_eq_nil (none : ∀ block ∈ blocks, DeclaresNothing block) :
    blocks.flatMap declarationLines = [] :=
  List.flatMap_eq_nil_iff.2 none

theorem declaresNothing_stack (none : ∀ block ∈ blocks, DeclaresNothing block) :
    DeclaresNothing (stack blocks) := by
  rw [DeclaresNothing, declarationLines_stack, flatMap_declarationLines_eq_nil none]

theorem declaresNothing_of_singleLine {text : String} (single : SingleLine text)
    (other : ¬declaresAt 2 text.toList) : DeclaresNothing text := by
  rw [DeclaresNothing, declarationLines, linesOf_of_singleLine single]
  exact List.filter_cons_of_neg other

theorem declaresNothing_line {d : Declaration} (single : d.Has SingleLine) {indent : Nat}
    (far : 2 < indent) : DeclaresNothing (d.line indent) :=
  declaresNothing_of_singleLine (single.line composes_singleLine indent)
    (not_declaresAt_line far d)

/-- A line that begins otherwise is not a declaration, whatever it goes on with. -/
theorem declaresNothing_around {before text after : String} (hbefore : SingleLine before)
    (htext : SingleLine text) (hafter : SingleLine after)
    (other : ∀ rest, ¬declaresAt 2 (before.toList ++ rest)) :
    DeclaresNothing (before ++ text ++ after) := by
  have single := composes_singleLine.append (composes_singleLine.append hbefore htext) hafter
  refine declaresNothing_of_singleLine single ?_
  rw [String.toList_append, String.toList_append, List.append_assoc]
  exact other _

theorem not_declaresAt_zero {line : List Char} (inner : isInner line) : ¬declaresAt 0 line := by
  unfold isInner at inner
  split at inner
  · exact Bool.false_ne_true
  · exact Bool.false_ne_true
  · exact nomatch inner

/-- What was moved stands too far to the right. -/
theorem declaresNothing_preferenceRule (single : e.Has SingleLine) (m : Mode) :
    DeclaresNothing (preferenceRule e m) := by
  have media : ¬declaresAt 2 (preferenceOpening m).toList := by cases m <;> decide
  have pages : ¬declaresAt 2 noThemeOpening.toList := by decide
  have closing : ["  \x7d".toList, "\x7d".toList].filter (declaresAt 2) = [] := by decide
  have moved : ((bodyLines e (.ofMode m)).map Text.indentLine).filter (declaresAt 2) = [] := by
    rw [List.filter_eq_nil_iff, List.forall_mem_map]
    intro line mem
    -- it would have been a declaration at the beginning of a line before it was moved
    rw [declaresAt_indentLine 0]
    exact not_declaresAt_zero (isInner_of_mem_bodyLines single line mem)
  rw [DeclaresNothing, declarationLines, linesOf_preferenceRule, List.filter_append, closing,
    List.append_nil, List.filter_cons_of_neg media, List.filter_cons_of_neg pages, moved]

/-- The rule of a bucket behind a condition. -/
theorem declaresNothing_innerRule (has : ∀ d ∈ declarations, d.Has SingleLine) {b : Bucket}
    {closing : String} (none : DeclaresNothing closing) :
    ∀ line ∈ innerRule b closing declarations, DeclaresNothing line := by
  unfold innerRule
  split
  · exact fun _ mem => nomatch mem
  · have opening : DeclaresNothing ("  " ++ themeSelector b ++ " \x7b") := by cases b <;> decide
    have lines : ∀ line ∈ declarations.map (Declaration.line 4), DeclaresNothing line :=
      List.forall_mem_map.2 fun d hd => declaresNothing_line (has d hd) (by decide)
    rw [List.cons_append, List.forall_mem_cons, List.forall_mem_append, List.forall_mem_singleton]
    exact ⟨opening, lines, none⟩

theorem declaresNothing_conditionalBlock {condition : String}
    {declared : ByBucket (List Declaration)} (plain : IsPlain condition)
    (has : ∀ b, ∀ d ∈ declared.get b, d.Has SingleLine) :
    DeclaresNothing (conditionalBlock condition declared) := by
  have opening : DeclaresNothing ("@supports (" ++ condition ++ ") \x7b") :=
    declaresNothing_around (by decide) (composes_singleLine.plain plain) (by decide)
      fun _ => Bool.false_ne_true
  refine declaresNothing_stack ?_
  rw [List.cons_append, List.forall_mem_cons, List.forall_mem_append, List.forall_mem_singleton]
  refine ⟨opening, fun line mem => ?_, by decide⟩
  obtain ⟨b, -, mem⟩ := List.mem_flatMap.1 mem
  have closing : DeclaresNothing (if b = .light then "  \x7d" else "  \x7d\n") := by
    cases b <;> decide
  exact declaresNothing_innerRule (has b) closing line mem

/-! ### Converted colours -/

theorem declaresNothing_oklchPreferenceLines (has : ∀ d ∈ e.derivations, d.Has SingleLine)
    (m : Mode) : ∀ line ∈ oklchPreferenceLines e.derivations m, DeclaresNothing line := by
  have hasOverrides := has_of_mem_overridesIn composes_singleLine has (.ofMode m)
  unfold oklchPreferenceLines
  split
  · exact fun _ mem => nomatch mem
  · have media : DeclaresNothing ("  @media (prefers-color-scheme: " ++ m.text ++ ") \x7b") := by
      cases m <;> decide
    have pages : DeclaresNothing ("    " ++ noThemeSelector ++ " \x7b") := by decide
    have lines : ∀ line ∈ (overridesIn e.derivations (.ofMode m)).map (Declaration.line 6),
        DeclaresNothing line :=
      List.forall_mem_map.2 fun d hd => declaresNothing_line (hasOverrides d hd) (by decide)
    have last : DeclaresNothing (if m = .light then "  \x7d" else "  \x7d\n") := by
      cases m <;> decide
    rw [List.forall_mem_append, List.forall_mem_append, List.forall_mem_cons,
      List.forall_mem_singleton, List.forall_mem_cons, List.forall_mem_singleton]
    exact ⟨⟨⟨media, pages⟩, lines⟩, by decide, last⟩

theorem declaresNothing_oklchBlocks (has : ∀ d ∈ e.derivations, d.Has SingleLine) :
    ∀ block ∈ oklchBlocks e.derivations, DeclaresNothing block := by
  unfold oklchBlocks
  split
  · exact fun _ mem => nomatch mem
  · have themes : ∀ line ∈ Bucket.all.flatMap (oklchThemeLines e.derivations),
        DeclaresNothing line := by
      rw [List.forall_mem_flatMap]
      exact fun b _ => declaresNothing_innerRule
        (has_of_mem_overridesIn composes_singleLine has b) (by decide)
    have preferences : ∀ line ∈ Mode.all.flatMap (oklchPreferenceLines e.derivations),
        DeclaresNothing line := by
      rw [List.forall_mem_flatMap]
      exact fun m _ => declaresNothing_oklchPreferenceLines has m
    rw [List.forall_mem_cons, List.forall_mem_cons, List.forall_mem_cons, List.forall_mem_singleton]
    refine ⟨by decide, by decide, by decide, declaresNothing_stack ?_⟩
    rw [List.forall_mem_append, List.forall_mem_append, List.forall_mem_cons,
      List.forall_mem_singleton]
    exact ⟨⟨⟨by decide, themes⟩, preferences⟩, by decide⟩

/-! ### Enhancements -/

theorem declaresNothing_propertyRule {name syntaxText value : String} (hname : SingleLine name)
    (htype : IsPlain syntaxText) (hvalue : SingleLine value) :
    DeclaresNothing (propertyRule name syntaxText value) := by
  have opening : DeclaresNothing ("@property --" ++ name ++ " \x7b") :=
    declaresNothing_around (by decide) hname (by decide) fun _ => Bool.false_ne_true
  have typeLine : DeclaresNothing ("  syntax: '" ++ syntaxText ++ "';") :=
    declaresNothing_around (by decide) (composes_singleLine.plain htype) (by decide)
      fun _ => Bool.false_ne_true
  have valueLine : DeclaresNothing ("  initial-value: " ++ value ++ ";") :=
    declaresNothing_around (by decide) hvalue (by decide) fun _ => Bool.false_ne_true
  rw [propertyRule_eq_stack]
  refine declaresNothing_stack ?_
  rw [List.forall_mem_cons, List.forall_mem_cons, List.forall_mem_cons, List.forall_mem_cons,
    List.forall_mem_singleton]
  exact ⟨opening, typeLine, by decide, valueLine, by decide⟩

theorem declaresNothing_lightDarkBlock {pairs : List Declaration}
    (has : ∀ d ∈ pairs, d.Has SingleLine) : DeclaresNothing (lightDarkBlock pairs) := by
  have lines : ∀ line ∈ pairs.map (Declaration.line 4), DeclaresNothing line :=
    List.forall_mem_map.2 fun d hd => declaresNothing_line (has d hd) (by decide)
  refine declaresNothing_stack ?_
  rw [List.forall_mem_append, List.forall_mem_append]
  exact ⟨⟨by decide, lines⟩, by decide⟩

/-- **No enhancement declares anything** two columns to the right. -/
theorem holdsOfRules_declaresNothing : HoldsOfRules SingleLine DeclaresNothing where
  composes := composes_singleLine
  note plain outer := declaresNothing_of_singleLine (composes_singleLine.plain plain)
    (not_declaresAt_of_head? outer)
  gap := by
    intro first second hfirst hsecond
    have empty : first ++ "\n\n" ++ second = first ++ "\n" ++ "" ++ "\n" ++ second := by
      refine String.toList_inj.1 ?_
      simp
    rw [empty]
    exact (hfirst.append_newline (by decide)).append_newline hsecond
  property := declaresNothing_propertyRule
  conditional := declaresNothing_conditionalBlock
  pairs := declaresNothing_lightDarkBlock

/-! ### The whole -/

/-- What is asked for on top of the rules declares nothing two columns to the right. -/
theorem declaresNothing_enhancements (single : e.Has SingleLine) (oklch modernCss : Bool) :
    ∀ block ∈ (if oklch then oklchBlocks e.derivations else []) ++
      (if modernCss then modernBlocks oklch e else []), DeclaresNothing block := by
  rw [List.forall_mem_append]
  constructor
  · cases oklch with
    | false => exact fun _ mem => nomatch mem
    | true => exact declaresNothing_oklchBlocks single.derivations
  · cases modernCss with
    | false => exact fun _ mem => nomatch mem
    | true => exact holdsOfRules_declaresNothing.of_mem_modernBlocks single oklch

/-- **The declarations two columns to the right** are those of the buckets, one bucket after the
other. -/
theorem declarationLines_css (single : e.Has SingleLine) (oklch modernCss : Bool) :
    declarationLines (e.css oklch modernCss) =
      writtenAt 2 (Bucket.all.flatMap e.declarations) := by
  have header : headerBlocks.flatMap declarationLines = [] := by decide
  have preferences : ∀ block ∈ ["/* OS preference fallback (when no .dark/.light class is set) */",
      preferenceRule e .dark ++ "\n", preferenceRule e .light], DeclaresNothing block := by
    rw [List.forall_mem_cons, List.forall_mem_cons, List.forall_mem_singleton]
    refine ⟨by decide, ?_, declaresNothing_preferenceRule single .light⟩
    have dark := (declaresNothing_preferenceRule single .dark).append_newline
      (by decide : DeclaresNothing "")
    rwa [String.append_empty] at dark
  have more := declaresNothing_enhancements single oklch modernCss
  calc declarationLines (e.css oklch modernCss)
    _ = (e.blocks oklch modernCss).flatMap declarationLines := by
      rw [declarationLines, linesOf_css, List.filter_append, List.filter_flatMap]
      exact List.append_nil _
    _ = (headerBlocks ++ themeBlocks e).flatMap declarationLines := by
      rw [Emission.blocks, List.append_assoc, List.flatMap_append,
        flatMap_declarationLines_eq_nil more, List.append_nil]
    _ = (Bucket.all.map (themeRule e)).flatMap declarationLines := by
      rw [themeBlocks, List.flatMap_append, List.flatMap_append, header,
        flatMap_declarationLines_eq_nil preferences, List.append_nil, List.nil_append]
    _ = writtenAt 2 (Bucket.all.flatMap e.declarations) := by
      rw [List.flatMap_map, writtenAt, List.map_flatMap]
      exact List.flatMap_congr fun b _ => declarationLines_themeRule single b

/-- **A stylesheet carries every declaration once per place.** Let all texts of an emission be of
one line. Then, whatever is asked for on top, the lines of the stylesheet that are declarations two
columns to the right are the declarations of all buckets, in order. The rule of a theme for pages
that name no theme has the lines of the theme's own rule, the non-empty ones moved two columns to
the right, so that such a page gets the declarations of the theme, in order. -/
theorem Emission.css_carries_declarations (single : e.Has SingleLine) (oklch modernCss : Bool) :
    (linesOf (e.css oklch modernCss)).filter (declaresAt 2) =
      writtenAt 2 (e.declarations .root ++ e.declarations .dark ++ e.declarations .light) ∧
    ∀ m : Mode, ∃ body,
      ruleBody? [themeSelector (.ofMode m) ++ " \x7b"] "\x7d" (linesOf (e.css oklch modernCss)) =
        some body ∧
      ruleBody? ["@media (prefers-color-scheme: " ++ m.text ++ ") \x7b",
          "  " ++ noThemeSelector ++ " \x7b"] "  \x7d" (linesOf (e.css oklch modernCss)) =
        some (body.map Text.indentLine) ∧
      body.filter (declaresAt 2) = writtenAt 2 (e.declarations (.ofMode m)) ∧
      (body.map Text.indentLine).filter (declaresAt 4) =
        writtenAt 4 (e.declarations (.ofMode m)) := by
  have buckets : Bucket.all.flatMap e.declarations =
      e.declarations .root ++ e.declarations .dark ++ e.declarations .light := by
    simp [Bucket.all]
  refine ⟨buckets ▸ declarationLines_css single oklch modernCss, fun m =>
    ⟨bodyLines e (.ofMode m), ?_, ?_, ?_, ?_⟩⟩
  · exact ruleBody?_themeRule single oklch modernCss (.ofMode m)
  · exact ruleBody?_preferenceRule single oklch modernCss m
  · exact filter_bodyLines single (.ofMode m)
  · exact filter_map_indentLine single (.ofMode m)

/-- A stylesheet with everything that can be asked for declares an accent colour in seven places,
but only twice two columns to the right. -/
theorem accent_is_declared_once_per_theme :
    let accent (value : String) : Declaration := { name := "color-accent-a", value := value }
    let e : Emission :=
      { sections :=
          [{ label := "Colors",
             declarations := { root := [], dark := [accent "#fff"], light := [accent "#000"] } },
           { label := "Spacing",
             declarations :=
               { root := [{ name := "space-md", value := "4px" }], dark := [], light := [] } }]
        derivations :=
          [{ name := "color-accent-a", source := "#fff", converted := "oklch(1 0 0)",
             bucket := .dark }] }
    let lines := linesOf (e.css true true)
    e.Has SingleLine ∧
    lines.filter (declaresAt 2) =
      ["  --space-md: 4px;", "  --color-accent-a: #fff;", "  --color-accent-a: #000;"].map
        String.toList ∧
    ∃ body,
      ruleBody? [".dark \x7b"] "\x7d" lines = some body ∧
      ruleBody? ["@media (prefers-color-scheme: dark) \x7b",
        "  :root:not(.dark):not(.light) \x7b"] "  \x7d" lines = some (body.map Text.indentLine) ∧
      (body.map Text.indentLine).filter (declaresAt 4) =
        ["    --color-accent-a: #fff;".toList] := by
  intro accent e lines
  have single : e.Has SingleLine := by decide
  obtain ⟨declared, bodies⟩ := Emission.css_carries_declarations single true true
  obtain ⟨body, rule, preference, -, moved⟩ := bodies .dark
  exact ⟨single, declared.trans (by decide), body, rule, preference, moved.trans (by decide)⟩

end DesignTokens
