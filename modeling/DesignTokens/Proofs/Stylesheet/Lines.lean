import DesignTokens.Proofs.Stylesheet.Texts
import DesignTokens.Proofs.Text.Lines

/-!
# The lines of a stylesheet

A stylesheet is put together from texts of one line, so it can be read line by line: each block
keeps its lines, and the rule of a bucket is its selector, the lines of its body, and a closing
brace. The lines of a body are either empty or moved to the right, so none of them is mistaken for
a line outside of the rules.

* `linesOf_stack` — a stack of blocks has the lines of the blocks.
* `bodyLines` — the lines of a bucket's body; `linesOf_themeRule` and `linesOf_preferenceRule` —
  those of the two rules that it stands in.
* `ruleBody?` — the lines of a rule that is looked up by its opening lines;
  `ruleBody?_themeRule` and `ruleBody?_preferenceRule` — both rules are found in a stylesheet.
-/

namespace DesignTokens

/-! ### Lines of texts -/

/-- A text of one line. -/
def SingleLine (text : String) : Prop :=
  '\n' ∉ text.toList

instance (text : String) : Decidable (SingleLine text) :=
  inferInstanceAs (Decidable (_ ∉ _))

theorem composes_singleLine : Composes SingleLine where
  plain plain mem := (plain _ mem).1 rfl
  append first second mem := by
    rw [String.toList_append, List.mem_append] at mem
    exact mem.elim first second

/-- The lines of a text. -/
def linesOf (text : String) : List (List Char) :=
  Text.lines text.toList

theorem linesOf_of_singleLine {text : String} (single : SingleLine text) :
    linesOf text = [text.toList] :=
  Text.pieces_of_not_mem single

theorem linesOf_append_newline (first second : String) :
    linesOf (first ++ "\n" ++ second) = linesOf first ++ linesOf second := by
  have cut : (first ++ "\n" ++ second).toList = first.toList ++ '\n' :: second.toList := by
    simp [String.toList_append]
  rw [linesOf, Text.lines, cut]
  exact Text.pieces_append_separator _ _

/-- A line feed at the end makes room for an empty line. -/
theorem linesOf_newline (text : String) : linesOf (text ++ "\n") = linesOf text ++ [[]] := by
  have last := linesOf_append_newline text ""
  rwa [String.append_empty] at last

/-- A text of one line goes in front of the first line of what follows. -/
theorem linesOf_append {text : String} (single : SingleLine text) (rest : String) :
    linesOf (text ++ rest) = (linesOf rest).modifyHead (text.toList ++ ·) := by
  rw [linesOf, Text.lines, String.toList_append]
  exact Text.pieces_append_of_not_mem single _

/-- **A stack has the lines of its blocks.** -/
theorem linesOf_stack {blocks : List String} (some : blocks ≠ []) :
    linesOf (stack blocks) = blocks.flatMap linesOf := by
  induction blocks with
  | nil => exact absurd rfl some
  | cons block more ih =>
    by_cases last : more = []
    · subst last
      simp [stack]
    · have below : stack (block :: more) = block ++ "\n" ++ stack more :=
        String.intercalate_cons_of_ne_nil last
      rw [below, linesOf_append_newline, ih last, List.flatMap_cons]

/-! ### Lines of a body -/

variable {e : Emission}

/-- Whether a line is empty or stands at least two columns to the right. -/
def isInner : List Char → Bool
  | [] => true
  | ' ' :: ' ' :: _ => true
  | _ => false

theorem isInner_indentLine (line : List Char) : isInner (Text.indentLine line) := by
  cases line <;> rfl

/-- Lines that were moved to the right can still be told apart. -/
theorem indentLine_injective : Function.Injective Text.indentLine := by
  intro line line' same
  cases line <;> cases line' <;> simp_all [Text.indentLine]

theorem toList_line (indent : Nat) (d : Declaration) :
    (d.line indent).toList = List.replicate indent ' ' ++
      ('-' :: '-' :: (d.name.toList ++ ':' :: ' ' :: (d.value.toList ++ [';']))) := by
  simp [Declaration.line]

theorem isInner_line (d : Declaration) : isInner (d.line 2).toList := by
  rw [toList_line]
  rfl

theorem linesOf_label {label : String} (single : SingleLine label) :
    linesOf ("\n  /* " ++ label ++ " */") = [[], ("  /* " ++ label ++ " */").toList] := by
  have cut : "\n  /* " ++ label ++ " */" = "" ++ "\n" ++ ("  /* " ++ label ++ " */") := by
    simp [← String.append_assoc]
  have opened := composes_singleLine.plain_append (by decide : IsPlain "  /* ") single
  have whole := composes_singleLine.append_plain opened (by decide : IsPlain " */")
  rw [cut, linesOf_append_newline, linesOf_of_singleLine whole]
  rfl

theorem isInner_of_mem_sectionLines (single : e.Has SingleLine) {b : Bucket}
    {s : LabelledSection} (mem : s ∈ e.sections) :
    ∀ text ∈ sectionLines b s, ∀ line ∈ linesOf text, isInner line := by
  rw [sectionLines]
  split
  · exact fun _ none => nomatch none
  · next declared =>
    rw [List.forall_mem_cons, List.forall_mem_map]
    refine ⟨fun line hline => ?_, fun d hd line hline => ?_⟩
    · rw [linesOf_label (single.labels s mem), List.mem_pair] at hline
      rcases hline with rfl | rfl
      · rfl
      · rw [String.toList_append, String.toList_append]
        rfl
    · have hasd := single.of_mem_section mem hd
      rw [linesOf_of_singleLine (hasd.line composes_singleLine 2), List.mem_singleton] at hline
      exact hline ▸ isInner_line d

/-- The lines of a bucket's body, below the line that the body begins on. -/
def bodyLines (e : Emission) (b : Bucket) : List (List Char) :=
  (linesOf (bucketBody e b)).tail

/-- A section begins with an empty line. -/
theorem exists_of_head?_sectionLines {b : Bucket} {sections : List LabelledSection} {line : String}
    (first : (sections.flatMap (sectionLines b)).head? = some line) :
    ∃ rest, line = "" ++ "\n" ++ rest := by
  rw [List.head?_flatMap] at first
  obtain ⟨s, -, head⟩ := List.exists_of_findSome?_eq_some first
  rw [sectionLines] at head
  split at head
  · exact nomatch head
  · refine ⟨"  /* " ++ s.label ++ " */", ?_⟩
    rw [← Option.some.inj head]
    simp [← String.append_assoc]

/-- A body begins on the line of the opening brace. -/
theorem linesOf_bucketBody (e : Emission) (b : Bucket) :
    linesOf (bucketBody e b) = [] :: bodyLines e b := by
  have begins : ∃ more, linesOf (bucketBody e b) = [] :: more := by
    rw [bucketBody]
    cases lines : e.sections.flatMap (sectionLines b) with
    | nil => exact ⟨[], rfl⟩
    | cons line more =>
      obtain ⟨rest, rfl⟩ := exists_of_head?_sectionLines (congrArg List.head? lines)
      rw [linesOf_stack (List.cons_ne_nil _ _), List.flatMap_cons, linesOf_append_newline]
      exact ⟨linesOf rest ++ more.flatMap linesOf, rfl⟩
  obtain ⟨more, begins⟩ := begins
  rw [bodyLines, begins, List.tail_cons]

/-- **No line of a body looks like a line outside of the rules.** -/
theorem isInner_of_mem_bodyLines (single : e.Has SingleLine) {b : Bucket} :
    ∀ line ∈ bodyLines e b, isInner line := by
  intro line mem
  have inBody : line ∈ linesOf (bucketBody e b) := List.mem_of_mem_tail mem
  rw [bucketBody] at inBody
  by_cases none : e.sections.flatMap (sectionLines b) = []
  · rw [none] at inBody
    rw [List.eq_of_mem_singleton inBody]
    rfl
  · rw [linesOf_stack none] at inBody
    obtain ⟨text, htext, hline⟩ := List.mem_flatMap.1 inBody
    obtain ⟨s, hs, htext⟩ := List.mem_flatMap.1 htext
    exact isInner_of_mem_sectionLines single hs text htext line hline

/-! ### Lines of the rules -/

/-- The line that opens the rule of a bucket. -/
def ruleOpening (b : Bucket) : String :=
  themeSelector b ++ " \x7b"

/-- The line that opens the rule of a theme for pages that leave the theme to the system. -/
def preferenceOpening (m : Mode) : String :=
  "@media (prefers-color-scheme: " ++ m.text ++ ") \x7b"

/-- The line below it, that selects the pages. -/
def noThemeOpening : String :=
  "  " ++ noThemeSelector ++ " \x7b"

theorem linesOf_themeRule (e : Emission) (b : Bucket) :
    linesOf (themeRule e b) =
      (ruleOpening b).toList :: bodyLines e b ++ ["\x7d".toList, []] := by
  have single : SingleLine (ruleOpening b) := by cases b <;> decide
  have cut : themeRule e b = ruleOpening b ++ bucketBody e b ++ "\n" ++ ("\x7d" ++ "\n") := by
    simp [themeRule, ruleOpening, String.append_assoc]
  rw [cut, linesOf_append_newline, linesOf_newline, linesOf_append single, linesOf_bucketBody,
    List.modifyHead_cons, List.append_nil]
  rfl

theorem linesOf_nestedBody (e : Emission) (b : Bucket) :
    linesOf (nestedBody e b) = [] :: (bodyLines e b).map Text.indentLine := by
  have moved := Text.lines_indent (bucketBody e b).toList
  change _ = (linesOf (bucketBody e b)).map Text.indentLine at moved
  rw [linesOf, nestedBody, String.toList_ofList, moved, linesOf_bucketBody]
  rfl

theorem linesOf_preferenceRule (e : Emission) (m : Mode) :
    linesOf (preferenceRule e m) =
      (preferenceOpening m).toList :: noThemeOpening.toList ::
        (bodyLines e (.ofMode m)).map Text.indentLine ++ ["  \x7d".toList, "\x7d".toList] := by
  have media : SingleLine (preferenceOpening m) := by cases m <;> decide
  have pages : SingleLine noThemeOpening := by decide
  have cut : preferenceRule e m = preferenceOpening m ++ "\n" ++
      (noThemeOpening ++ nestedBody e (.ofMode m) ++ "\n" ++ ("  \x7d" ++ "\n" ++ "\x7d")) := by
    unfold preferenceRule preferenceOpening noThemeOpening
    refine String.toList_inj.1 ?_
    simp
  rw [cut, linesOf_append_newline, linesOf_append_newline, linesOf_append_newline,
    linesOf_of_singleLine media, linesOf_append pages, linesOf_nestedBody, List.modifyHead_cons,
    List.append_nil]
  rfl

/-- A stylesheet has the lines of its blocks. -/
theorem linesOf_css (oklch modernCss : Bool) (e : Emission) :
    linesOf (e.css oklch modernCss) = (e.blocks oklch modernCss).flatMap linesOf ++ [[]] := by
  have some : e.blocks oklch modernCss ≠ [] := by simp [Emission.blocks, headerBlocks]
  rw [Emission.css, linesOf_newline, linesOf_stack some]

/-! ### Finding a rule -/

/-- The lines that follow the first place where lines stand one below the other. -/
def afterLines? (opening : List (List Char)) : List (List Char) → Option (List (List Char))
  | [] => none
  | line :: rest =>
    if opening.isPrefixOf (line :: rest) then some ((line :: rest).drop opening.length)
    else afterLines? opening rest

/-- The lines of the first rule that opens with certain lines, up to its closing line. -/
def ruleBody? (opening : List String) (closing : String) (lines : List (List Char)) :
    Option (List (List Char)) :=
  match afterLines? (opening.map String.toList) lines with
  | none => none
  | some rest =>
    if closing.toList ∈ rest then some (rest.takeWhile (· ≠ closing.toList)) else none

variable {first closing : String} {more : List String} {lines before after body : List (List Char)}

theorem afterLines?_opening {line : List Char} {below : List (List Char)} :
    afterLines? (line :: below) (line :: below ++ after) = some after := by
  have stands : (line :: below).isPrefixOf (line :: below ++ after) = true :=
    List.isPrefixOf_iff_prefix.2 (List.prefix_append _ _)
  rw [List.cons_append] at stands
  rw [List.cons_append, afterLines?, if_pos stands, ← List.cons_append, List.drop_left]

/-- A rule does not begin among lines that do not open it. -/
theorem afterLines?_append {line : List Char} {below : List (List Char)} (new : line ∉ before) :
    afterLines? (line :: below) (before ++ after) = afterLines? (line :: below) after := by
  induction before with
  | nil => rfl
  | cons l before ih =>
    rw [List.mem_cons, not_or] at new
    have other : ((line :: below).isPrefixOf (l :: (before ++ after))) = false := by
      simp [List.isPrefixOf, new.1]
    rw [List.cons_append, afterLines?, other, if_neg Bool.false_ne_true, ih new.2]

/-- **A rule is found where it opens first, up to where it closes.** -/
theorem ruleBody?_eq (new : first.toList ∉ before) (closes : closing.toList ∉ body)
    (cut : ∃ after, lines = before ++ ((first :: more).map String.toList ++
      (body ++ closing.toList :: after))) :
    ruleBody? (first :: more) closing lines = some body := by
  obtain ⟨after, rfl⟩ := cut
  have stops : ∀ line ∈ body, decide (line ≠ closing.toList) = true := fun line mem =>
    decide_eq_true fun same => closes (same ▸ mem)
  have found : (body ++ closing.toList :: after).takeWhile (· ≠ closing.toList) = body := by
    rw [List.takeWhile_append_of_pos stops, List.takeWhile_cons_of_neg (by simp), List.append_nil]
  rw [ruleBody?, List.map_cons, afterLines?_append new, afterLines?_opening]
  simp only [List.mem_append, List.mem_cons_self, or_true, if_true, found]

/-! ### The rules of a stylesheet -/

theorem not_mem_linesOf_themeRule (single : e.Has SingleLine) {b : Bucket} {line : List Char}
    (outer : ¬isInner line) (opens : line ≠ (ruleOpening b).toList)
    (closes : line ≠ "\x7d".toList) : line ∉ linesOf (themeRule e b) := by
  rw [linesOf_themeRule, List.cons_append, List.mem_cons, List.mem_append, List.mem_pair]
  rintro (h | h | h | rfl)
  · exact opens h
  · exact outer (isInner_of_mem_bodyLines single line h)
  · exact closes h
  · exact outer rfl

theorem not_mem_linesOf_preferenceRule {m : Mode} {line : List Char}
    (outer : ¬isInner line) (opens : line ≠ (preferenceOpening m).toList)
    (closes : line ≠ "\x7d".toList) : line ∉ linesOf (preferenceRule e m) := by
  have indented : ∀ line ∈ (bodyLines e (.ofMode m)).map Text.indentLine, isInner line :=
    List.forall_mem_map.2 fun line _ => isInner_indentLine line
  rw [linesOf_preferenceRule, List.cons_append, List.cons_append, List.mem_cons, List.mem_cons,
    List.mem_append, List.mem_pair]
  rintro (h | rfl | h | rfl | h)
  · exact opens h
  · exact outer (by decide)
  · exact outer (indented line h)
  · exact outer rfl
  · exact closes h

/-- The rules of the buckets stand below the header. -/
theorem exists_linesOf_css (oklch modernCss : Bool) (e : Emission) :
    ∃ rest, linesOf (e.css oklch modernCss) =
      (headerBlocks ++ themeBlocks e).flatMap linesOf ++ rest := by
  have split : ∀ more, (headerBlocks ++ themeBlocks e ++ more).flatMap linesOf =
      (headerBlocks ++ themeBlocks e).flatMap linesOf ++ more.flatMap linesOf :=
    fun _ => List.flatMap_append
  rw [linesOf_css, Emission.blocks, List.append_assoc (headerBlocks ++ themeBlocks e), split,
    List.append_assoc]
  exact ⟨_, rfl⟩

/-- **The body of a bucket's rule** has the lines of the bucket. -/
theorem ruleBody?_themeRule (single : e.Has SingleLine) (oklch modernCss : Bool) (b : Bucket) :
    ruleBody? [ruleOpening b] "\x7d" (linesOf (e.css oklch modernCss)) = some (bodyLines e b) := by
  obtain ⟨rest, lines⟩ := exists_linesOf_css oklch modernCss e
  have outer : ¬isInner (ruleOpening b).toList := by cases b <;> decide
  have closes : (ruleOpening b).toList ≠ "\x7d".toList := by cases b <;> decide
  have header : (ruleOpening b).toList ∉ headerBlocks.flatMap linesOf := by cases b <;> decide
  obtain ⟨front, back, buckets, new⟩ : ∃ front back, Bucket.all = front ++ b :: back ∧
      b ∉ front := by
    cases b
    · exact ⟨[], [.dark, .light], rfl, by decide⟩
    · exact ⟨[.root], [.light], rfl, by decide⟩
    · exact ⟨[.root, .dark], [], rfl, by decide⟩
  -- the rules of the buckets before it open otherwise
  have earlier : (ruleOpening b).toList ∉ (front.map (themeRule e)).flatMap linesOf := by
    rw [List.flatMap_map, List.mem_flatMap]
    rintro ⟨b', mem, inRule⟩
    have other : (ruleOpening b).toList ≠ (ruleOpening b').toList := by
      have apart : b ≠ b' := fun same => new (same ▸ mem)
      revert apart
      cases b <;> cases b' <;> decide
    exact not_mem_linesOf_themeRule single outer other closes inRule
  -- a brace without spaces before it is not of the body
  have body : "\x7d".toList ∉ bodyLines e b := fun mem =>
    absurd (isInner_of_mem_bodyLines single _ mem) (by decide)
  refine ruleBody?_eq (List.not_mem_append header earlier) body ?_
  rw [lines, themeBlocks, buckets]
  simp only [List.map_append, List.map_cons, List.flatMap_append, List.flatMap_cons,
    linesOf_themeRule, List.append_assoc, List.cons_append]
  exact ⟨_, rfl⟩

/-- **The body of a rule for pages that name no theme** has the lines of the theme, moved. -/
theorem ruleBody?_preferenceRule (single : e.Has SingleLine) (oklch modernCss : Bool) (m : Mode) :
    ruleBody? [preferenceOpening m, noThemeOpening] "  \x7d" (linesOf (e.css oklch modernCss)) =
      some ((bodyLines e (.ofMode m)).map Text.indentLine) := by
  obtain ⟨rest, lines⟩ := exists_linesOf_css oklch modernCss e
  have outer : ¬isInner (preferenceOpening m).toList := by cases m <;> decide
  have closes : (preferenceOpening m).toList ≠ "\x7d".toList := by cases m <;> decide
  have header : (preferenceOpening m).toList ∉ headerBlocks.flatMap linesOf := by
    cases m <;> decide
  have rules : (preferenceOpening m).toList ∉ (Bucket.all.map (themeRule e)).flatMap linesOf := by
    rw [List.flatMap_map, List.mem_flatMap]
    rintro ⟨b, -, inRule⟩
    have other : (preferenceOpening m).toList ≠ (ruleOpening b).toList := by
      cases m <;> cases b <;> decide
    exact not_mem_linesOf_themeRule single outer other closes inRule
  -- a brace with two spaces before it had none before the body was moved
  have body : "  \x7d".toList ∉ (bodyLines e (.ofMode m)).map Text.indentLine := by
    rw [List.mem_map]
    rintro ⟨line, mem, moved⟩
    have brace : line = "\x7d".toList := indentLine_injective moved
    exact absurd (isInner_of_mem_bodyLines single line mem) (by rw [brace]; decide)
  have comment : (preferenceOpening m).toList ∉
      linesOf "/* OS preference fallback (when no .dark/.light class is set) */" := by
    cases m <;> decide
  have before := List.not_mem_append (List.not_mem_append header rules) comment
  -- the rule of the light theme stands below that of the dark one
  cases m with
  | dark =>
    refine ruleBody?_eq before body ?_
    rw [lines, themeBlocks]
    simp only [List.flatMap_append, List.flatMap_cons, linesOf_newline, linesOf_preferenceRule,
      List.append_assoc, List.cons_append]
    exact ⟨_, rfl⟩
  | light =>
    have dark : (preferenceOpening .light).toList ∉
        linesOf (preferenceRule e .dark) ++ [[]] :=
      List.not_mem_append (not_mem_linesOf_preferenceRule outer (by decide) closes) (by decide)
    refine ruleBody?_eq (List.not_mem_append before dark) body ?_
    rw [lines, themeBlocks]
    simp only [List.flatMap_append, List.flatMap_cons, linesOf_newline, linesOf_preferenceRule,
      List.append_assoc, List.cons_append]
    exact ⟨_, rfl⟩

end DesignTokens
