import DesignTokens.Proofs.Stylesheet.ActionNames
import DesignTokens.Proofs.Stylesheet.ConditionBlocks
import DesignTokens.Proofs.Stylesheet.DeclarationLines

/-!
# Derived states

The enhancements of a stylesheet derive states from its accent and action colours: the hovered and
the active colour by mixing, and with converted colours also a lighter and a darker shade. They
follow the declarations bucket by bucket, and a bucket, or a whole block, without such colours
leaves no trace.

* `stateLines`, `shadeLines` — the lines that declare the states of a colour;
  `Emission.derivedLines` — the rules that hold them; `conditionalBlock_derived`.
* `Emission.StatesBehind` — what a stylesheet has behind a condition, among its blocks and in its
  text.
* `Emission.states_follow_declarations` — what stands behind the two conditions, and where the
  colours that it refers to are declared.
-/

namespace DesignTokens

/-! ### Rules behind a condition -/

/-- The line that opens the rule of a bucket. -/
def selectorLine : Bucket → String
  | .root => ":root \x7b"
  | .dark => ".dark \x7b"
  | .light => ".light \x7b"

/-- The brace that closes the rule of a bucket behind a condition. No empty line follows the rule
of the last bucket. -/
def innerClosing : Bucket → String
  | .root | .dark => "  \x7d\n"
  | .light => "  \x7d"

/-- The hovered and the active state of a colour. -/
def stateLines (name : String) : List String :=
  ["    --" ++ name ++ "-hover: color-mix(in oklch, var(--" ++ name ++ ") 90%, white);",
    "    --" ++ name ++ "-active: color-mix(in oklch, var(--" ++ name ++ ") 80%, black);"]

/-- The lighter and the darker shade of a colour. -/
def shadeLines (name : String) : List String :=
  ["    --" ++ name ++ "-lighter: oklch(from var(--" ++ name ++ ") calc(l * 1.2) c h);",
    "    --" ++ name ++ "-darker: oklch(from var(--" ++ name ++ ") calc(l * 0.8) c h);"]

/-- The names of the accent and action colours of a bucket that can be converted, in the order in
which they are declared and as often. -/
def Emission.actionNames (e : Emission) (b : Bucket) : List String :=
  ((e.declarations b).filter fun d => d.IsAction).map (·.name)

/-- The rules that declare the states of an emission: one for each bucket with such colours, and in
it the states of each of them. -/
def Emission.derivedLines (e : Emission) (states : String → List String) : List String :=
  (Bucket.all.filter fun b => e.actionNames b ≠ []).flatMap fun b =>
    ("  " ++ selectorLine b) :: (e.actionNames b).flatMap states ++ [innerClosing b]

/-- The states that are derived from any declaration are written in certain lines. -/
def WrittenAs (variants : List Variant) (states : String → List String) : Prop :=
  ∀ d : Declaration, variants.map (fun v => (v.declare d).line 4) = states d.name

theorem interactionVariants_writtenAs : WrittenAs interactionVariants stateLines := by
  intro d
  simp only [interactionVariants, List.map_cons, List.map_nil, stateLines, Declaration.line,
    Variant.declare, List.cons.injEq, and_true, ← String.toList_inj]
  constructor <;> simp

theorem shadeVariants_writtenAs : WrittenAs shadeVariants shadeLines := by
  intro d
  simp only [shadeVariants, List.map_cons, List.map_nil, shadeLines, Declaration.line,
    Variant.declare, List.cons.injEq, and_true, ← String.toList_inj]
  constructor <;> simp

variable {e : Emission} {b : Bucket} {variants : List Variant} {states : String → List String}
  {condition : String}

/-- The lines of the derived states are those of the colours that they are derived from. -/
theorem map_line_derive (written : WrittenAs variants states) (e : Emission) (b : Bucket) :
    (derive variants (e.declarations b)).map (Declaration.line 4) =
      (e.actionNames b).flatMap states := by
  have same : (fun d : Declaration => decide d.IsAction) = Declaration.hasStates := by
    funext d
    rw [Bool.eq_iff_iff, decide_eq_true_iff, Declaration.hasStates_iff]
  rw [derive, Emission.actionNames, same, List.map_flatMap, List.flatMap_map]
  refine List.flatMap_congr fun d _ => ?_
  rw [List.map_map]
  exact written d

theorem derive_ne_nil_iff (some : variants ≠ []) :
    derive variants (e.declarations b) ≠ [] ↔ e.actionNames b ≠ [] := by
  rw [derive, Emission.actionNames, Ne, List.flatMap_eq_nil_iff, Ne, List.map_eq_nil_iff,
    List.filter_eq_nil_iff]
  simp [Declaration.hasStates_iff, some]

theorem anyDeclared_derived_iff (e : Emission) (some : variants ≠ []) :
    anyDeclared (e.derived variants) ↔ ∃ b ∈ Bucket.all, e.actionNames b ≠ [] := by
  simp only [anyDeclared, List.any_eq_true, decide_eq_true_eq, e.get_derived,
    derive_ne_nil_iff some]

theorem conditionalLines_derived (e : Emission) (some : variants ≠ [])
    (written : WrittenAs variants states) (b : Bucket) :
    conditionalLines (e.derived variants) b =
      if e.actionNames b ≠ [] then
        ("  " ++ selectorLine b) :: (e.actionNames b).flatMap states ++ [innerClosing b]
      else [] := by
  have opening : "  " ++ themeSelector b ++ " \x7b" = "  " ++ selectorLine b := by
    cases b <;> decide
  have closing : (if b = .light then "  \x7d" else "  \x7d\n") = innerClosing b := by
    cases b <;> decide
  have empty : derive variants (e.declarations b) ≠ [] ↔ _ := derive_ne_nil_iff some
  rw [conditionalLines, e.get_derived, closing, ← map_line_derive written e b]
  simp only [← empty]
  unfold innerRule
  split
  · next none => rw [if_neg (not_not_intro none)]
  · next some => rw [if_pos some, opening]

theorem flatMap_filter {α β : Type} (p : α → Bool) (f : α → List β) (l : List α) :
    (l.filter p).flatMap f = l.flatMap fun x => if p x then f x else [] := by
  induction l with
  | nil => rfl
  | cons x rest ih =>
    cases hx : p x with
    | true => rw [List.filter_cons_of_pos hx, List.flatMap_cons, List.flatMap_cons, hx, ih]; rfl
    | false => rw [List.filter_cons_of_neg (by simp [hx]), List.flatMap_cons, hx, ih]; rfl

/-- **The rules behind a condition** are those of the derived states. -/
theorem flatMap_conditionalLines_derived (e : Emission) (some : variants ≠ [])
    (written : WrittenAs variants states) :
    Bucket.all.flatMap (conditionalLines (e.derived variants)) = e.derivedLines states := by
  rw [Emission.derivedLines, flatMap_filter, funext (conditionalLines_derived e some written)]
  simp only [decide_eq_true_eq]

/-! ### Behind the conditions -/

/-- **What a stylesheet with enhancements has behind a condition**, if it is asked for. -/
structure Emission.StatesBehind (e : Emission) (oklch : Bool) (condition : String) (asked : Bool)
    (states : String → List String) : Prop where
  /-- of all blocks one opens with the condition, with the rules of the states in it, if there are
  colours to derive them from; otherwise there is no such block -/
  block : (e.blocks oklch true).filter (opensBlock condition) =
    if asked ∧ ∃ b ∈ Bucket.all, e.actionNames b ≠ [] then
      ["\n".intercalate (("@supports (" ++ condition ++ ") \x7b") :: e.derivedLines states ++
        ["\x7d"])]
    else []
  /-- in the text, these rules are the lines between the line of the condition and the brace that
  closes it -/
  text : e.Has SingleLine →
    ruleBody? ["@supports (" ++ condition ++ ") \x7b"] "\x7d" (linesOf (e.css oklch true)) =
      if asked ∧ ∃ b ∈ Bucket.all, e.actionNames b ≠ [] then
        some ((e.derivedLines states).flatMap linesOf)
      else none

/-- What the blocks hold is found in the text. -/
theorem statesBehind_of_filter (of : OfStates condition) {oklch asked : Bool}
    (some : variants ≠ []) (written : WrittenAs variants states) (plain : ∀ v ∈ variants, v.Plain)
    (found : (e.blocks oklch true).filter (opensBlock condition) =
      if asked ∧ anyDeclared (e.derived variants) then
        [conditionalBlock condition (e.derived variants)] else []) :
    e.StatesBehind oklch condition asked states := by
  have rules := flatMap_conditionalLines_derived e some written
  have block : (e.blocks oklch true).filter (opensBlock condition) =
      if asked ∧ ∃ b ∈ Bucket.all, e.actionNames b ≠ [] then
        [stack (conditionOpening condition :: e.derivedLines states ++ ["\x7d"])] else [] := by
    simp only [found, anyDeclared_derived_iff e some, ← rules]
    rfl
  refine ⟨block, fun single => ?_⟩
  split
  · next there =>
    rw [if_pos there] at block
    have inner := innerText_conditionalLines (has_of_mem_derived single plain)
    rw [rules] at inner
    exact ruleBody?_of_filter_eq_singleton of single inner block
  · next absent =>
    rw [if_neg absent] at block
    exact ruleBody?_of_filter_eq_nil of single block

/-! ### Declarations in the rules of the buckets -/

/-- **The rule of a bucket** has a line, as a block and in the text. -/
structure Emission.RuleHas (e : Emission) (oklch : Bool) (b : Bucket) (line : String) : Prop where
  block : ∃ lines, selectorLine b ++ "\n".intercalate lines ++ "\n\x7d\n" ∈ e.blocks oklch true ∧
    line ∈ lines
  text : e.Has SingleLine → ∃ body,
    ruleBody? [selectorLine b] "\x7d" (linesOf (e.css oklch true)) = some body ∧
      line.toList ∈ body

/-- What a bucket declares is declared by its rule. -/
theorem Emission.ruleHas_of_mem_declarations {d : Declaration} (mem : d ∈ e.declarations b)
    (oklch : Bool) : e.RuleHas oklch b ("  --" ++ d.name ++ ": " ++ d.value ++ ";") := by
  have opening : themeSelector b ++ " \x7b" = selectorLine b := by cases b <;> decide
  have line : d.line 2 = "  --" ++ d.name ++ ": " ++ d.value ++ ";" := by
    refine String.toList_inj.1 ?_
    simp [Declaration.line]
  rw [← line]
  refine ⟨⟨e.sections.flatMap (sectionLines b), ?_, ?_⟩, fun single => ?_⟩
  · have all : b ∈ Bucket.all := by cases b <;> decide
    rw [← opening]
    simp only [Emission.blocks, themeBlocks, List.mem_append]
    exact .inl (.inl (.inr (.inl (List.mem_map_of_mem all))))
  · obtain ⟨s, hs, hd⟩ := List.mem_flatMap.1 mem
    refine List.mem_flatMap.2 ⟨s, hs, ?_⟩
    unfold sectionLines
    split
    · next none => exact absurd hd (none ▸ List.not_mem_nil)
    · exact List.mem_cons_of_mem _ (List.mem_map_of_mem hd)
  · rw [← opening]
    refine ⟨bodyLines e b, ruleBody?_themeRule single oklch true b, ?_⟩
    have declared : (d.line 2).toList ∈ (bodyLines e b).filter (declaresAt 2) := by
      rw [filter_bodyLines single]
      exact List.mem_map_of_mem mem
    exact List.mem_of_mem_filter declared

/-- **Derived states follow the declarations** bucket by bucket. The text of a stylesheet with
enhancements is its blocks, one below the other. Behind the condition of mixed colours it has, for
each bucket that declares an accent or action colour that can be converted, a rule with the hovered
and the active state of each of its colours, in their order and as often as they are declared; and
without such a colour it has nothing behind that condition. Behind the condition of adjusted
colours there is the same for lighter and darker shades, if colours are converted. The colours that
the states of a bucket refer to are declared by the bucket's own rule. -/
theorem Emission.states_follow_declarations (e : Emission) (oklch : Bool) :
    e.css oklch true = "\n".intercalate (e.blocks oklch true) ++ "\n" ∧
    e.StatesBehind oklch "color: color-mix(in oklch, red, blue)" true stateLines ∧
    e.StatesBehind oklch "color: oklch(from red l c h)" oklch shadeLines ∧
    ∀ b, ∀ name ∈ e.actionNames b, ∃ d ∈ e.declarations b, d.name = name ∧
      e.RuleHas oklch b ("  --" ++ name ++ ": " ++ d.value ++ ";") := by
  have variants : interactionVariants ≠ [] ∧ shadeVariants ≠ [] :=
    ⟨List.cons_ne_nil _ _, List.cons_ne_nil _ _⟩
  refine ⟨rfl, ?_, ?_, fun b name mem => ?_⟩
  · refine statesBehind_of_filter (.inl rfl) variants.1 interactionVariants_writtenAs
      plain_interactionVariants ?_
    simpa only [true_and] using filter_opensBlock_mixes oklch e
  · exact statesBehind_of_filter (.inr rfl) variants.2 shadeVariants_writtenAs plain_shadeVariants
      (filter_opensBlock_adjusts oklch e)
  · obtain ⟨d, hd, rfl⟩ := List.mem_map.1 mem
    have declared := List.mem_of_mem_filter hd
    exact ⟨d, declared, rfl, Emission.ruleHas_of_mem_declarations declared oklch⟩

/-- The shared declarations have an accent colour twice and one that cannot be converted, the dark
theme has another accent colour, and the light theme has none: two rules with states. Without
converted colours there are no shades. -/
theorem repeated_accent_has_states_twice :
    let shared := fun value : String =>
      ({ name := "color-accent-a", value := value } : Declaration)
    let e : Emission :=
      { sections :=
          [{ label := "colors"
             declarations :=
               { root := [shared "#111",
                   { name := "color-accent-b", value := "red", unparseable := true },
                   { name := "color-text", value := "#000" }, shared "#222"]
                 dark := [{ name := "color-accent-c", value := "#333" }]
                 light := [{ name := "color-text", value := "#444" }] } }]
        derivations := [] }
    let lines := linesOf (e.css false true)
    ruleBody? ["@supports (color: color-mix(in oklch, red, blue)) \x7b"] "\x7d" lines =
      some ([
        "  :root \x7b",
        "    --color-accent-a-hover: color-mix(in oklch, var(--color-accent-a) 90%, white);",
        "    --color-accent-a-active: color-mix(in oklch, var(--color-accent-a) 80%, black);",
        "    --color-accent-a-hover: color-mix(in oklch, var(--color-accent-a) 90%, white);",
        "    --color-accent-a-active: color-mix(in oklch, var(--color-accent-a) 80%, black);",
        "  \x7d",
        "",
        "  .dark \x7b",
        "    --color-accent-c-hover: color-mix(in oklch, var(--color-accent-c) 90%, white);",
        "    --color-accent-c-active: color-mix(in oklch, var(--color-accent-c) 80%, black);",
        "  \x7d",
        ""].map String.toList) ∧
    ruleBody? ["@supports (color: oklch(from red l c h)) \x7b"] "\x7d" lines = none ∧
    ∃ body, ruleBody? [".dark \x7b"] "\x7d" lines = some body ∧
      "  --color-accent-c: #333;".toList ∈ body := by
  intro shared e lines
  have single : e.Has SingleLine := by decide
  obtain ⟨-, mixed, adjusted, declared⟩ := Emission.states_follow_declarations e false
  refine ⟨(mixed.text single).trans (by decide +kernel),
    (adjusted.text single).trans (by decide), ?_⟩
  obtain ⟨d, hd, -, rule⟩ := declared .dark "color-accent-c" (by decide)
  obtain rfl : d = { name := "color-accent-c", value := "#333" } := by
    simpa [e, Emission.declarations, ByBucket.get] using hd
  exact rule.text single

end DesignTokens
