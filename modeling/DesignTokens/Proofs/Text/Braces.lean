import DesignTokens.Text.Lines
import Mathlib.Data.List.Basic

/-!
# Braces

A text is balanced if, read from left to right, it never closes more braces than it has opened, and
if in the end it has closed all of them. Reading it with a counter decides this, and the counter
can be carried from one text to the next.

* `depthAfter?` — the number of open braces after a text, unless it closes one that is not open.
* `depthAfter?_eq_some_iff` — what the counter counts; `balanced_iff` — it decides `Balanced`.
* `depthAfter?_add` — more braces around a text change nothing inside of it.
* `depthAfter?_append`, `depthAfter?_indent` — texts one after the other, and moved to the right.
-/

namespace DesignTokens.Text

/-- A text closes the braces that it opens, and no others. -/
structure Balanced (text : List Char) : Prop where
  /-- on the way, no brace is closed that is not open -/
  closes : ∀ front, front <+: text → front.count '}' ≤ front.count '{'
  /-- in the end, no brace is open -/
  settled : text.count '}' = text.count '{'

/-- The number of open braces after a character. -/
def braceStep (depth : Nat) (c : Char) : Option Nat :=
  if c = '{' then some (depth + 1)
  else if c = '}' then
    match depth with
    | 0 => none
    | outer + 1 => some outer
  else some depth

/-- The number of open braces after a text, if it closes only braces that are open. -/
def depthAfter? (depth : Nat) (text : List Char) : Option Nat :=
  text.foldlM braceStep depth

variable {depth depth' : Nat} {text : List Char}

theorem depthAfter?_append (depth : Nat) (first second : List Char) :
    depthAfter? depth (first ++ second) =
      (depthAfter? depth first).bind fun between => depthAfter? between second :=
  List.foldlM_append

/-! ### What is counted -/

theorem depthAfter?_open (depth : Nat) (rest : List Char) :
    depthAfter? depth ('{' :: rest) = depthAfter? (depth + 1) rest :=
  rfl

theorem depthAfter?_close_zero (rest : List Char) : depthAfter? 0 ('}' :: rest) = none :=
  rfl

theorem depthAfter?_close_succ (depth : Nat) (rest : List Char) :
    depthAfter? (depth + 1) ('}' :: rest) = depthAfter? depth rest :=
  rfl

theorem depthAfter?_other {c : Char} (opens : c ≠ '{') (closes : c ≠ '}') (depth : Nat)
    (rest : List Char) : depthAfter? depth (c :: rest) = depthAfter? depth rest := by
  have step : braceStep depth c = some depth := (if_neg opens).trans (if_neg closes)
  rw [depthAfter?, List.foldlM_cons, step]
  rfl

/-- What holds of all prefixes of a text holds of the empty one and of those with its first
character. -/
theorem forall_prefix_cons {p : List Char → Prop} {c : Char} {rest : List Char} :
    (∀ front, front <+: c :: rest → p front) ↔ p [] ∧ ∀ front, front <+: rest → p (c :: front) := by
  constructor
  · intro all
    exact ⟨all [] List.nil_prefix, fun front pre => all _ ((List.prefix_cons_inj c).2 pre)⟩
  · rintro ⟨empty, longer⟩ front pre
    rcases List.prefix_cons_iff.1 pre with rfl | ⟨inner, rfl, within⟩
    · exact empty
    · exact longer inner within

/-- **The counter counts.** Reading a text below a number of open braces goes through exactly if on
the way it never closes more braces than are open, and the difference is what is open after it. -/
theorem depthAfter?_eq_some_iff :
    depthAfter? depth text = some depth' ↔
      (∀ front, front <+: text → front.count '}' ≤ depth + front.count '{') ∧
        text.count '}' + depth' = depth + text.count '{' := by
  induction text generalizing depth with
  | nil =>
    simp only [depthAfter?, List.foldlM_nil, List.prefix_nil, forall_eq, List.count_nil]
    change some depth = some depth' ↔ _
    rw [Option.some.injEq]
    omega
  | cons c rest ih =>
    -- the prefixes but the empty one begin with the first character, so what this opens or closes
    -- counts for all of them
    rw [forall_prefix_cons]
    by_cases opens : c = '{'
    · subst opens
      have other : '{' ≠ '}' := by decide
      simp only [depthAfter?_open, ih, List.count_cons_self, List.count_cons_of_ne other,
        List.count_nil, Nat.zero_le, true_and, Nat.add_assoc, Nat.add_comm 1]
    · by_cases closes : c = '}'
      · subst closes
        have other : '}' ≠ '{' := by decide
        cases depth with
        | zero =>
          -- nothing is open, and the prefix of this one brace closes it
          simp only [depthAfter?_close_zero, List.count_cons_self, List.count_cons_of_ne other]
          refine iff_of_false (fun h => nomatch h) ?_
          rintro ⟨⟨-, onTheWay⟩, -⟩
          exact absurd (onTheWay [] List.nil_prefix) (by decide)
        | succ depth =>
          simp only [depthAfter?_close_succ, ih, List.count_cons_self, List.count_cons_of_ne other,
            List.count_nil, Nat.zero_le, true_and, Nat.add_right_comm _ 1, Nat.add_le_add_iff_right,
            Nat.add_right_cancel_iff]
      · simp only [depthAfter?_other opens closes, ih, List.count_cons_of_ne opens,
          List.count_cons_of_ne closes, List.count_nil, Nat.zero_le, true_and]

/-- The counter decides whether a text is balanced. -/
theorem balanced_iff : Balanced text ↔ depthAfter? 0 text = some 0 := by
  rw [depthAfter?_eq_some_iff]
  simp only [Nat.zero_add, Nat.add_zero]
  exact ⟨fun h => ⟨h.closes, h.settled⟩, fun h => ⟨h.1, h.2⟩⟩

instance (text : List Char) : Decidable (Balanced text) :=
  decidable_of_iff _ balanced_iff.symm

/-- **More braces around a text** change nothing inside of it. -/
theorem depthAfter?_add (more : Nat) (reads : depthAfter? depth text = some depth') :
    depthAfter? (more + depth) text = some (more + depth') := by
  rw [depthAfter?_eq_some_iff] at reads ⊢
  obtain ⟨onTheWay, after⟩ := reads
  refine ⟨fun front pre => ?_, by omega⟩
  have here := onTheWay front pre
  omega

/-! ### Texts without braces, and moved texts -/

theorem depthAfter?_of_forall (none : ∀ c ∈ text, c ≠ '{' ∧ c ≠ '}') (depth : Nat) :
    depthAfter? depth text = some depth := by
  induction text with
  | nil => rfl
  | cons c rest ih =>
    rw [List.forall_mem_cons] at none
    rw [depthAfter?_other none.1.1 none.1.2, ih none.2]

theorem depthAfter?_indentLine (depth : Nat) (line : List Char) :
    depthAfter? depth (indentLine line) = depthAfter? depth line := by
  cases line <;> rfl

/-- A text is read line by line. -/
theorem depthAfter?_unlines (depth : Nat) (texts : List (List Char)) :
    depthAfter? depth (unlines texts) = texts.foldlM depthAfter? depth := by
  induction texts generalizing depth with
  | nil => rfl
  | cons line more ih =>
    rw [List.foldlM_cons]
    by_cases last : more = []
    · subst last
      change depthAfter? depth line = (depthAfter? depth line).bind some
      rw [Option.bind_fun_some]
    · have below : unlines (line :: more) = line ++ '\n' :: unlines more := join_cons last
      rw [below, depthAfter?_append]
      refine Option.bind_congr fun between _ => ?_
      rw [depthAfter?_other (by decide) (by decide), ih]

/-- **A text that is moved to the right** opens and closes what it did. -/
theorem depthAfter?_indent (depth : Nat) (text : List Char) :
    depthAfter? depth (indent text) = depthAfter? depth text := by
  have same : (fun depth line => depthAfter? depth (indentLine line)) = depthAfter? := by
    funext depth line
    exact depthAfter?_indentLine depth line
  calc depthAfter? depth (indent text)
    _ = ((lines text).map indentLine).foldlM depthAfter? depth := depthAfter?_unlines depth _
    _ = (lines text).foldlM depthAfter? depth := by rw [List.foldlM_map, same]
    _ = depthAfter? depth (unlines (lines text)) := (depthAfter?_unlines depth _).symm
    _ = depthAfter? depth text := by rw [unlines_lines]

end DesignTokens.Text
