import DesignTokens.Proofs.Stylesheet.Texts
import Mathlib.Data.List.TakeWhile

/-!
# Accent and action colours

The colours that enhancements derive states from are told by their names: an accent colour or one of
the modeless colours, but neither a shadow nor an overlay, nor a variant that is numbered by its
opacity.

* `NamesAction` — the names of accent and action colours; `isStateful_iff`.
* `Declaration.IsAction` — a declaration of such a colour that can be converted; `hasStates_iff`.
-/

namespace DesignTokens

/-- A text ends in a dash and a number, up to one line feed after it. -/
def EndsInNumber (text : List Char) : Prop :=
  ∃ front digits, digits ≠ [] ∧ (∀ c ∈ digits, Text.isDigit c) ∧
    (text = front ++ '-' :: digits ∨ text = front ++ '-' :: digits ++ ['\n'])

/-- A name is that of an accent or action colour. -/
def NamesAction (name : String) : Prop :=
  ∃ rest, name.toList = "color-".toList ++ rest ∧
    ¬"shadow-".toList <+: rest ∧ ¬"overlay".toList <:+: rest ∧ ¬EndsInNumber rest ∧
    ("accent-".toList <+: rest ∨
      "modeless-".toList <+: rest ∧ ¬"white".toList <:+: rest ∧ ¬"black".toList <:+: rest)

/-- Whether a text begins with a number and a dash. -/
def beginsWithNumber (text : List Char) : Bool :=
  match text.takeWhile Text.isDigit, text.dropWhile Text.isDigit with
  | _ :: _, '-' :: _ => true
  | _, _ => false

theorem beginsWithNumber_iff {text : List Char} :
    beginsWithNumber text ↔
      ∃ digits rest, digits ≠ [] ∧ (∀ c ∈ digits, Text.isDigit c) ∧
        text = digits ++ '-' :: rest := by
  constructor
  · intro begins
    unfold beginsWithNumber at begins
    split at begins
    · next first more after digits rest =>
      refine ⟨first :: more, after, List.cons_ne_nil _ _, fun c mem => ?_, ?_⟩
      · exact List.mem_takeWhile_imp (digits ▸ mem)
      · rw [← digits, ← rest, List.takeWhile_append_dropWhile]
    · exact nomatch begins
  · rintro ⟨digits, rest, some, all, rfl⟩
    have dash : ¬Text.isDigit '-' := by decide
    rw [beginsWithNumber, List.takeWhile_append_of_pos all, List.dropWhile_append_of_pos all,
      List.takeWhile_cons_of_neg dash, List.dropWhile_cons_of_neg dash, List.append_nil]
    cases digits with
    | nil => exact absurd rfl some
    | cons _ _ => rfl

/-- Read backwards, a text that ends in a dash and a number begins with them. -/
theorem beginsWithNumber_reverse_iff {text : List Char} :
    beginsWithNumber text.reverse ↔
      ∃ front digits, digits ≠ [] ∧ (∀ c ∈ digits, Text.isDigit c) ∧
        text = front ++ '-' :: digits := by
  rw [beginsWithNumber_iff]
  constructor
  · rintro ⟨digits, rest, some, all, cut⟩
    refine ⟨rest.reverse, digits.reverse, by simpa, by simpa, ?_⟩
    rw [← text.reverse_reverse, cut]
    simp
  · rintro ⟨front, digits, some, all, rfl⟩
    exact ⟨digits.reverse, front.reverse, by simpa, by simpa, by simp⟩

/-- A text read from its end, without a line feed there. -/
def afterNewline : List Char → List Char
  | '\n' :: rest => rest
  | all => all

theorem endsInNumber_eq (text : List Char) :
    endsInNumber text = beginsWithNumber (afterNewline text.reverse) :=
  rfl

theorem endsInNumber_iff {text : List Char} : endsInNumber text ↔ EndsInNumber text := by
  rw [endsInNumber_eq, afterNewline.eq_def]
  split
  · next rest backwards =>
    -- one line feed at the end is passed over, and a number does not end in one
    obtain rfl : text = rest.reverse ++ ['\n'] := by
      rw [← text.reverse_reverse, backwards, List.reverse_cons]
    rw [← rest.reverse_reverse, beginsWithNumber_reverse_iff, List.reverse_reverse]
    refine exists_congr fun front => exists_congr fun digits => and_congr_right fun some =>
      and_congr_right fun all => ?_
    rw [List.append_left_inj]
    refine ⟨.inr, fun ends => ends.elim (fun cut => ?_) id⟩
    obtain ⟨more, last, rfl⟩ := (List.eq_nil_or_concat' digits).resolve_left some
    have newline : '\n' = last := by
      have ends := congrArg List.getLast? cut
      rw [← List.cons_append, ← List.append_assoc, List.getLast?_concat,
        List.getLast?_concat] at ends
      exact Option.some.inj ends
    exact absurd (all last (by simp)) (newline ▸ by decide)
  · next other =>
    rw [beginsWithNumber_reverse_iff]
    refine exists_congr fun front => exists_congr fun digits => and_congr_right fun some =>
      and_congr_right fun all => ⟨.inl, fun ends => ends.elim id fun cut => ?_⟩
    exact absurd (by rw [cut, List.reverse_concat]) (other _)

/-- **Accent and action colours** are told by their names. -/
theorem isStateful_iff {name : String} : isStateful name ↔ NamesAction name := by
  unfold isStateful NamesAction
  split
  · next none =>
    refine ⟨fun stateful => absurd stateful Bool.false_ne_true, ?_⟩
    rintro ⟨rest, cut, -⟩
    rw [Text.afterPrefix?_eq_some_iff.2 cut] at none
    exact nomatch none
  · next rest found =>
    rw [Text.afterPrefix?_eq_some_iff] at found
    simp only [found, List.append_cancel_left_eq, exists_eq_left', ← endsInNumber_iff,
      ← Text.occursIn_iff, ← List.isPrefixOf_iff_prefix]
    simp only [Bool.if_false_left, Bool.and_eq_true, Bool.or_eq_true, Bool.not_eq_true',
      Bool.not_eq_true, decide_eq_false_iff_not, not_or, and_assoc]

/-- A declaration of an accent or action colour that can be converted. -/
structure Declaration.IsAction (d : Declaration) : Prop where
  named : NamesAction d.name
  convertible : d.unparseable = false

theorem Declaration.hasStates_iff {d : Declaration} : d.hasStates ↔ d.IsAction := by
  rw [hasStates, Bool.and_eq_true, Bool.not_eq_true', isStateful_iff]
  exact ⟨fun h => ⟨h.2, h.1⟩, fun h => ⟨h.2, h.1⟩⟩

instance (d : Declaration) : Decidable d.IsAction :=
  decidable_of_iff _ Declaration.hasStates_iff

end DesignTokens
