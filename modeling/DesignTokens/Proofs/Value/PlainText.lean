import DesignTokens.Proofs.Alias.Writing

/-!
# What stands in a plain text

The plain text of a value is put in where an alias is part of a longer text. A number is written
with digits and a few other characters (`mem_intText`, `mem_binaryText`), so an opening or a
closing brace comes from a text.

* `Value.Writes.infix_text` — an alias that a value writes stands in its plain text.
* `Value.Strays` — the value has a brace, or another character, outside its aliases.
* `Value.Strays.mem_text` — such a character is in the plain text. Where there are no texts and no
  fields, nothing else is in it as far as braces go (`Value.strays_of_mem_text`).
-/

namespace DesignTokens

/-! ### Numbers -/

namespace Decimal

/-- The characters that a number can be written with. -/
def IsNumberChar (c : Char) : Prop :=
  c.isDigit ∨ c ∈ ['-', '+', '.', 'e', 'i', 'n', 'f', 'a']

instance (c : Char) : Decidable (IsNumberChar c) :=
  inferInstanceAs (Decidable (_ ∨ _))

theorem isNumberChar_of_all {text : List Char}
    (h : text.all (fun c => decide (IsNumberChar c)) = true) : ∀ c ∈ text, IsNumberChar c :=
  fun c hc => of_decide_eq_true (List.all_eq_true.1 h c hc)

theorem mem_natText {n : Nat} : ∀ c ∈ natText n, IsNumberChar c :=
  fun _ hc => Or.inl (Nat.isDigit_of_mem_toDigits (by decide) (by decide) hc)

theorem mem_intText {n : Int} : ∀ c ∈ intText n, IsNumberChar c := by
  cases n with
  | ofNat n => exact mem_natText
  | negSucc n => exact List.forall_mem_cons.2 ⟨by decide, mem_natText⟩

theorem mem_exponentText {exponent : Int} : ∀ c ∈ exponentText exponent, IsNumberChar c := by
  rw [exponentText, List.forall_mem_cons]
  refine ⟨by split <;> decide, ?_⟩
  split
  · exact List.forall_mem_cons.2 ⟨by decide, mem_natText⟩
  · exact mem_natText

theorem mem_scaledText {d : Scaled} : ∀ c ∈ d.text, IsNumberChar c := by
  have digits : ∀ c ∈ natText d.digits, IsNumberChar c := mem_natText
  have taken : ∀ n, ∀ c ∈ (natText d.digits).take n, IsNumberChar c :=
    fun n c hc => digits c (List.mem_of_mem_take hc)
  have dropped : ∀ n, ∀ c ∈ (natText d.digits).drop n, IsNumberChar c :=
    fun n c hc => digits c (List.mem_of_mem_drop hc)
  have zeros : ∀ n, ∀ c ∈ List.replicate n '0', IsNumberChar c := by
    intro n c hc
    rw [List.eq_of_mem_replicate hc]
    decide
  rw [Scaled.text]
  split
  · split
    · simp only [List.forall_mem_append]
      exact ⟨⟨digits, zeros _⟩, isNumberChar_of_all (by decide)⟩
    split
    · simp only [List.forall_mem_append, List.forall_mem_cons]
      exact ⟨taken _, by decide, dropped _⟩
    · simp only [List.forall_mem_append]
      exact ⟨⟨isNumberChar_of_all (by decide), zeros _⟩, digits⟩
  · simp only [List.forall_mem_append, List.forall_mem_cons]
    refine ⟨⟨taken _, ?_⟩, by decide, mem_exponentText⟩
    split
    · simp
    · exact List.forall_mem_cons.2 ⟨by decide, dropped _⟩

theorem mem_binaryText {x : Binary} : ∀ c ∈ x.text, IsNumberChar c := by
  cases x with
  | notANumber => exact isNumberChar_of_all (by decide)
  | infinite negative => cases negative <;> exact isNumberChar_of_all (by decide)
  | finite negative mantissa exponent =>
    have magnitude : ∀ c ∈ (if mantissa = 0 then "0.0".toList else
        (shortest mantissa exponent).text), IsNumberChar c := by
      split
      · exact isNumberChar_of_all (by decide)
      · exact mem_scaledText
    rw [Binary.text]
    split
    · exact List.forall_mem_cons.2 ⟨by decide, magnitude⟩
    · exact magnitude

end Decimal

namespace Value

theorem mem_floatText {x : Float} : ∀ c ∈ (floatText x).toList, Decimal.IsNumberChar c := by
  rw [floatText]
  split
  · rw [String.toList_ofList]
    exact Decimal.mem_intText
  · rw [Decimal.floatText, String.toList_ofList]
    exact Decimal.mem_binaryText

/-! ### The fields of an object -/

/-- What is put between separators stands in the whole. -/
theorem infix_intercalate {α : Type} {separator part : List α} {parts : List (List α)}
    (mem : part ∈ parts) : part <:+: separator.intercalate parts := by
  induction parts with
  | nil => cases mem
  | cons first rest ih =>
    cases rest with
    | nil =>
      obtain rfl := List.mem_singleton.1 mem
      exact ⟨[], [], by simp⟩
    | cons second rest =>
      rw [List.intercalate_cons_cons, List.append_assoc]
      rcases List.mem_cons.1 mem with rfl | mem
      · exact (List.prefix_append _ _).isInfix
      · refine (ih mem).trans (List.IsSuffix.isInfix ?_)
        exact (List.suffix_append separator _).trans (List.suffix_append _ _)

/-- What stands in the whole is in a separator or in a part. -/
theorem mem_intercalate_cases {α : Type} {separator : List α} {parts : List (List α)} {c : α}
    (mem : c ∈ separator.intercalate parts) : c ∈ separator ∨ ∃ part ∈ parts, c ∈ part := by
  induction parts with
  | nil => cases mem
  | cons first rest ih =>
    cases rest with
    | nil =>
      rw [List.intercalate_singleton] at mem
      exact Or.inr ⟨first, List.mem_cons_self, mem⟩
    | cons second rest =>
      rw [List.intercalate_cons_cons, List.append_assoc] at mem
      rcases List.mem_append.1 mem with mem | mem
      · exact Or.inr ⟨first, List.mem_cons_self, mem⟩
      rcases List.mem_append.1 mem with mem | mem
      · exact Or.inl mem
      rcases ih mem with between | ⟨part, hpart, mem⟩
      · exact Or.inl between
      · exact Or.inr ⟨part, List.mem_cons_of_mem _ hpart, mem⟩

theorem toList_text_object (fields : Fields) :
    (object fields).text.toList = [' '].intercalate (fields.map fun f => f.2.text.toList) := by
  rw [text, String.toList_intercalate, fieldTexts_eq_map, List.map_map]
  rfl

/-- The text of a field stands in the text of the object. -/
theorem infix_text_of_mem {fields : Fields} {field : String × Value} (mem : field ∈ fields) :
    field.2.text.toList <:+: (object fields).text.toList := by
  rw [toList_text_object]
  exact infix_intercalate (List.mem_map_of_mem mem)

/-- **An alias that a value writes stands in its plain text.** -/
theorem Writes.infix_text {value : Value} {path : String} (writes : value.Writes path) :
    Alias.IsAliasName path ∧ (Alias.aliasText path).toList <:+: value.text.toList := by
  induction writes with
  | text name stands => exact ⟨name, stands⟩
  | field mem _ ih => exact ⟨ih.1, ih.2.trans (infix_text_of_mem mem)⟩

/-! ### Braces outside aliases -/

/-- A character **strays** in a value when it stands outside the aliases of one of its texts; the
aliases in a list are none, so there it may stand anywhere. -/
inductive Strays (c : Char) : Value → Prop
  | text {text : String} (outside : .literal c ∈ Alias.scan text.toList) : Strays c (.str text)
  | list {items : List Value} (mem : c ∈ (Value.list items).text.toList) : Strays c (.list items)
  | field {fields : Fields} {key : String} {value : Value} (mem : (key, value) ∈ fields)
      (inner : Strays c value) : Strays c (.object fields)

theorem Strays.mem_text {c : Char} {value : Value} (strays : value.Strays c) :
    c ∈ value.text.toList := by
  induction strays with
  | @text text outside =>
    have mem : c ∈ (Alias.scan text.toList).flatMap Alias.Piece.source :=
      List.mem_flatMap.2 ⟨_, outside, List.mem_singleton.2 rfl⟩
    rwa [Alias.scan_source] at mem
  | list mem => exact mem
  | field mem _ ih => exact (infix_text_of_mem mem).subset ih

/-- Where there is no text and no field, a brace comes from a list. -/
theorem strays_of_mem_text {c : Char} {value : Value} (brace : c = '{' ∨ c = '}')
    (noText : ∀ text, value ≠ .str text) (noObject : ∀ fields, value ≠ .object fields)
    (mem : c ∈ value.text.toList) : value.Strays c := by
  have noNumber : ¬ Decimal.IsNumberChar c := by
    rcases brace with rfl | rfl <;> decide
  cases value with
  | null => cases mem
  | bool b => cases b <;> rcases brace with rfl | rfl <;> exact absurd mem (by decide)
  | int n =>
    rw [text, String.toList_ofList] at mem
    exact absurd (Decimal.mem_intText c mem) noNumber
  | float x => exact absurd (mem_floatText c mem) noNumber
  | str text => exact absurd rfl (noText text)
  | list items => exact .list mem
  | object fields => exact absurd rfl (noObject fields)

end Value

end DesignTokens
