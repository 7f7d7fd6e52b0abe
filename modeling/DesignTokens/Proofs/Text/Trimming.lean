import DesignTokens.Text.Blank
import Mathlib.Data.List.DropRight
import Mathlib.Data.List.TakeWhile

/-!
# Trimmed texts

Trimming removes blanks at both ends of a text and nothing else.

* `dropEndWhile_eq_rdropWhile` — dropping from the end, in terms of the list library.
* `inBlanks_trim` — a text is its trimmed form between blanks.
* `trim_eq_iff_inBlanks` — a text that neither begins nor ends with a blank is the trimmed form of
  those that have it between blanks.
* `IsTrimmed` — what trimming leaves (`isTrimmed_trim`) and leaves alone (`IsTrimmed.trim_eq`).
* `trim_map` — a change of characters that keeps the blanks may be made before or after; a change
  of case is one (`isBlank_toLower`).
-/

namespace DesignTokens.Text

variable {p : Char → Bool} {core text after : List Char}

/-! ### Dropping from the end -/

theorem dropEndWhile_eq_rdropWhile (p : Char → Bool) (text : List Char) :
    dropEndWhile p text = text.rdropWhile p := by
  induction text with
  | nil => rfl
  | cons c rest ih =>
    simp only [dropEndWhile, ih, List.rdropWhile, List.reverse_cons, List.dropWhile_append]
    cases hrest : rest.reverse.dropWhile p with
    | nil => cases hc : p c <;> simp [hc]
    | cons d kept =>
      cases hkept : (d :: kept).reverse with
      | nil => simp at hkept
      | cons first others => simp [← hkept]

/-- A run of the class at the end is dropped as far as it goes. -/
theorem dropEndWhile_append (h : ∀ c ∈ after, p c = true) :
    dropEndWhile p (text ++ after) = dropEndWhile p text := by
  simp only [dropEndWhile_eq_rdropWhile, List.rdropWhile, List.reverse_append]
  rw [List.dropWhile_append_of_pos (by simpa using h)]

/-- A text that ends in no character of the class stays. -/
theorem dropEndWhile_eq_self (h : ∀ c ∈ text.getLast?, p c = false) :
    dropEndWhile p text = text := by
  rw [dropEndWhile_eq_rdropWhile, List.rdropWhile_eq_self_iff]
  intro nonempty
  simp [h _ (List.getLast?_eq_some_getLast nonempty)]

/-- What is left ends in no character of the class. -/
theorem eq_false_of_getLast?_dropEndWhile :
    ∀ c ∈ (dropEndWhile p text).getLast?, p c = false := by
  intro c hc
  obtain ⟨nonempty, rfl⟩ := List.mem_getLast?_eq_getLast hc
  exact getLast_dropEndWhile p text nonempty

theorem eq_of_mem_rtakeWhile {c : Char} (h : c ∈ text.rtakeWhile p) : p c = true := by
  simp only [List.rtakeWhile, List.mem_reverse] at h
  exact List.mem_takeWhile_imp h

/-- A character that is not of the class stays, with all that stands before it. -/
theorem dropEndWhile_append_cons {c : Char} (h : p c = false) (front : List Char) :
    dropEndWhile p (front ++ c :: after) = front ++ c :: dropEndWhile p after := by
  have split : after = dropEndWhile p after ++ after.rtakeWhile p := by
    rw [dropEndWhile_eq_rdropWhile, List.rdropWhile_append_rtakeWhile]
  conv_lhs => rw [split, ← List.cons_append, ← List.append_assoc]
  rw [dropEndWhile_append fun c => eq_of_mem_rtakeWhile, dropEndWhile_eq_self fun last hlast => ?_]
  rw [List.getLast?_append_of_ne_nil _ (by simp)] at hlast
  cases kept : dropEndWhile p after with
  | nil =>
    rw [kept] at hlast
    rwa [← Option.some.inj hlast]
  | cons first rest =>
    rw [List.getLast?_cons_of_ne_nil (by simp [kept])] at hlast
    exact eq_false_of_getLast?_dropEndWhile last hlast

theorem dropEndWhile_map {f : Char → Char} (h : ∀ c, p (f c) = p c) (text : List Char) :
    dropEndWhile p (text.map f) = (dropEndWhile p text).map f := by
  simp only [dropEndWhile_eq_rdropWhile, List.rdropWhile, ← List.map_reverse, List.dropWhile_map]
  have classes : p ∘ f = p := funext h
  rw [classes]

/-! ### Blanks at both ends -/

/-- The second text is the first with nothing but blanks before and after it. -/
def InBlanks (core text : List Char) : Prop :=
  ∃ before after, text = before ++ core ++ after ∧
    (∀ c ∈ before, isBlank c = true) ∧ ∀ c ∈ after, isBlank c = true

theorem inBlanks_self (text : List Char) : InBlanks text text :=
  ⟨[], [], by simp, by simp, by simp⟩

/-- A text is its trimmed form between blanks. -/
theorem inBlanks_trim (text : List Char) : InBlanks (trim text) text := by
  refine ⟨text.takeWhile isBlank, (text.dropWhile isBlank).rtakeWhile isBlank, ?_,
    fun c => List.mem_takeWhile_imp, fun c => eq_of_mem_rtakeWhile⟩
  rw [trim, dropEndWhile_eq_rdropWhile, List.append_assoc, List.rdropWhile_append_rtakeWhile,
    List.takeWhile_append_dropWhile]

/-- A text that neither begins nor ends with a blank is the trimmed form of those that have it
between blanks. -/
theorem trim_eq_iff_inBlanks (hfirst : ∀ c ∈ core.head?, isBlank c = false)
    (hlast : ∀ c ∈ core.getLast?, isBlank c = false) : trim text = core ↔ InBlanks core text := by
  constructor
  · rintro rfl
    exact inBlanks_trim text
  · rintro ⟨before, after, rfl, hbefore, hafter⟩
    rw [trim, List.append_assoc, List.dropWhile_append_of_pos hbefore]
    cases core with
    -- between blanks there may be nothing, and then the first run takes all
    | nil => simp [List.dropWhile_eq_nil_iff.2 hafter]
    | cons c rest =>
      have first : isBlank c = false := hfirst c rfl
      rw [List.cons_append, List.dropWhile_cons_of_neg (by simp [first]), ← List.cons_append,
        dropEndWhile_append hafter, dropEndWhile_eq_self hlast]

/-- A change of characters that keeps the blanks may be made before or after trimming. -/
theorem trim_map {f : Char → Char} (h : ∀ c, isBlank (f c) = isBlank c) (text : List Char) :
    trim (text.map f) = (trim text).map f := by
  have classes : isBlank ∘ f = isBlank := funext h
  rw [trim, List.dropWhile_map, classes, dropEndWhile_map h, trim]

/-- A text that neither begins nor ends with a blank. -/
structure IsTrimmed (text : List Char) : Prop where
  head : ∀ c ∈ text.head?, isBlank c = false
  last : ∀ c ∈ text.getLast?, isBlank c = false

theorem IsTrimmed.trim_eq (trimmed : IsTrimmed text) : trim text = text :=
  (trim_eq_iff_inBlanks trimmed.head trimmed.last).2 (inBlanks_self text)

theorem isTrimmed_trim (text : List Char) : IsTrimmed (trim text) := by
  refine ⟨fun c hc => ?_, eq_false_of_getLast?_dropEndWhile⟩
  -- what is left begins as it did before blanks were dropped at the end
  obtain ⟨dropped, whole⟩ := List.rdropWhile_prefix isBlank (text.dropWhile isBlank)
  rw [trim, dropEndWhile_eq_rdropWhile] at hc
  have first : c ∈ (text.dropWhile isBlank).head? := by
    rw [← whole]
    exact List.mem_head?_append_of_mem_head? hc
  have kept := List.head?_dropWhile_not isBlank text
  rw [Option.mem_def.1 first] at kept
  exact kept

/-! ### Characters of ASCII -/

/-- The printed characters of ASCII are no blanks. -/
theorem isBlank_eq_false_of_printed {c : Char} (low : 0x21 ≤ c.toNat) (high : c.toNat < 0x80) :
    isBlank c = false := by
  rw [isBlank, ← Bool.not_eq_true, inRanges_iff]
  simp only [blankRanges, List.mem_cons, List.not_mem_nil, or_false]
  rintro ⟨range, hrange, hc⟩
  rcases hrange with rfl | rfl | rfl | rfl | rfl | rfl | rfl | rfl | rfl | rfl <;>
    (simp only at hc; omega)

theorem toNat_toLower (c : Char) :
    c.toLower.toNat = if 65 ≤ c.toNat ∧ c.toNat ≤ 90 then c.toNat + 32 else c.toNat := by
  have shift : ('a'.val - 'A'.val).toNat = 32 := by decide
  by_cases capital : 65 ≤ c.toNat ∧ c.toNat ≤ 90
  · have moved : c.toLower = ⟨c.val + ('a'.val - 'A'.val), _⟩ := dif_pos capital
    have bound : c.val.toNat ≤ 90 := capital.2
    rw [if_pos capital, moved]
    simp only [Char.toNat, UInt32.toNat_add, shift]
    omega
  · have kept : c.toLower = c := dif_neg capital
    rw [if_neg capital, kept]

/-- A change of case neither makes a blank nor takes one away. -/
theorem isBlank_toLower (c : Char) : isBlank c.toLower = isBlank c := by
  have number := toNat_toLower c
  split at number
  next capital =>
    rw [isBlank_eq_false_of_printed (by omega) (by omega),
      isBlank_eq_false_of_printed (by omega) (by omega)]
  next => simp only [isBlank, inRanges, number]

end DesignTokens.Text
