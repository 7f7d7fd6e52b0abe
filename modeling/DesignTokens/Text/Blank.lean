import DesignTokens.Text.Ranges

/-!
# Blank characters

What counts as white space when a colour is read or a text is trimmed: the
characters with the white-space property, and with them the four information
separators U+001C to U+001F.

* `isBlank` decides the class from its ranges.
* `trim` removes blanks at both ends of a text.
* `dropEndWhile` is `List.dropWhile` from the other end; it recurses on the list, so
  that a statement about the end of a text is an induction and not a double reversal.
-/

namespace DesignTokens.Text

/-- The ranges of blank characters, ascending, both ends included. -/
def blankRanges : List (Nat × Nat) :=
  [(0x09, 0x0D), (0x1C, 0x20), (0x85, 0x85), (0xA0, 0xA0), (0x1680, 0x1680), (0x2000, 0x200A),
   (0x2028, 0x2029), (0x202F, 0x202F), (0x205F, 0x205F), (0x3000, 0x3000)]

/-- Whether a character counts as white space. -/
def isBlank (c : Char) : Bool :=
  inRanges blankRanges c

/-- Drops the longest run of characters at the end that all satisfy `p`. -/
def dropEndWhile (p : Char → Bool) : List Char → List Char
  | [] => []
  | c :: rest =>
    match dropEndWhile p rest with
    | [] => if p c then [] else [c]
    | kept => c :: kept

/-- Removes blanks at both ends. -/
def trim (text : List Char) : List Char :=
  dropEndWhile isBlank (text.dropWhile isBlank)

@[simp] theorem dropEndWhile_nil (p : Char → Bool) : dropEndWhile p [] = [] := rfl

/-- What remains does not end in a character of the class. -/
theorem getLast_dropEndWhile (p : Char → Bool) (text : List Char) (h : dropEndWhile p text ≠ []) :
    p ((dropEndWhile p text).getLast h) = false := by
  induction text with
  | nil => exact absurd rfl h
  | cons c rest ih =>
    cases hr : dropEndWhile p rest with
    | nil =>
      cases hc : p c with
      | true => simp [dropEndWhile, hr, hc] at h
      | false => simp [dropEndWhile, hr, hc]
    | cons d kept =>
      have step : dropEndWhile p (c :: rest) = c :: dropEndWhile p rest := by
        simp [dropEndWhile, hr]
      have nonempty : dropEndWhile p rest ≠ [] := by simp [hr]
      simp only [step, List.getLast_cons nonempty]
      exact ih nonempty

end DesignTokens.Text
