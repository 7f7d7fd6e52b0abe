/-!
# Pieces of a text

A text cut at a separator, and put together again.

* `pieces` cuts: `n` separators give `n + 1` pieces, none of which holds a separator.
* `join` puts the separator between pieces; it is the inverse of `pieces` (`join_pieces`).
-/

namespace DesignTokens.Text

/-- The pieces of a text between separators; the empty text is one empty piece. -/
def pieces (separator : Char) : List Char → List (List Char)
  | [] => [[]]
  | c :: rest =>
    if c = separator then [] :: pieces separator rest
    else
      match pieces separator rest with
      | [] => [[c]]
      | piece :: more => (c :: piece) :: more

/-- The pieces with a separator between any two. -/
def join (separator : Char) : List (List Char) → List Char
  | [] => []
  | [piece] => piece
  | piece :: more => piece ++ separator :: join separator more

theorem pieces_ne_nil (separator : Char) (text : List Char) : pieces separator text ≠ [] := by
  cases text with
  | nil => simp [pieces]
  | cons c rest =>
    simp only [pieces]
    split
    · simp
    · split <;> simp

theorem join_cons {separator : Char} {piece : List Char} {more : List (List Char)}
    (h : more ≠ []) :
    join separator (piece :: more) = piece ++ separator :: join separator more := by
  cases more with
  | nil => exact absurd rfl h
  | cons _ _ => rfl

/-- Cutting a text loses nothing. -/
theorem join_pieces (separator : Char) (text : List Char) :
    join separator (pieces separator text) = text := by
  induction text with
  | nil => rfl
  | cons c rest ih =>
    simp only [pieces]
    split
    next h => rw [join_cons (pieces_ne_nil separator rest), ih, h]; rfl
    next h =>
      cases hl : pieces separator rest with
      | nil => exact absurd hl (pieces_ne_nil separator rest)
      | cons piece more =>
        rw [hl] at ih
        cases more with
        | nil => simpa [join] using ih
        | cons next after => simpa [join] using ih

end DesignTokens.Text
