import DesignTokens.Text.Lines
import Mathlib.Data.List.Basic

/-!
# The lines of a text that is put together

Cutting a text at its line feeds undoes putting it together from lines, and goes along with putting
texts one after the other.

* `pieces_append_separator` — around a separator a text is cut into what it is cut into before and
  after it.
* `pieces_append_of_not_mem` — text without a separator goes to the first piece of what follows.
* `pieces_join` — pieces without a separator are found again.
* `lines_indent` — a text that was moved to the right has the lines that it had, moved.
-/

namespace DesignTokens.Text

variable {separator : Char} {text : List Char}

/-- A separator ends a piece. -/
theorem pieces_append_separator (text rest : List Char) :
    pieces separator (text ++ separator :: rest) =
      pieces separator text ++ pieces separator rest := by
  induction text with
  | nil => simp [pieces]
  | cons c text ih =>
    rw [List.cons_append, pieces, pieces, ih]
    split
    · rfl
    · cases cut : pieces separator text with
      | nil => exact absurd cut (pieces_ne_nil separator text)
      | cons piece more => rfl

/-- Text without a separator belongs to the first piece of what follows. -/
theorem pieces_append_of_not_mem (one : separator ∉ text) (rest : List Char) :
    pieces separator (text ++ rest) = (pieces separator rest).modifyHead (text ++ ·) := by
  induction text with
  | nil => exact (List.modifyHead_id).symm ▸ rfl
  | cons c text ih =>
    rw [List.mem_cons, not_or] at one
    rw [List.cons_append, pieces, if_neg (Ne.symm one.1), ih one.2]
    cases cut : pieces separator rest with
    | nil => exact absurd cut (pieces_ne_nil separator rest)
    | cons piece more => rfl

theorem pieces_of_not_mem (one : separator ∉ text) : pieces separator text = [text] := by
  have alone := pieces_append_of_not_mem one []
  rw [List.append_nil] at alone
  rw [alone, pieces, List.modifyHead_cons, List.append_nil]

theorem not_mem_of_mem_pieces {piece : List Char} (mem : piece ∈ pieces separator text) :
    separator ∉ piece := by
  induction text generalizing piece with
  | nil =>
    rw [pieces, List.mem_singleton] at mem
    exact mem ▸ List.not_mem_nil
  | cons c text ih =>
    rw [pieces] at mem
    split at mem
    · rcases List.mem_cons.1 mem with rfl | mem
      · exact List.not_mem_nil
      · exact ih mem
    · next other =>
      cases cut : pieces separator text with
      | nil => exact absurd cut (pieces_ne_nil separator text)
      | cons first more =>
        rw [cut] at mem ih
        rcases List.mem_cons.1 mem with rfl | mem
        · rw [List.mem_cons, not_or]
          exact ⟨Ne.symm other, ih List.mem_cons_self⟩
        · exact ih (List.mem_cons_of_mem _ mem)

/-- **Pieces are found again.** -/
theorem pieces_join {pieces' : List (List Char)} (some : pieces' ≠ [])
    (one : ∀ piece ∈ pieces', separator ∉ piece) :
    pieces separator (join separator pieces') = pieces' := by
  induction pieces' with
  | nil => exact absurd rfl some
  | cons piece more ih =>
    rw [List.forall_mem_cons] at one
    by_cases last : more = []
    · rw [last]
      exact pieces_of_not_mem one.1
    · rw [join_cons last, pieces_append_separator, pieces_of_not_mem one.1, ih last one.2]
      rfl

/-- **A text that is moved to the right** has its lines moved. -/
theorem lines_indent (text : List Char) : lines (indent text) = (lines text).map indentLine := by
  refine pieces_join ?_ fun line mem => ?_
  · rw [Ne, List.map_eq_nil_iff]
    exact pieces_ne_nil _ text
  · obtain ⟨old, cut, rfl⟩ := List.mem_map.1 mem
    have one := not_mem_of_mem_pieces cut
    cases old with
    | nil => exact one
    | cons c rest =>
      rw [indentLine, List.mem_cons, List.mem_cons, not_or, not_or]
      exact ⟨by decide, by decide, one⟩

end DesignTokens.Text
