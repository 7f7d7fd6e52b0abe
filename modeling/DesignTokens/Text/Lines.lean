import DesignTokens.Text.Pieces

/-!
# Lines

A text cut at its line feeds, and put together again.

* `lines` cuts: `n` line feeds give `n + 1` lines, none of which holds a line feed.
* `unlines` joins with line feeds; it is the inverse of `lines` (`unlines_lines`).
* `indent` moves every non-empty line two columns to the right.
* `unifyNewlines` turns each of the three line-end conventions into a line feed.
-/

namespace DesignTokens.Text

/-- The lines of a text; the empty text has one empty line. -/
def lines (text : List Char) : List (List Char) :=
  pieces '\n' text

/-- The lines joined by line feeds. -/
def unlines (lines : List (List Char)) : List Char :=
  join '\n' lines

/-- Moves a non-empty line two columns to the right. -/
def indentLine : List Char → List Char
  | [] => []
  | c :: rest => ' ' :: ' ' :: c :: rest

/-- Moves every non-empty line of a text two columns to the right. -/
def indent (text : List Char) : List Char :=
  unlines ((lines text).map indentLine)

/-- Writes every line end, a carriage return with or without a line feed, as a line feed. -/
def unifyNewlines : List Char → List Char
  | [] => []
  | '\r' :: '\n' :: rest => '\n' :: unifyNewlines rest
  | c :: rest => (if c = '\r' then '\n' else c) :: unifyNewlines rest

/-- Cutting a text at its line feeds loses nothing. -/
theorem unlines_lines (text : List Char) : unlines (lines text) = text :=
  join_pieces '\n' text

end DesignTokens.Text
