/-!
# Aliases in text

An alias is a name between braces, `{color.blue}`. The name is not empty and holds no
brace, so a text is cut into aliases and other characters in one way only, from left to
right.

* `scan` cuts a text into pieces; `Piece.source` puts a piece back (`scan_source`).
* `aliases` are the names written in a text, in order.
* `wholeAlias?` is the name if the text is an alias and nothing else, except that a line feed
  may follow it.
-/

namespace DesignTokens.Alias

/-- A piece of a text. -/
inductive Piece where
  | literal (c : Char)
  | alias (name : List Char)
deriving DecidableEq, Repr

/-- How a piece is written. -/
def Piece.source : Piece → List Char
  | .literal c => [c]
  | .alias name => '{' :: name ++ ['}']

/-- Characters that stand for themselves. -/
def literals (text : List Char) : List Piece :=
  text.map .literal

/-- The pieces of a text whose front has been read already. Without a pending part nothing is
open; otherwise an opening brace was read and `name` after it, in reverse, and a closing brace
makes an alias of it, while another opening brace or the end of the text does not. -/
def scanFrom : (pending : Option (List Char)) → List Char → List Piece
  | none, [] => []
  | none, c :: rest => if c = '{' then scanFrom (some []) rest else .literal c :: scanFrom none rest
  | some name, [] => .literal '{' :: literals name.reverse
  | some name, c :: rest =>
    -- another opening brace: the first one stands for itself
    if c = '{' then .literal '{' :: literals name.reverse ++ scanFrom (some []) rest
    else if c = '}' then
      -- an empty name makes no alias
      if name = [] then .literal '{' :: .literal '}' :: scanFrom none rest
      else .alias name.reverse :: scanFrom none rest
    else scanFrom (some (c :: name)) rest

/-- The pieces of a text. -/
def scan (text : List Char) : List Piece :=
  scanFrom none text

/-- The name of an alias, if the piece is one. -/
def Piece.alias? : Piece → Option (List Char)
  | .literal _ => none
  | .alias name => some name

/-- The names of the aliases in a text, from left to right. -/
def aliases (text : List Char) : List (List Char) :=
  (scan text).filterMap Piece.alias?

/-- The name of the alias that a text consists of. -/
def wholeAlias? (text : List Char) : Option (List Char) :=
  match scan text with
  | [.alias name] => some name
  | [.alias name, .literal '\n'] => some name
  | _ => none

/-- What a pending part was read from. -/
def pendingSource : Option (List Char) → List Char
  | none => []
  | some name => '{' :: name.reverse

@[simp] theorem flatMap_source_literals (text : List Char) :
    (literals text).flatMap Piece.source = text := by
  induction text with
  | nil => rfl
  | cons c rest ih => simpa [literals, Piece.source] using ih

theorem scanFrom_source (pending : Option (List Char)) (text : List Char) :
    (scanFrom pending text).flatMap Piece.source = pendingSource pending ++ text := by
  induction text generalizing pending with
  | nil => cases pending <;> simp [scanFrom, pendingSource, Piece.source]
  | cons c rest ih =>
    cases pending with
    | none =>
      simp only [scanFrom]
      split
      next h => simp [ih, pendingSource, h]
      next => simp [ih, pendingSource, Piece.source]
    | some name =>
      simp only [scanFrom]
      split
      next h => simp [ih, pendingSource, Piece.source, h]
      next =>
        split
        next h =>
          split
          next empty => simp [ih, pendingSource, Piece.source, h, empty]
          next => simp [ih, pendingSource, Piece.source, h]
        next => simp [ih, pendingSource]

/-- Cutting a text into pieces loses nothing. -/
theorem scan_source (text : List Char) : (scan text).flatMap Piece.source = text :=
  scanFrom_source none text

end DesignTokens.Alias
