import DesignTokens.Text.CellWidth
import DesignTokens.Text.Lines

/-!
# What the console shows of a text

Lines that come from elsewhere may hold characters that a console acts on. The report shows
them in a safe form: signals and vertical movements are dropped, and a tab is filled up with
spaces to the next multiple of eight cells.

A backslash before an opening bracket is dropped where the bracket opens no style, and a single
backslash at the end of a line is shown twice.

A failure is shown without the control sequences that colour a text or move the cursor.

* `Console.shown` is the form of a text in which the report shows it.
* `Console.withoutSequences` is the form of a text in which a failure is shown.
-/

namespace DesignTokens.Console

/-- Characters that are dropped: the bell, the backspace, and movements to other lines. -/
def isDropped (c : Char) : Bool :=
  [0x07, 0x08, 0x0B, 0x0C, 0x0D].contains c.toNat

/-- How many cells are missing to a multiple of eight. -/
def gapToStop (column : Nat) : Nat :=
  (8 - column % 8) % 8

/-- Puts the pieces of a line between its tabs in their places, after `column` cells of the
line. Each piece but the last is followed by one space at least. -/
def placePieces : (column : Nat) → List (List Char) → List Char
  | _, [] => []
  | _, [last] => last
  | column, piece :: more =>
    -- the space is measured with the piece, as a joiner at its end takes it in
    let spaced := piece ++ [' ']
    let reached := column + Text.cells spaced
    spaced ++ List.replicate (gapToStop reached) ' ' ++
      placePieces (reached + gapToStop reached) more

/-- Replaces the tabs of a line, of which `column` cells are filled already. -/
def expandLine (column : Nat) (line : List Char) : List Char :=
  placePieces column (Text.pieces '\t' line)

/-- Replaces the tabs of a text, whose first line has `column` cells filled already. -/
def expandTabs (column : Nat) (text : List Char) : List Char :=
  match Text.lines text with
  | [] => []
  | first :: more => Text.unlines (expandLine column first :: more.map (expandLine 0))

/-- Whether a text after an opening bracket closes it as a style: it starts with a small letter
or one of three signs, and no other bracket opens before it closes. -/
def opensStyle : List Char → Bool
  | [] => false
  | c :: rest =>
    (('a' ≤ c && c ≤ 'z') || c == '#' || c == '/' || c == '@') &&
      (rest.dropWhile fun d => d != '[' && d != ']').head? == some ']'

/-- Drops the backslash before each bracket that opens no style. -/
def dropBackslashes : List Char → List Char
  | [] => []
  | '\\' :: '[' :: rest =>
    if opensStyle rest then '\\' :: '[' :: dropBackslashes rest else '[' :: dropBackslashes rest
  | c :: rest => c :: dropBackslashes rest

/-- Doubles a single backslash at the end. -/
def doubleLast (text : List Char) : List Char :=
  match text.reverse with
  | ['\\'] => ['\\', '\\']
  | '\\' :: c :: _ => if c = '\\' then text else text ++ ['\\']
  | _ => text

/-- The form in which a text is shown after `column` cells of a line. -/
def shown (column : Nat) (text : String) : String :=
  String.ofList
    (expandTabs column ((dropBackslashes (doubleLast text.toList)).filter fun c => !isDropped c))

/-! ### Control sequences -/

/-- The character that starts a control sequence, with an opening bracket after it. -/
def escape : Char := '\x1b'

/-- The characters that may stand between the bracket and the letter that ends a sequence. -/
def isParameter (c : Char) : Bool :=
  c.isDigit || c == ';' || c == '?'

/-- Drops the control sequences of a text. `pending` is what may be the start of one, in reverse;
it stays if no letter ends it. -/
def dropSequences : (pending : List Char) → List Char → List Char
  | pending, [] => pending.reverse
  | pending, c :: rest =>
    if c = escape then pending.reverse ++ dropSequences [c] rest
    else
      match pending with
      | [] => c :: dropSequences [] rest
      | [_] =>
        if c = '[' then dropSequences (c :: pending) rest
        else pending.reverse ++ c :: dropSequences [] rest
      | _ =>
        if isParameter c then dropSequences (c :: pending) rest
        else if c.isAlpha then dropSequences [] rest
        else pending.reverse ++ c :: dropSequences [] rest

/-- A text without its control sequences. -/
def withoutSequences (text : String) : String :=
  String.ofList (dropSequences [] text.toList)

end DesignTokens.Console
