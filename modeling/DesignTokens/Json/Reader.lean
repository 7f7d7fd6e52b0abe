import DesignTokens.Decimal.Numeral
import DesignTokens.Json.SyntaxError
import DesignTokens.Text.HexDigit
import DesignTokens.Value.Basic

/-!
# Reading JSON

The reader takes the grammar of JSON and three words beyond it, for not-a-number and the
two infinities. A number with neither a fraction nor a power of ten is an integer of any
size, every other number a double. A number ends with its longest valid beginning: of `01`
only the `0` is read, and what follows is a fault of its own.

A string is read into characters, and half of a pair of escapes is no character. Where a file writes
one without its partner, nothing is described: `loneHalf` is read in its place.

Every reading function takes the text that remains and returns a value and a rest that is
strictly shorter (`Shorter`), which is why the reader always ends. A fault remembers how
much text remains from the character it is at, and `read` turns that into an offset.

* `readString` reads up to the closing quote.
* `readNumber?` and `readWord?` read the other scalars.
* `readValue` reads any value.
* `read` reads a whole text.
-/

namespace DesignTokens.Json

/-- A fault at the character from which `remaining` characters are left. -/
structure Failure where
  fault : Fault
  remaining : Nat
deriving DecidableEq, Repr

/-- A proper rest of a text. -/
abbrev Shorter (text : List Char) := { rest : List Char // rest.length < text.length }

/-- The blanks of JSON: space, tab, line feed and carriage return. -/
def isBlank (c : Char) : Bool :=
  c == ' ' || c == '\t' || c == '\n' || c == '\r'

/-- Skips blanks. -/
def skipBlanks (text : List Char) : List Char :=
  text.dropWhile isBlank

theorem length_skipBlanks_le (text : List Char) : (skipBlanks text).length ≤ text.length :=
  (List.dropWhile_suffix isBlank).length_le

/-! ### Strings -/

/-- The number written by four hexadecimal digits. -/
def hexUnit? (a b c d : Char) : Option Nat :=
  match Text.hexDigit? a, Text.hexDigit? b, Text.hexDigit? c, Text.hexDigit? d with
  | some a, some b, some c, some d => some (((a.val * 16 + b.val) * 16 + c.val) * 16 + d.val)
  | _, _, _, _ => none

/-- The first half of a pair that stands for one character beyond U+FFFF. -/
def isHighHalf (unit : Nat) : Bool :=
  0xD800 ≤ unit && unit ≤ 0xDBFF

/-- The second half of such a pair. -/
def isLowHalf (unit : Nat) : Bool :=
  0xDC00 ≤ unit && unit ≤ 0xDFFF

/-- The character that two halves stand for. -/
def joinHalves (high low : Nat) : Char :=
  Char.ofNat (0x10000 + (high - 0xD800) * 0x400 + (low - 0xDC00))

/-- The character of a single unit; half of a pair has none. -/
def unitChar? (unit : Nat) : Option Char :=
  if isHighHalf unit || isLowHalf unit then none else some (Char.ofNat unit)

/-- A single unit is the character with its code, if there is such a character. -/
theorem unitChar?_eq_some_iff {unit : Nat} {c : Char} (short : unit < 0x10000) :
    unitChar? unit = some c ↔ c.toNat = unit := by
  have coded : c.toNat.isValidChar := c.valid
  unfold unitChar?
  split
  next half =>
    simp only [isHighHalf, isLowHalf, Bool.or_eq_true, Bool.and_eq_true, decide_eq_true_eq] at half
    refine iff_of_false nofun ?_
    rintro rfl
    rcases coded with low | ⟨high, -⟩ <;> omega
  next whole =>
    simp only [isHighHalf, isLowHalf, Bool.or_eq_true, Bool.and_eq_true, decide_eq_true_eq] at whole
    have valid : unit.isValidChar := by
      unfold Nat.isValidChar
      omega
    rw [Option.some.injEq]
    refine ⟨?_, ?_⟩
    · rintro rfl
      rw [Char.ofNat, dif_pos valid]
      rfl
    · rintro rfl
      exact Char.ofNat_toNat c

/-- What is read for half of a pair without its partner. It is no meaning of such a half: no text
can hold one, so one half is not told from another, nor from the escape of this character. -/
def loneHalf : Char := '\uFFFD'

/-- The second half of a pair at the front of a text, if one is there. Its escape is looked at
only if it cannot be the end of the text. -/
def readSecondHalf (text : List Char) : Except Failure (Option (Nat × Shorter text)) :=
  match text with
  | '\\' :: 'u' :: a :: b :: c :: d :: next :: rest =>
    match hexUnit? a b c d with
    | none => .error ⟨.invalidUnicodeEscape, rest.length + 6⟩
    | some unit =>
      if isLowHalf unit then
        .ok (some (unit, ⟨next :: rest, by simp only [List.length_cons]; omega⟩))
      else .ok none
  | _ => .ok none

/-- The character after an escape's `u`. Four digits and one more character must be there. -/
def readUnicodeEscape (text : List Char) : Except Failure (Char × Shorter text) :=
  match text with
  | a :: b :: c :: d :: next :: rest =>
    match hexUnit? a b c d with
    | none => .error ⟨.invalidUnicodeEscape, rest.length + 6⟩
    | some unit => do
      -- only a first half can have a partner
      let partner ← if isHighHalf unit then readSecondHalf (next :: rest) else .ok none
      match partner with
      | some (low, ⟨after, shorter⟩) =>
        return (joinHalves unit low,
          ⟨after, by simp only [List.length_cons] at *; omega⟩)
      | none =>
        return ((unitChar? unit).getD loneHalf,
          ⟨next :: rest, by simp only [List.length_cons]; omega⟩)
  | _ => .error ⟨.invalidUnicodeEscape, text.length + 1⟩

/-- The character that a single letter stands for after a backslash. -/
def simpleEscape? (c : Char) : Option Char :=
  match c with
  | '"' => some '"'
  | '\\' => some '\\'
  | '/' => some '/'
  | 'b' => some '\x08'
  | 'f' => some '\x0c'
  | 'n' => some '\n'
  | 'r' => some '\r'
  | 't' => some '\t'
  | _ => none

/-- The characters of a string up to its closing quote, and the rest after the quote. `opening`
is the length of the text from the opening quote on, where an unclosed string is reported. -/
def readString (opening : Nat) (text : List Char) :
    Except Failure (List Char × Shorter text) :=
  match text with
  | [] => .error ⟨.unterminatedString, opening⟩
  | '"' :: rest => .ok ([], ⟨rest, Nat.lt_succ_self _⟩)
  -- a backslash at the very end leaves the string open: no escape is at fault
  | ['\\'] => .error ⟨.unterminatedString, opening⟩
  | '\\' :: 'u' :: rest => do
    let (c, ⟨after, shorter⟩) ← readUnicodeEscape rest
    let (more, ⟨last, shorter'⟩) ← readString opening after
    return (c :: more, ⟨last, by simp only [List.length_cons]; omega⟩)
  | '\\' :: letter :: rest =>
    match simpleEscape? letter with
    | none => .error ⟨.invalidEscape, rest.length + 2⟩
    | some c => do
      let (more, ⟨last, shorter⟩) ← readString opening rest
      return (c :: more, ⟨last, by simp only [List.length_cons]; omega⟩)
  | c :: rest =>
    if c.toNat < 0x20 then .error ⟨.controlCharacter, rest.length + 1⟩
    else do
      let (more, ⟨last, shorter⟩) ← readString opening rest
      return (c :: more, ⟨last, by simp only [List.length_cons]; omega⟩)
termination_by text.length

/-! ### Numbers and words -/

/-- The digits after a point, if there is a point with digits after it. -/
def takeFraction (text : List Char) : List Nat × List Char :=
  match text with
  | '.' :: rest =>
    match Decimal.takeDigits rest with
    | ([], _) => ([], text)
    | (digits, after) => (digits, after)
  | _ => ([], text)

/-- The power of ten after an `e`, if there is one with digits. -/
def takePower (text : List Char) : Option Int × List Char :=
  match text with
  | c :: rest =>
    if c = 'e' ∨ c = 'E' then
      match Decimal.takeDigits (Decimal.takeSign rest).2 with
      | ([], _) => (none, text)
      | (digits, after) =>
        (some (Decimal.Binary.signed (Decimal.takeSign rest).1 (Decimal.ofDigits digits)), after)
    else (none, text)
  | [] => (none, text)

theorem length_takeFraction_le (text : List Char) : (takeFraction text).2.length ≤ text.length := by
  unfold takeFraction
  split
  next rest =>
    have bound := Decimal.length_takeDigits_le rest
    split
    · exact Nat.le_refl _
    next digits after found =>
      rw [found] at bound
      exact Nat.le_succ_of_le bound
  · exact Nat.le_refl _

theorem length_takeSign_le (text : List Char) :
    (Decimal.takeSign text).2.length ≤ text.length := by
  unfold Decimal.takeSign
  split <;> simp

theorem length_takePower_le (text : List Char) : (takePower text).2.length ≤ text.length := by
  unfold takePower
  split
  next c rest =>
    have bound := Decimal.length_takeDigits_le (Decimal.takeSign rest).2
    have signBound := length_takeSign_le rest
    split
    · split
      · exact Nat.le_refl _
      next digits after found =>
        rw [found] at bound
        exact Nat.le_succ_of_le (Nat.le_trans bound signBound)
    · exact Nat.le_refl _
  · exact Nat.le_refl _

/-- The digits before the point: a single zero, or digits that do not start with one. -/
def takeWhole (text : List Char) : List Nat × List Char :=
  match text with
  | '0' :: rest => ([0], rest)
  | _ => Decimal.takeDigits text

theorem length_takeWhole_lt {text : List Char} (h : (takeWhole text).1 ≠ []) :
    (takeWhole text).2.length < text.length := by
  unfold takeWhole at *
  split at h
  · exact Nat.lt_succ_self _
  next notZero =>
    cases text with
    | nil => simp [Decimal.takeDigits] at h
    | cons c rest =>
      simp only [Decimal.takeDigits] at *
      have bound := Decimal.length_takeDigits_le rest
      split at h
      · simp at h
      · simp only [List.length_cons]; omega

/-- A minus sign, if there is one. -/
def takeMinus : List Char → Bool × List Char
  | '-' :: rest => (true, rest)
  | text => (false, text)

theorem length_takeMinus_le (text : List Char) : (takeMinus text).2.length ≤ text.length := by
  unfold takeMinus
  split <;> simp

/-- The number at the front of a text, as far as it is valid. -/
def readNumber? (text : List Char) : Option (Value × Shorter text) :=
  let sign := takeMinus text
  let whole := takeWhole sign.2
  let fraction := takeFraction whole.2
  let power := takePower fraction.2
  if h : whole.1 = [] then none
  else
    let value : Value :=
      match fraction.1, power.1 with
      -- neither a point nor a power of ten: exact at every size
      | [], none => .int (Decimal.Binary.signed sign.1 (Decimal.ofDigits whole.1))
      | digits, exponent =>
        .float (Decimal.Numeral.toFloat
          { negative := sign.1
            digits := Decimal.ofDigits (whole.1 ++ digits)
            exponent := exponent.getD 0 - digits.length })
    some (value, ⟨power.2, by
      have signBound : sign.2.length ≤ text.length := length_takeMinus_le text
      have wholeBound : whole.2.length < sign.2.length := length_takeWhole_lt h
      have fractionBound : fraction.2.length ≤ whole.2.length := length_takeFraction_le whole.2
      have powerBound : power.2.length ≤ fraction.2.length := length_takePower_le fraction.2
      omega⟩)

/-- The rest of a text after a word that it starts with. -/
def afterWord? : (word text : List Char) →
    Option { rest : List Char // rest.length + word.length = text.length }
  | [], text => some ⟨text, rfl⟩
  | _ :: _, [] => none
  | w :: word, c :: text =>
    if c = w then
      (afterWord? word text).map fun rest =>
        ⟨rest.1, by have := rest.2; simp only [List.length_cons]; omega⟩
    else none

/-- The value of a word at the front of a text. -/
def readWord? (text : List Char) : Option (Value × Shorter text) :=
  word .null ['n', 'u', 'l', 'l'] (by decide) <|>
    word (.bool true) ['t', 'r', 'u', 'e'] (by decide) <|>
    word (.bool false) ['f', 'a', 'l', 's', 'e'] (by decide) <|>
    word (.float (0.0 / 0.0)) ['N', 'a', 'N'] (by decide) <|>
    word (.float (1.0 / 0.0)) ['I', 'n', 'f', 'i', 'n', 'i', 't', 'y'] (by decide) <|>
    word (.float (-1.0 / 0.0)) ['-', 'I', 'n', 'f', 'i', 'n', 'i', 't', 'y'] (by decide)
where
  word (value : Value) (letters : List Char) (nonempty : 0 < letters.length) :
      Option (Value × Shorter text) :=
    (afterWord? letters text).map fun rest =>
      (value, ⟨rest.1, by have := rest.2; omega⟩)

/-! ### Values -/

mutual

/-- The value at the front of a text. -/
def readValue (text : List Char) : Except Failure (Value × Shorter text) :=
  match text with
  | '"' :: rest => do
    let (s, ⟨after, shorter⟩) ← readString (rest.length + 1) rest
    return (.str (String.ofList s), ⟨after, by simp only [List.length_cons]; omega⟩)
  | '{' :: rest =>
    have start := length_skipBlanks_le rest
    match h : skipBlanks rest with
    | '}' :: after => .ok (.object [], ⟨after, by rw [h] at start; simp at *; omega⟩)
    | _ => do
      let (pairs, ⟨after, shorter⟩) ← readFields (skipBlanks rest)
      return (.object (Value.fieldsOfPairs pairs),
        ⟨after, by simp only [List.length_cons]; omega⟩)
  | '[' :: rest =>
    have start := length_skipBlanks_le rest
    match h : skipBlanks rest with
    | ']' :: after => .ok (.list [], ⟨after, by rw [h] at start; simp at *; omega⟩)
    | _ => do
      let (items, ⟨after, shorter⟩) ← readItems (skipBlanks rest)
      return (.list items, ⟨after, by simp only [List.length_cons]; omega⟩)
  | text =>
    -- words first: a minus sign may start an infinity as well as a number
    match readWord? text <|> readNumber? text with
    | some found => .ok found
    | none => .error ⟨.expectingValue, text.length⟩
termination_by 2 * text.length

/-- One or more items and the closing bracket. -/
def readItems (text : List Char) : Except Failure (List Value × Shorter text) := do
  let (value, ⟨rest, shorter⟩) ← readValue text
  have blanks := length_skipBlanks_le rest
  match h : skipBlanks rest with
  | ']' :: after => return ([value], ⟨after, by rw [h] at blanks; simp at blanks; omega⟩)
  -- after a comma another item must follow, so a closing bracket is a fault there
  | ',' :: next =>
    have blanks' := length_skipBlanks_le next
    have room : (skipBlanks next).length < text.length := by
      rw [h] at blanks; simp at blanks; omega
    let (more, ⟨after, shorter'⟩) ← readItems (skipBlanks next)
    return (value :: more, ⟨after, by omega⟩)
  | other => .error ⟨.expectingComma, other.length⟩
termination_by 2 * text.length + 1

/-- One or more fields and the closing brace. -/
def readFields (text : List Char) : Except Failure (List (String × Value) × Shorter text) :=
  match text with
  | '"' :: start => do
    let (key, ⟨afterKey, shorterKey⟩) ← readString (start.length + 1) start
    have blanksKey := length_skipBlanks_le afterKey
    match hColon : skipBlanks afterKey with
    | ':' :: beforeValue =>
      have blanksValue := length_skipBlanks_le beforeValue
      have roomValue : (skipBlanks beforeValue).length < start.length := by
        rw [hColon] at blanksKey; simp at blanksKey; omega
      let (value, ⟨rest, shorter⟩) ← readValue (skipBlanks beforeValue)
      have blanks := length_skipBlanks_le rest
      match h : skipBlanks rest with
      | '}' :: after =>
        return ([(String.ofList key, value)],
          ⟨after, by rw [h] at blanks; simp at *; omega⟩)
      | ',' :: next =>
        have blanksNext := length_skipBlanks_le next
        have room : (skipBlanks next).length < start.length := by
          rw [h] at blanks; simp at blanks; omega
        let (more, ⟨after, shorter'⟩) ← readFields (skipBlanks next)
        return ((String.ofList key, value) :: more,
          ⟨after, by simp only [List.length_cons]; omega⟩)
      | other => .error ⟨.expectingComma, other.length⟩
    | other => .error ⟨.expectingColon, other.length⟩
  | other => .error ⟨.expectingName, other.length⟩
termination_by 2 * text.length + 1

end

/-- Reads a text that holds one value and nothing else but blanks. -/
def readWhole (text : List Char) : Except Failure Value :=
  if text.head? = some '\uFEFF' then .error ⟨.byteOrderMark, text.length⟩
  else do
    let (value, rest) ← readValue (skipBlanks text)
    -- the value must be all there is
    match skipBlanks rest.1 with
    | [] => return value
    | extra => .error ⟨.extraData, extra.length⟩

/-- Reads a text, or says what is wrong with it and where. -/
def read (text : List Char) : Except SyntaxError Value :=
  match readWhole text with
  | .ok value => .ok value
  | .error failure =>
    .error (SyntaxError.locate failure.fault text (text.length - failure.remaining))

end DesignTokens.Json
