import DesignTokens.Color.Rgba
import DesignTokens.Proofs.Text.Trimming

/-!
# The grammar of hex colours

The reader of hex colours accepts a number sign and three, four, six or eight hexadecimal digits
between blanks, and nothing else. What it reads is determined by the eight-digit form in capitals:
a short form is read as the form with each digit twice, a form without alpha as the one with `ff`
after it, and a small letter as its capital.

* `IsHexDigit` and `HexForm` are the grammar.
* `Rgba.hexText` is the text of a colour with two digits for each channel.
* `Rgba.ofHex?_reads_grammar` — the theorem.
-/

namespace DesignTokens

/-! ### Digits -/

/-- A hexadecimal digit of ASCII. -/
def IsHexDigit (c : Char) : Prop :=
  ('0' ≤ c ∧ c ≤ '9') ∨ ('a' ≤ c ∧ c ≤ 'f') ∨ ('A' ≤ c ∧ c ≤ 'F')

theorem isHexDigit_iff_toNat (c : Char) :
    IsHexDigit c ↔ (48 ≤ c.toNat ∧ c.toNat ≤ 57) ∨ (97 ≤ c.toNat ∧ c.toNat ≤ 102) ∨
      (65 ≤ c.toNat ∧ c.toNat ≤ 70) :=
  Iff.rfl

theorem map_val_hexDigit? (c : Char) :
    (Text.hexDigit? c).map Fin.val =
      if 48 ≤ c.toNat ∧ c.toNat ≤ 57 then some (c.toNat - 48)
      else if 97 ≤ c.toNat ∧ c.toNat ≤ 102 then some (c.toNat - 87)
      else if 65 ≤ c.toNat ∧ c.toNat ≤ 70 then some (c.toNat - 55)
      else none := by
  simp only [Text.hexDigit?, Char.reduceToNat]
  split_ifs <;> rfl

/-- Exactly the digits have a value. -/
theorem isSome_hexDigit?_iff (c : Char) : (Text.hexDigit? c).isSome = true ↔ IsHexDigit c := by
  have values := congrArg Option.isSome (map_val_hexDigit? c)
  rw [Option.isSome_map] at values
  rw [values, isHexDigit_iff_toNat]
  split_ifs <;> simp [*]

/-- The case of a letter does not change its value. -/
theorem hexDigit?_toLower (c : Char) : Text.hexDigit? c.toLower = Text.hexDigit? c := by
  -- as naturals, both values are told by the ranges that the character lies in
  refine Option.map_injective (fun _ _ => Fin.eq_of_val_eq) ?_
  rw [map_val_hexDigit?, map_val_hexDigit?, Text.toNat_toLower]
  grind

/-- The digits of a hex colour: one or two for each channel, with or without alpha. -/
structure HexForm (digits : List Char) : Prop where
  isHexDigit : ∀ c ∈ digits, IsHexDigit c
  length : digits.length = 3 ∨ digits.length = 4 ∨ digits.length = 6 ∨ digits.length = 8

/-- Each member of a row twice. -/
def twice {α : Type} (row : List α) : List α :=
  row.flatMap fun x => [x, x]

theorem map_twice {α β : Type} (f : α → β) (row : List α) :
    (twice row).map f = twice (row.map f) := by
  simp [twice, List.map_flatMap, List.flatMap_map]

theorem length_twice {α : Type} (row : List α) : (twice row).length = 2 * row.length := by
  simp [twice, List.length_flatMap, Nat.mul_comm]

/-- The digits with two for each channel. -/
def HexForm.long (digits : List Char) : List Char :=
  if digits.length ≤ 4 then twice digits else digits

/-- The digits of a form that gives no alpha. -/
def HexForm.LacksAlpha (digits : List Char) : Prop :=
  digits.length = 3 ∨ digits.length = 6

namespace Rgba

/-! ### Rows of digits -/

variable {text other : List Char} {values : List (Fin 16)} {c : Rgba}

theorem hexDigits?_eq_some_iff :
    hexDigits? text = some values ↔ text.map Text.hexDigit? = values.map some := by
  induction text generalizing values with
  | nil => cases values <;> simp [hexDigits?]
  | cons c rest ih =>
    cases values with
    | nil => simp only [hexDigits?]; split <;> simp
    | cons v more =>
      simp only [hexDigits?, List.map_cons, List.cons.injEq, ← ih]
      cases Text.hexDigit? c <;> cases hexDigits? rest <;> simp

/-- Rows of characters that have the same values one by one are read alike. -/
theorem hexDigits?_congr (h : text.map Text.hexDigit? = other.map Text.hexDigit?) :
    hexDigits? text = hexDigits? other := by
  ext values
  rw [hexDigits?_eq_some_iff, hexDigits?_eq_some_iff, h]

theorem isSome_hexDigits?_iff : (hexDigits? text).isSome = true ↔ ∀ c ∈ text, IsHexDigit c := by
  induction text with
  | nil => simp [hexDigits?]
  | cons c rest ih =>
    rw [List.forall_mem_cons, ← ih, ← isSome_hexDigit?_iff]
    simp only [hexDigits?]
    cases Text.hexDigit? c <;> cases hexDigits? rest <;> simp

theorem length_of_hexDigits? (h : hexDigits? text = some values) : values.length = text.length := by
  simpa using congrArg List.length (hexDigits?_eq_some_iff.1 h).symm

theorem hexDigits?_twice (h : hexDigits? text = some values) :
    hexDigits? (twice text) = some (twice values) := by
  rw [hexDigits?_eq_some_iff] at h ⊢
  rw [map_twice, h, map_twice]

theorem hexDigits?_append_ff (h : hexDigits? text = some values) :
    hexDigits? (text ++ ['f', 'f']) = some (values ++ [15, 15]) := by
  rw [hexDigits?_eq_some_iff] at h ⊢
  have last : Text.hexDigit? 'f' = some 15 := by decide
  simp [h, last]

/-! ### Colours of digits -/

theorem isSome_ofDigits?_iff :
    (ofDigits? values).isSome = true ↔
      values.length = 3 ∨ values.length = 4 ∨ values.length = 6 ∨ values.length = 8 := by
  constructor
  · unfold ofDigits?
    split <;> simp
  · intro h
    match values, h with
    | [_, _, _], _ => rfl
    | [_, _, _, _], _ => rfl
    | [_, _, _, _, _, _], _ => rfl
    | [_, _, _, _, _, _, _, _], _ => rfl

/-- A digit for each channel stands for two. -/
theorem ofDigits?_twice (h : values.length = 3 ∨ values.length = 4) :
    ofDigits? (twice values) = ofDigits? values := by
  match values, h with
  | [_, _, _], _ => rfl
  | [_, _, _, _], _ => rfl

/-- A colour without alpha is opaque. -/
theorem ofDigits?_append_ff (h : values.length = 6) :
    ofDigits? (values ++ [15, 15]) = ofDigits? values := by
  match values, h with
  | [_, _, _, _, _, _], _ => rfl

/-! ### Texts -/

theorem exists_values (form : HexForm text) :
    ∃ values, hexDigits? text = some values ∧ values.length = text.length := by
  obtain ⟨values, h⟩ := Option.isSome_iff_exists.1 (isSome_hexDigits?_iff.2 form.isHexDigit)
  exact ⟨values, h, length_of_hexDigits? h⟩

/-- The digits of a form are those that are read as a colour. -/
theorem hexForm_iff : HexForm text ↔ ((hexDigits? text).bind ofDigits?).isSome = true := by
  constructor
  · intro form
    obtain ⟨values, hvalues, length⟩ := exists_values form
    rw [hvalues, Option.bind_some, isSome_ofDigits?_iff, length]
    exact form.length
  · intro read
    obtain ⟨c, values, hvalues, hc⟩ : ∃ c values, hexDigits? text = some values ∧
        ofDigits? values = some c := by
      simpa [Option.isSome_iff_exists, Option.bind_eq_some_iff] using read
    refine ⟨isSome_hexDigits?_iff.1 (by simp [hvalues]), ?_⟩
    rw [← length_of_hexDigits? hvalues]
    exact isSome_ofDigits?_iff.1 (by simp [hc])

/-- Behind the number sign, digits end in no blank, so they are trimmed out of all blanks. -/
theorem trim_eq_iff_of_isHexDigit (h : ∀ c ∈ text, IsHexDigit c) :
    Text.trim other = '#' :: text ↔ Text.InBlanks ('#' :: text) other := by
  have printed : ∀ c ∈ '#' :: text, Text.isBlank c = false := by
    rw [List.forall_mem_cons]
    refine ⟨by decide, fun c hc => ?_⟩
    have range := (isHexDigit_iff_toNat c).1 (h c hc)
    exact Text.isBlank_eq_false_of_printed (by omega) (by omega)
  exact Text.trim_eq_iff_inBlanks (fun c hc => printed c (List.mem_of_mem_head? hc))
    fun c hc => printed c (List.mem_of_getLast? hc)

theorem ofHex?_of_trim (h : Text.trim other = '#' :: text) :
    ofHex? other = (hexDigits? text).bind ofDigits? := by
  simp [ofHex?, h]

/-- Digits behind the number sign are read as they are, whatever blanks stand around them. -/
theorem ofHex?_of_hexDigits? (h : hexDigits? text = some values)
    (between : Text.InBlanks ('#' :: text) other) : ofHex? other = ofDigits? values := by
  have digits : ∀ c ∈ text, IsHexDigit c := isSome_hexDigits?_iff.1 (by simp [h])
  rw [ofHex?_of_trim ((trim_eq_iff_of_isHexDigit digits).2 between), h, Option.bind_some]

/-- The grammar. -/
theorem isSome_ofHex?_iff :
    (ofHex? text).isSome = true ↔
      ∃ digits, HexForm digits ∧ Text.InBlanks ('#' :: digits) text := by
  constructor
  · unfold ofHex?
    split
    next digits trimmed =>
      intro read
      have form := hexForm_iff.2 read
      exact ⟨digits, form, (trim_eq_iff_of_isHexDigit form.isHexDigit).1 trimmed⟩
    next => simp
  · rintro ⟨digits, form, between⟩
    rw [ofHex?_of_trim ((trim_eq_iff_of_isHexDigit form.isHexDigit).2 between)]
    exact hexForm_iff.1 form

/-- Letters are read in either case. -/
theorem ofHex?_map_toLower (text : List Char) : ofHex? (text.map Char.toLower) = ofHex? text := by
  have trimmed := Text.trim_map Text.isBlank_toLower text
  cases htext : Text.trim text with
  | nil => simp [ofHex?, trimmed, htext]
  | cons c rest =>
    by_cases sign : c = '#'
    · subst sign
      have lower : Text.trim (text.map Char.toLower) = '#' :: rest.map Char.toLower := by
        rw [trimmed, htext]
        rfl
      have values : (rest.map Char.toLower).map Text.hexDigit? = rest.map Text.hexDigit? := by
        simp [hexDigit?_toLower]
      rw [ofHex?_of_trim lower, ofHex?_of_trim htext, hexDigits?_congr values]
    · -- no letter is the sign in another case
      have lower : c.toLower ≠ '#' := by
        intro h
        have number := Text.toNat_toLower c
        rw [h] at number
        have : c.toNat ≠ 35 := fun same => sign (Char.toNat_inj.1 same)
        simp only [Char.reduceToNat] at number
        grind
      simp [ofHex?, trimmed, htext, sign, lower]

/-! ### Long forms -/

/-- A form is read as its long form is. -/
theorem hexDigits?_long (form : HexForm text) :
    ∃ values, hexDigits? (HexForm.long text) = some values ∧
      ofHex? ('#' :: text) = ofDigits? values := by
  obtain ⟨values, hvalues, length⟩ := exists_values form
  have read := ofHex?_of_hexDigits? hvalues (Text.inBlanks_self _)
  unfold HexForm.long
  split
  next short =>
    refine ⟨twice values, hexDigits?_twice hvalues, ?_⟩
    have := form.length
    rw [read, ofDigits?_twice (by omega)]
  next => exact ⟨values, hvalues, read⟩

theorem ofHex?_long (form : HexForm text) :
    ofHex? ('#' :: HexForm.long text) = ofHex? ('#' :: text) := by
  obtain ⟨values, hvalues, read⟩ := hexDigits?_long form
  rw [ofHex?_of_hexDigits? hvalues (Text.inBlanks_self _), read]

theorem ofHex?_append_ff (form : HexForm text) (lacks : HexForm.LacksAlpha text) :
    ofHex? ('#' :: (HexForm.long text ++ ['f', 'f'])) = ofHex? ('#' :: text) := by
  obtain ⟨values, hvalues, read⟩ := hexDigits?_long form
  have six : values.length = 6 := by
    rw [length_of_hexDigits? hvalues, HexForm.long]
    rcases lacks with three | six
    · rw [if_pos (by omega), length_twice, three]
    · rw [if_neg (by omega), six]
  rw [ofHex?_of_hexDigits? (hexDigits?_append_ff hvalues) (Text.inBlanks_self _),
    ofDigits?_append_ff six, read]

/-! ### Writing -/

/-- The channels of a colour, alpha last. -/
def channels (c : Rgba) : List Channel :=
  [c.red, c.green, c.blue, c.alpha]

/-- The two digits of a channel. -/
def channelDigits (c : Channel) : List (Fin 16) :=
  [⟨c.val / 16, by omega⟩, ⟨c.val % 16, by omega⟩]

/-- The text of a colour with two capital digits for each channel. -/
def hexText (c : Rgba) : List Char :=
  '#' :: (c.channels.flatMap channelDigits).map Text.upperHexDigit

theorem channel_channelDigits (c : Channel) :
    channel ⟨c.val / 16, by omega⟩ ⟨c.val % 16, by omega⟩ = c := by
  simp only [channel, Fin.ext_iff]
  omega

theorem ofDigits?_channelDigits (c : Rgba) :
    ofDigits? (c.channels.flatMap channelDigits) = some c := by
  simp [channels, channelDigits, ofDigits?, channel_channelDigits]

/-- A colour is read back from its text. -/
theorem ofHex?_hexText (c : Rgba) : ofHex? c.hexText = some c := by
  have digits : hexDigits? ((c.channels.flatMap channelDigits).map Text.upperHexDigit) =
      some (c.channels.flatMap channelDigits) := by
    rw [hexDigits?_eq_some_iff, List.map_map]
    exact List.map_congr_left fun d _ => Text.hexDigit?_upperHexDigit d
  rw [hexText, ofHex?_of_hexDigits? digits (Text.inBlanks_self _), ofDigits?_channelDigits]

/-! ### The theorem -/

/-- **The grammar of hex colours.** A text is read exactly if it is a number sign and the digits of
a form between blanks. The blanks do not matter, the channels are numbers up to 255, and the case
of letters does not matter. A form with one digit for a channel is read as the one with that digit
twice, a form without alpha as its long form with `ff` after it, and the text of a colour as that
colour. -/
theorem ofHex?_reads_grammar :
    (∀ text, (ofHex? text).isSome = true ↔
      ∃ digits, HexForm digits ∧ Text.InBlanks ('#' :: digits) text) ∧
    (∀ digits text, HexForm digits → Text.InBlanks ('#' :: digits) text →
      ofHex? text = ofHex? ('#' :: digits)) ∧
    (∀ text c, ofHex? text = some c → ∀ channel ∈ c.channels, channel.val ≤ 255) ∧
    (∀ text other, text.map Char.toLower = other.map Char.toLower → ofHex? text = ofHex? other) ∧
    (∀ digits, HexForm digits → digits.length ≤ 4 →
      ofHex? ('#' :: digits) = ofHex? ('#' :: twice digits)) ∧
    (∀ digits, HexForm digits → HexForm.LacksAlpha digits →
      ofHex? ('#' :: digits) = ofHex? ('#' :: (HexForm.long digits ++ ['f', 'f']))) ∧
    ∀ c : Rgba, ofHex? c.hexText = some c := by
  refine ⟨fun _ => isSome_ofHex?_iff, fun digits text form between => ?_,
    fun _ _ _ channel _ => Nat.le_of_lt_succ channel.isLt, fun text other same => ?_,
    fun digits form short => ?_, fun digits form lacks => (ofHex?_append_ff form lacks).symm,
    ofHex?_hexText⟩
  · obtain ⟨values, hvalues, -⟩ := exists_values form
    rw [ofHex?_of_hexDigits? hvalues between, ofHex?_of_hexDigits? hvalues (Text.inBlanks_self _)]
  · rw [← ofHex?_map_toLower text, same, ofHex?_map_toLower]
  · have long := ofHex?_long form
    rw [HexForm.long, if_pos short] at long
    exact long.symm

example : ofHex? " #aB7\n".toList = some ⟨0xAA, 0xBB, 0x77, 0xFF⟩ := by decide

end Rgba

end DesignTokens
