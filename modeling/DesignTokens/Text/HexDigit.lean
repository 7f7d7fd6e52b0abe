/-!
# Hexadecimal digits

`hexDigit?` reads one digit of either case, and `upperHexDigit` writes one as a capital
letter; reading undoes writing.
-/

namespace DesignTokens.Text

/-- The value of a hexadecimal digit. -/
def hexDigit? (c : Char) : Option (Fin 16) :=
  if h : '0'.toNat ≤ c.toNat ∧ c.toNat ≤ '9'.toNat then
    some ⟨c.toNat - 48, by have := h.2; simp at this; omega⟩
  else if h : 'a'.toNat ≤ c.toNat ∧ c.toNat ≤ 'f'.toNat then
    some ⟨c.toNat - 87, by have := h.2; simp at this; omega⟩
  else if h : 'A'.toNat ≤ c.toNat ∧ c.toNat ≤ 'F'.toNat then
    some ⟨c.toNat - 55, by have := h.2; simp at this; omega⟩
  else none

/-- The digit of a value, a letter being a capital. -/
def upperHexDigit (d : Fin 16) : Char :=
  if d.val < 10 then Char.ofNat (48 + d.val) else Char.ofNat (55 + d.val)

theorem hexDigit?_upperHexDigit (d : Fin 16) : hexDigit? (upperHexDigit d) = some d := by
  revert d
  decide

end DesignTokens.Text
