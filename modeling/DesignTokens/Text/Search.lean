/-!
# Searching text

`occursIn` looks for a text anywhere in another, `afterPrefix?` at its front.
-/

namespace DesignTokens.Text

/-- Whether a text stands somewhere in another. -/
def occursIn (needle : List Char) : List Char → Bool
  | [] => needle == []
  | c :: rest => needle.isPrefixOf (c :: rest) || occursIn needle rest

/-- What follows a text at the front of another. -/
def afterPrefix? : (front text : List Char) → Option (List Char)
  | [], text => some text
  | _ :: _, [] => none
  | f :: front, c :: text => if f = c then afterPrefix? front text else none

theorem afterPrefix?_eq_some_iff {front text rest : List Char} :
    afterPrefix? front text = some rest ↔ text = front ++ rest := by
  induction front generalizing text with
  | nil => simp [afterPrefix?, eq_comm]
  | cons f front ih =>
    cases text with
    | nil => simp [afterPrefix?]
    | cons c text =>
      by_cases h : f = c
      · simp [afterPrefix?, h, ih]
      · simp [afterPrefix?, h, Ne.symm h]

theorem occursIn_iff {needle text : List Char} :
    occursIn needle text = true ↔ needle <:+: text := by
  induction text with
  | nil => simp [occursIn]
  | cons c rest ih =>
    rw [occursIn, Bool.or_eq_true, ih, List.isPrefixOf_iff_prefix, List.infix_cons_iff]

end DesignTokens.Text
