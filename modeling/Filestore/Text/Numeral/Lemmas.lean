import Filestore.Text.Numeral.Basic

/-!
# `Filestore.Text.Numeral.Lemmas`: reading undoes writing

A number below the bound is read back from its digits (`read_render`). The number that digits
write is `Nat.ofDigitChars`; it grows from the left, so that the bound is first reached by a
prefix if it is reached at all. Hence the check that the reader makes after every digit is the
same as one check at the end, and `readDigits_eq_ok` needs the bound for the whole number only.

The converse, which texts are read as which number, is the grammar of numerals in
`Filestore.Proofs.Text.Numeral`: there a text may have leading zeros and a sign, and the reader's
faults are told apart.
-/

set_option autoImplicit false

namespace Filestore

namespace Text

namespace Numeral

/-- The value of a digit is its distance from the digit zero. -/
theorem digit?_of_isDigit {c : Char} (h : c.isDigit) : digit? c = some (c.toNat - '0'.toNat) := by
  simp [digit?, h]

/-- Each digit read leaves the number at least as large, so a number below the bound has no prefix
that reaches it. -/
theorem le_ofDigitChars (text : List Char) (value : Nat) :
    value ≤ Nat.ofDigitChars 10 text value := by
  induction text generalizing value with
  | nil => simp [Nat.ofDigitChars]
  | cons c rest ih =>
    have := ih (10 * value + (c.toNat - '0'.toNat))
    rw [Nat.ofDigitChars_cons]
    omega

/-- Digits are read as the number they write, if that is below the bound. The induction is on the
text with the value read so far left open. -/
theorem readDigits_eq_ok {bound : Nat} {text : List Char} {value : Nat}
    (hdigits : ∀ c ∈ text, c.isDigit) (hbound : Nat.ofDigitChars 10 text value < bound) :
    readDigits bound value text = .ok (Nat.ofDigitChars 10 text value) := by
  induction text generalizing value with
  | nil => simp [readDigits, Nat.ofDigitChars]
  | cons c rest ih =>
    have hle := le_ofDigitChars rest (10 * value + (c.toNat - '0'.toNat))
    rw [Nat.ofDigitChars_cons] at hbound ⊢
    rw [readDigits, digit?_of_isDigit (hdigits c (by simp)), Nat.mul_comm value 10]
    simp only
    rw [if_pos (by omega)]
    exact ih (fun d hd => hdigits d (by simp [hd])) hbound

/-- The digits of a number below the bound are read as that number. They start with no sign, so
the reader takes them as they are. -/
theorem read_render {bound value : Nat} (h : value < bound) :
    read bound (render value) = .ok value := by
  have hdigits : ∀ c ∈ render value, c.isDigit := fun c hc =>
    Nat.isDigit_of_mem_toDigits (by decide) (by decide) hc
  have hvalue : Nat.ofDigitChars 10 (render value) 0 = value := Nat.ofDigitChars_ten_toDigits
  have hread : readDigits bound 0 (render value) = .ok value := by
    rw [readDigits_eq_ok hdigits (by rw [hvalue]; exact h), hvalue]
  unfold read
  split
  · rename_i hnil
    exact absurd hnil Nat.toDigits_ne_nil
  · rename_i hplus
    exact absurd (hdigits '+' (by simp [hplus])) (by decide)
  · rename_i rest hplus
    exact absurd (hdigits '+' (by simp [hplus])) (by decide)
  · exact hread

end Numeral

end Text

end Filestore
