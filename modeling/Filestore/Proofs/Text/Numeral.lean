import Filestore.Proofs.Text.Words
import Filestore.Text.Numeral.Lemmas

/-!
# `Filestore.Proofs.Text.Numeral`: what a numeral is

`Numeral.Writes` says which number a text writes, without saying how it is read: digits after at
most one plus sign. What is read is just that, if it is below the bound
(`Numeral.read_eq_ok_iff`).

Leading zeros are digits like any other, so one number is written in many ways; the shortest one
is `Numeral.render`, and it is one of them (`writes_render`). A lone plus sign is no numeral, nor
is the empty text.

The reader stops at the first digit that takes the number past the bound, while `Writes` looks at
the number as a whole. The two agree because more digits never make a number smaller, which is the
induction in `of_readDigits_eq_ok`.
-/

set_option autoImplicit false

namespace Filestore

namespace Text

namespace Numeral

/-- The text writes the number, which is below the bound: digits after at most one plus sign. -/
def Writes (bound : Nat) (text : List Char) (value : Nat) : Prop :=
  ∃ digits : List Char, (text = digits ∨ text = '+' :: digits) ∧ digits ≠ [] ∧
    (∀ c ∈ digits, c.isDigit = true) ∧ Nat.ofDigitChars 10 digits 0 = value ∧ value < bound

variable {bound value next : Nat} {text : List Char}

/-- What is read as a digit is a decimal digit, and its value is the distance from zero. -/
theorem isDigit_of_digit? {c : Char} {d : Nat} (h : digit? c = some d) :
    c.isDigit = true ∧ c.toNat - '0'.toNat = d := by
  unfold digit? at h
  split at h
  · rename_i hc
    exact ⟨hc, Option.some.inj h⟩
  · exact nomatch h

/-- What is read as digits is digits, and the number that they write is below the bound if there
is a digit at all. The induction is on the text, for any number that was read before it. -/
theorem of_readDigits_eq_ok (h : readDigits bound value text = .ok next) :
    (∀ c ∈ text, c.isDigit = true) ∧ Nat.ofDigitChars 10 text value = next ∧
      (text ≠ [] → next < bound) := by
  induction text generalizing value with
  | nil => exact ⟨List.forall_mem_nil _, Except.ok.inj h, fun hne => absurd rfl hne⟩
  | cons c rest ih =>
    rw [readDigits] at h
    split at h
    · cases h
    · rename_i d hd
      obtain ⟨hc, rfl⟩ := isDigit_of_digit? hd
      split at h
      · rename_i hlt
        obtain ⟨hrest, hvalue, hbound⟩ := ih h
        refine ⟨List.forall_mem_cons.mpr ⟨hc, hrest⟩, ?_, fun _ => ?_⟩
        · rw [Nat.ofDigitChars_cons, Nat.mul_comm, hvalue]
        · -- The bound was checked at every digit, so the check at the last one is the one that
          -- counts.
          cases rest with
          | nil =>
            rw [← hvalue]
            exact hlt
          | cons d rest => exact hbound (List.cons_ne_nil d rest)
      · cases h

/-- Digits are read as a number just if they write it and it is below the bound. -/
theorem readDigits_eq_ok_iff (hne : text ≠ []) :
    readDigits bound 0 text = .ok value ↔
      (∀ c ∈ text, c.isDigit = true) ∧ Nat.ofDigitChars 10 text 0 = value ∧ value < bound := by
  constructor
  · intro h
    obtain ⟨hdigits, hvalue, hbound⟩ := of_readDigits_eq_ok h
    exact ⟨hdigits, hvalue, hbound hne⟩
  · rintro ⟨hdigits, rfl, hbound⟩
    exact readDigits_eq_ok hdigits hbound

/-- A text is read as the number that it writes, if that is below the bound, and as no other. -/
theorem read_eq_ok_iff : read bound text = .ok value ↔ Writes bound text value := by
  constructor
  · intro h
    unfold read at h
    split at h
    · exact nomatch h
    · exact nomatch h
    · rename_i digits hplus
      exact ⟨digits, .inr rfl, hplus, (readDigits_eq_ok_iff hplus).mp h⟩
    · rename_i hne _ _
      exact ⟨text, .inl rfl, hne, (readDigits_eq_ok_iff hne).mp h⟩
  · rintro ⟨digits, htext, hne, hdigits⟩
    have hread := (readDigits_eq_ok_iff hne).mpr hdigits
    obtain ⟨c, rest, rfl⟩ := List.exists_cons_of_ne_nil hne
    rcases htext with rfl | rfl
    · -- A sign is taken off by the reader, and digits do not start with one.
      have hc : c ≠ '+' := by
        rintro rfl
        exact absurd (hdigits.1 '+' List.mem_cons_self) (by decide)
      unfold read
      split
      · rename_i heq
        exact nomatch heq
      · rename_i heq
        exact absurd (List.cons.inj heq).1 hc
      · rename_i heq
        exact absurd (List.cons.inj heq).1 hc
      · exact hread
    · exact hread

/-- A digit is no white space. -/
theorem isBlank_of_isDigit {c : Char} (h : c.isDigit = true) : isBlank c = false := by
  have hrange : 48 ≤ c.toNat ∧ c.toNat ≤ 57 := by
    simpa [Char.isDigit, UInt32.le_iff_toNat_le] using h
  simp only [isBlank, blankRanges, List.any_cons, List.any_nil, Bool.or_false, Bool.or_eq_false_iff,
    Bool.and_eq_false_iff, decide_eq_false_iff_not]
  omega

/-- There is no white space in a numeral, so it is a word of its own in a line. -/
theorem Writes.isWord (h : Writes bound text value) : IsWord text := by
  obtain ⟨digits, htext, hne, hdigits, -, -⟩ := h
  have hall : ∀ c ∈ digits, isBlank c = false := fun c hc => isBlank_of_isDigit (hdigits c hc)
  rcases htext with rfl | rfl
  · exact ⟨hne, hall⟩
  · exact ⟨List.cons_ne_nil _ _, List.forall_mem_cons.mpr ⟨rfl, hall⟩⟩

/-- A number that is below the bound is written by its digits, without a sign. -/
theorem writes_render (h : value < bound) : Writes bound (render value) value :=
  read_eq_ok_iff.mp (read_render h)

end Numeral

end Text

end Filestore
