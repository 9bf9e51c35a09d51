import Filestore.Text.Utf8.Basic

/-!
# `Filestore.Text.Utf8.Lemmas`: decoding undoes encoding

`scan_utf8EncodeChar_append` is the step: the encoding of a character, whatever follows it, is
read as that character and nothing else. From it a text that was encoded is read back by both
decoders (`decode?_encode`, `decodeLossy_encode`), and no two texts have the same bytes
(`encode_injective`).

The step goes by the four lengths that an encoding can have. In each, the first byte and the
ranges of the second are computed from the code point, and `scan_begun`, `scan_more` and
`scan_last` each take one byte off the encoding. What makes the arithmetic close is that a
character is never a surrogate, which is part of its type.
-/

set_option autoImplicit false

namespace Filestore

namespace Text

namespace Utf8

/-- The last byte of an encoding completes the character, and what follows it is read afresh. -/
theorem scan_last {low high : UInt8} {bits n : Nat} {rest : Bytes} (hn : n < 256)
    (hlow : low.toNat ≤ n) (hhigh : n ≤ high.toNat) :
    scan (some ⟨0, low, high, bits⟩) (UInt8.ofNat n :: rest)
      = some (Char.ofNat (bits * 64 + (n - 0x80))) :: scan none rest := by
  have h : (UInt8.ofNat n).toNat = n := by simp [UInt8.toNat_ofNat', Nat.mod_eq_of_lt hn]
  simp [scan, UInt8.le_iff_toNat_le, h, hlow, hhigh]

/-- Any byte before the last adds its six bits to the character begun, and the bytes after it may
then be anything of the form of a later byte. -/
theorem scan_more {low high : UInt8} {owed bits n : Nat} {rest : Bytes} (hn : n < 256)
    (hlow : low.toNat ≤ n) (hhigh : n ≤ high.toNat) :
    scan (some ⟨owed + 1, low, high, bits⟩) (UInt8.ofNat n :: rest)
      = scan (some ⟨owed, 0x80, 0xBF, bits * 64 + (n - 0x80)⟩) rest := by
  have h : (UInt8.ofNat n).toNat = n := by simp [UInt8.toNat_ofNat', Nat.mod_eq_of_lt hn]
  simp [scan, UInt8.le_iff_toNat_le, h, hlow, hhigh]

/-- A first byte that begins a longer encoding yields no character yet, and no gap either. -/
theorem scan_begun {n : Nat} {rest : Bytes} {state : Partial}
    (h : lead (UInt8.ofNat n) = .begun state) :
    scan none (UInt8.ofNat n :: rest) = scan (some state) rest := by
  simp [scan, h]

/-- The encoding of a character is read as that character, whatever follows it. One case for each
length that an encoding can have. -/
theorem scan_utf8EncodeChar_append (c : Char) (rest : Bytes) :
    scan none (String.utf8EncodeChar c ++ rest) = some c :: scan none rest := by
  have hvalid : c.val.toNat < 0xD800 ∨ (0xDFFF < c.val.toNat ∧ c.val.toNat < 0x110000) := by
    simpa [UInt32.isValidChar, Nat.isValidChar] using c.valid
  have hchar : Char.ofNat c.val.toNat = c := Char.ofNat_toNat c
  -- What is left is about numbers: a code point `v`, and the bytes that its bits are dealt to.
  unfold String.utf8EncodeChar
  generalize c.val.toNat = v at hvalid hchar ⊢
  have hword : ∀ n, n < 256 → (UInt8.ofNat n).toNat = n := fun n hn => by
    simp [UInt8.toNat_ofNat', Nat.mod_eq_of_lt hn]
  dsimp only
  split
  · have hlead : lead (UInt8.ofNat v) = .whole (Char.ofNat v) := by
      simp only [lead, hword v (by omega)]
      rw [if_pos (by omega)]
    simp [scan, hlead, hchar]
  -- Two bytes, of which the second may be any that goes on.
  split
  · have hlead : lead (UInt8.ofNat (v / 64 % 32 + 192)) = .begun ⟨0, 0x80, 0xBF, v / 64⟩ := by
      simp only [lead, hword (v / 64 % 32 + 192) (by omega)]
      rw [if_neg (by omega), if_neg (by omega), if_pos (by omega),
        show v / 64 % 32 + 192 - 0xC0 = v / 64 by omega]
    simp only [List.cons_append, List.nil_append]
    rw [scan_begun hlead, scan_last (by omega) (by simp) (by simp; omega)]
    rw [show v / 64 * 64 + (v % 64 + 128 - 128) = v by omega, hchar]
  -- Three bytes. Which second byte may follow depends on the first: the least ones would be too
  -- long, and those of the surrogates are no characters.
  split
  · have hlead : ∃ low high : UInt8,
        lead (UInt8.ofNat (v / 4096 % 16 + 224)) = .begun ⟨1, low, high, v / 4096⟩
          ∧ low.toNat ≤ v / 64 % 64 + 128 ∧ v / 64 % 64 + 128 ≤ high.toNat := by
      simp only [lead, hword (v / 4096 % 16 + 224) (by omega)]
      rw [if_neg (by omega), if_neg (by omega), if_neg (by omega)]
      split
      · rw [show v / 4096 = 0 by omega]
        exact ⟨_, _, rfl, by simp; omega, by simp; omega⟩
      split
      · rw [show v / 4096 = 0xD by omega]
        exact ⟨_, _, rfl, by simp, by simp; omega⟩
      · rw [if_pos (by omega), show v / 4096 % 16 + 224 - 0xE0 = v / 4096 by omega]
        exact ⟨_, _, rfl, by simp, by simp; omega⟩
    obtain ⟨low, high, hlead, hlow, hhigh⟩ := hlead
    simp only [List.cons_append, List.nil_append]
    rw [scan_begun hlead, scan_more (by omega) hlow hhigh,
      scan_last (by omega) (by simp) (by simp; omega)]
    rw [show (v / 4096 * 64 + (v / 64 % 64 + 128 - 128)) * 64 + (v % 64 + 128 - 128) = v by omega,
      hchar]
  · -- Four bytes, with a narrower range for the second one at both ends.
    have hlead : ∃ low high : UInt8,
        lead (UInt8.ofNat (v / 262144 % 8 + 240)) = .begun ⟨2, low, high, v / 262144⟩
          ∧ low.toNat ≤ v / 4096 % 64 + 128 ∧ v / 4096 % 64 + 128 ≤ high.toNat := by
      simp only [lead, hword (v / 262144 % 8 + 240) (by omega)]
      rw [if_neg (by omega), if_neg (by omega), if_neg (by omega), if_neg (by omega),
        if_neg (by omega), if_neg (by omega)]
      split
      · rw [show v / 262144 = 0 by omega]
        exact ⟨_, _, rfl, by simp; omega, by simp; omega⟩
      split
      · rw [show v / 262144 % 8 + 240 - 0xF0 = v / 262144 by omega]
        exact ⟨_, _, rfl, by simp, by simp; omega⟩
      · rw [if_pos (by omega), show v / 262144 = 4 by omega]
        exact ⟨_, _, rfl, by simp, by simp; omega⟩
    obtain ⟨low, high, hlead, hlow, hhigh⟩ := hlead
    simp only [List.cons_append, List.nil_append]
    rw [scan_begun hlead, scan_more (by omega) hlow hhigh,
      scan_more (by omega) (by simp) (by simp; omega),
      scan_last (by omega) (by simp) (by simp; omega)]
    rw [show ((v / 262144 * 64 + (v / 4096 % 64 + 128 - 128)) * 64 + (v / 64 % 64 + 128 - 128)) * 64
      + (v % 64 + 128 - 128) = v by omega, hchar]

/-- The encoding of a text is read as its characters, one by one and without gaps. -/
theorem scan_encode (text : List Char) : scan none (encode text) = text.map some := by
  induction text with
  | nil => rfl
  | cons c rest ih =>
    rw [encode, List.flatMap_cons, scan_utf8EncodeChar_append, ← encode, ih, List.map_cons]

/-- A text that was encoded has no gaps, so decoding accepts it and gives it back. -/
theorem decode?_encode (text : List Char) : decode? (encode text) = some text := by
  rw [decode?, scan_encode]
  induction text with
  | nil => rfl
  | cons c rest ih => simp [List.mapM_cons, ih]

/-- No two texts are the same bytes, because decoding would have to give back both. -/
theorem encode_injective : Function.Injective encode := by
  intro text text' h
  have hdecode := congrArg decode? h
  rw [decode?_encode, decode?_encode] at hdecode
  exact Option.some.inj hdecode

/-- A text that was encoded is shown as it was. There is no gap to put a sign in place of, and a
U+FFFD in the text itself is kept. -/
theorem decodeLossy_encode (text : List Char) : decodeLossy (encode text) = text := by
  simp [decodeLossy, scan_encode, Function.comp_def]

end Utf8

end Text

end Filestore
