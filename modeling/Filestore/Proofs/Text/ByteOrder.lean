import Filestore.Text.Utf8.Basic

/-!
# `Filestore.Proofs.Text.ByteOrder`: the order of texts is the order of their bytes

Texts compare by the code points of their characters, byte strings by their bytes. Both go by the
first place that differs. UTF-8 keeps the order: the encoding of a character comes before the
encoding of a later one, whatever follows them (`utf8EncodeChar_append_lt`), since a longer
encoding has a greater first byte and the bits of a code point are encoded from the highest to the
lowest.

So names in the order of their characters, in which the directory keeps them, are in the order of
their bytes, in which a listing has to give them (`encode_lt`).

The proof is by the lengths of the two encodings, with one to four bytes each. Where they are the
same, the code points are compared digit by digit, to the base 64 that a byte after the first one
carries.
-/

set_option autoImplicit false

namespace Filestore

namespace Text

namespace Utf8

/-- Byte strings are compared by their first bytes, and by the rest where these are the same. So
it is enough that the first byte is no greater, and that the rest decides where it is equal. -/
theorem ofNat_cons_lt {m n : Nat} {rest rest' : Bytes} (hn : n < 256) (hle : m ≤ n)
    (hrest : m = n → rest < rest') : UInt8.ofNat m :: rest < UInt8.ofNat n :: rest' := by
  rcases Nat.eq_or_lt_of_le hle with rfl | hlt
  · exact List.cons_lt_cons_iff.mpr (.inr ⟨rfl, hrest rfl⟩)
  · refine List.cons_lt_cons_iff.mpr (.inl ?_)
    rw [UInt8.lt_iff_toNat_lt, UInt8.toNat_ofNat_of_lt' (Nat.lt_trans hlt hn),
      UInt8.toNat_ofNat_of_lt' hn]
    exact hlt

/-- The bytes of a character come before those of a later one, whatever follows them. -/
theorem utf8EncodeChar_append_lt {c d : Char} (h : c < d) (rest rest' : Bytes) :
    String.utf8EncodeChar c ++ rest < String.utf8EncodeChar d ++ rest' := by
  have hlt : c.val.toNat < d.val.toNat := h
  have hlast : d.val.toNat < 0x110000 := by
    have hvalid := d.valid
    simp only [UInt32.isValidChar, Nat.isValidChar] at hvalid
    omega
  unfold String.utf8EncodeChar
  generalize c.val.toNat = v at *
  generalize d.val.toNat = w at *
  have hfirst : ∀ {m n : Nat} {tail tail' : Bytes}, m < n → n < 256 →
      UInt8.ofNat m :: tail < UInt8.ofNat n :: tail' := fun hmn hn =>
    ofNat_cons_lt hn (Nat.le_of_lt hmn) fun heq => absurd hmn (heq ▸ Nat.lt_irrefl _)
  dsimp only
  -- One case for each length of the first encoding, and in it one for each length of the second.
  -- Where the lengths are the same, the bytes are compared one after another.
  split
  · repeat' split
    all_goals exact hfirst (by omega) (by omega)
  split
  · split
    · omega
    split
    · exact ofNat_cons_lt (by omega) (by omega) fun _ => hfirst (by omega) (by omega)
    split <;> exact hfirst (by omega) (by omega)
  split
  · split
    · omega
    split
    · omega
    split
    · refine ofNat_cons_lt (by omega) (by omega) fun _ => ?_
      exact ofNat_cons_lt (by omega) (by omega) fun _ => hfirst (by omega) (by omega)
    · exact hfirst (by omega) (by omega)
  · split
    · omega
    split
    · omega
    split
    · omega
    · refine ofNat_cons_lt (by omega) (by omega) fun _ => ?_
      refine ofNat_cons_lt (by omega) (by omega) fun _ => ?_
      exact ofNat_cons_lt (by omega) (by omega) fun _ => hfirst (by omega) (by omega)

/-- A text that comes before another one does so by its bytes too. The induction is on the two
texts, up to the first character that differs. -/
theorem encode_lt {text text' : List Char} (h : text < text') : encode text < encode text' := by
  -- The induction is on the characters that are the same.
  induction text generalizing text' with
  | nil =>
    cases text' with
    | nil => exact absurd h (List.lt_irrefl _)
    | cons d rest' =>
      obtain ⟨byte, bytes, hbytes⟩ :=
        List.exists_cons_of_ne_nil (String.utf8EncodeChar_ne_nil (c := d))
      rw [encode, encode, List.flatMap_cons, hbytes]
      exact List.nil_lt_cons _ _
  | cons c rest ih =>
    cases text' with
    | nil => exact absurd h (List.not_lt_nil _)
    | cons d rest' =>
      rcases List.cons_lt_cons_iff.mp h with hlt | ⟨rfl, hrest⟩
      · exact utf8EncodeChar_append_lt hlt _ _
      · exact List.append_left_lt (ih hrest)

end Utf8

end Text

end Filestore
