import Filestore.Script.Run

/-!
# `Filestore.Proofs.Script.Lines`: the lines of a text with their ends

A script is read as lines that have lost their ends. To take lines out of a script, their ends
have to go with them: `pieces` cuts a text into lines with their ends, and `chomp` takes the end
off a line. The pieces of a text make up the text (`flatten_pieces`), and its lines are its pieces
without their ends (`lines_encode`). What is left of a text when pieces are taken out has just the
others as its pieces (`pieces_flatten_of_sublist`).

Pieces are cut from characters and lines from bytes. The two agree because a line feed and a
carriage return are bytes that occur in the encoding of no other character, so a text can be cut
before it is encoded or after.

That taking lines out leaves lines is not quite obvious where the last line lacks its end. It is
always the last one that does (`Cut`), and when it is taken out the line before it still has its
end; when it stays, nothing comes after it. A script whose lines all have their ends may therefore
lose any of them, and so may any other.
-/

set_option autoImplicit false

namespace Filestore

namespace Script

open Text

/-- The lines of a text with their ends; the last one may lack its end. -/
def pieces : List Char → List (List Char)
  | [] => []
  | c :: rest =>
    if c = '\n' then [c] :: pieces rest
    else
      match pieces rest with
      | [] => [[c]]
      | piece :: others => (c :: piece) :: others

/-- A line without its end, which is a line feed together with one carriage return before it. -/
def chomp : List Char → List Char
  | [] => []
  | ['\n'] => []
  | ['\r', '\n'] => []
  | c :: rest => c :: chomp rest

/-- The text is a line with its end. -/
def Ended (piece : List Char) : Prop := ∃ line, piece = line ++ ['\n'] ∧ '\n' ∉ line

/-- The text is part of a line. -/
def Unended (piece : List Char) : Prop := piece ≠ [] ∧ '\n' ∉ piece

/-- The texts are lines with their ends, but the last of them may lack its end. -/
inductive Cut : List (List Char) → Prop where
  /-- There are no lines. -/
  | nil : Cut []
  /-- The last line lacks its end. -/
  | last {piece : List Char} : Unended piece → Cut [piece]
  /-- A line has its end. -/
  | cons {piece : List Char} {others : List (List Char)} :
    Ended piece → Cut others → Cut (piece :: others)

variable {c : Char} {piece line rest : List Char} {all kept : List (List Char)}

/-- A line feed at the start of a text is a line of its own, with nothing before its end. -/
theorem pieces_newline (rest : List Char) : pieces ('\n' :: rest) = ['\n'] :: pieces rest := by
  rw [pieces, if_pos rfl]

/-- A character that ends no line goes with what follows it, into the first line of the rest. -/
theorem pieces_cons_of_ne (hc : c ≠ '\n') :
    pieces (c :: rest) =
      match pieces rest with
      | [] => [[c]]
      | piece :: others => (c :: piece) :: others := by
  rw [pieces, if_neg hc]

/-- The pieces of a text make up the text: nothing is lost when it is cut. -/
theorem flatten_pieces (text : List Char) : (pieces text).flatten = text := by
  induction text with
  | nil => rfl
  | cons c rest ih =>
    by_cases hc : c = '\n'
    · rw [hc, pieces_newline, List.flatten_cons, ih]
      rfl
    · rw [pieces_cons_of_ne hc]
      generalize pieces rest = cut at ih
      rw [← ih]
      cases cut <;> rfl

/-- The pieces of a text are lines with their ends, but for the last one perhaps. -/
theorem cut_pieces (text : List Char) : Cut (pieces text) := by
  induction text with
  | nil => exact .nil
  | cons c rest ih =>
    by_cases hc : c = '\n'
    · rw [hc, pieces_newline]
      exact .cons ⟨[], rfl, List.not_mem_nil⟩ ih
    · rw [pieces_cons_of_ne hc]
      generalize pieces rest = cut at ih
      cases ih with
      | nil => exact .last ⟨List.cons_ne_nil _ _, by simpa using Ne.symm hc⟩
      | last hpiece =>
        exact .last ⟨List.cons_ne_nil _ _, by simpa [Ne.symm hc] using hpiece.2⟩
      | cons hpiece hothers =>
        obtain ⟨line, rfl, hline⟩ := hpiece
        exact .cons ⟨c :: line, rfl, by simpa [Ne.symm hc] using hline⟩ hothers

/-- Lines that are taken out leave lines, of which only the last may lack its end. -/
theorem Cut.sublist (h : Cut all) (hkept : List.Sublist kept all) : Cut kept := by
  induction h generalizing kept with
  | nil =>
    rw [List.sublist_nil.mp hkept]
    exact .nil
  | last hpiece =>
    cases hkept with
    | cons _ hnone =>
      rw [List.sublist_nil.mp hnone]
      exact .nil
    | cons_cons _ hnone =>
      rw [List.sublist_nil.mp hnone]
      exact .last hpiece
  | cons hpiece _ ih =>
    cases hkept with
    | cons _ hrest => exact ih hrest
    | cons_cons _ hrest => exact .cons hpiece (ih hrest)

/-- A part of a line is its only piece, as there is no end in it to cut at. -/
theorem pieces_of_unended (h : Unended piece) : pieces piece = [piece] := by
  obtain ⟨hne, hline⟩ := h
  induction piece with
  | nil => exact absurd rfl hne
  | cons c rest ih =>
    obtain ⟨hc, hrest⟩ := not_or.mp (mt List.mem_cons.mpr hline)
    rw [pieces_cons_of_ne (Ne.symm hc)]
    cases rest with
    | nil => rfl
    | cons d rest => rw [ih (List.cons_ne_nil _ _) hrest]

/-- A line with its end is the first piece of a text that it begins, whatever comes after it. -/
theorem pieces_append_of_ended (h : Ended piece) (rest : List Char) :
    pieces (piece ++ rest) = piece :: pieces rest := by
  obtain ⟨line, rfl, hline⟩ := h
  rw [List.append_assoc]
  induction line with
  | nil => exact pieces_newline rest
  | cons c line ih =>
    obtain ⟨hc, hrest⟩ := not_or.mp (mt List.mem_cons.mpr hline)
    rw [List.cons_append, pieces_cons_of_ne (Ne.symm hc), ih hrest]
    rfl

/-- Lines are the pieces of the text that they make up, if only the last may lack its end. -/
theorem Cut.pieces_flatten (h : Cut all) : pieces all.flatten = all := by
  induction h with
  | nil => rfl
  | last hpiece => rw [List.flatten_singleton, pieces_of_unended hpiece]
  | cons hpiece _ ih => rw [List.flatten_cons, pieces_append_of_ended hpiece, ih]

/-- Pieces that are taken out of a text leave the others as pieces, and no two of them become
one. -/
theorem pieces_flatten_of_sublist {text : List Char} (h : List.Sublist kept (pieces text)) :
    pieces kept.flatten = kept :=
  ((cut_pieces text).sublist h).pieces_flatten

section Encoding

/-- A byte below 128 is in the encoding of no character but its own. So the bytes that end lines
are those that stand for the characters that end lines. -/
theorem not_mem_utf8EncodeChar {byte : UInt8} (hbyte : byte.toNat < 128)
    (hc : c.toNat ≠ byte.toNat) : byte ∉ String.utf8EncodeChar c := by
  intro hmem
  have hword : ∀ n, n < 256 → (UInt8.ofNat n).toNat = n := fun n hn => by
    simp [UInt8.toNat_ofNat', Nat.mod_eq_of_lt hn]
  replace hc : c.val.toNat ≠ byte.toNat := hc
  have hvalid : c.val.toNat < 0x110000 := by
    have := c.valid
    simp only [UInt32.isValidChar, Nat.isValidChar] at this
    omega
  unfold String.utf8EncodeChar at hmem
  generalize c.val.toNat = v at hc hvalid hmem
  dsimp only at hmem
  -- Every byte of a longer encoding is 128 or more.
  have hlarge : ∀ n, n < 256 → 128 ≤ n → byte ≠ UInt8.ofNat n := by
    rintro n hn hge rfl
    rw [hword n hn] at hbyte
    omega
  split at hmem
  · rw [List.mem_singleton.mp hmem, hword v (by omega)] at hc
    exact hc rfl
  split at hmem
  · simp only [List.mem_cons, List.not_mem_nil, or_false] at hmem
    rcases hmem with h | h <;> exact hlarge _ (by omega) (by omega) h
  split at hmem
  · simp only [List.mem_cons, List.not_mem_nil, or_false] at hmem
    rcases hmem with h | h | h <;> exact hlarge _ (by omega) (by omega) h
  · simp only [List.mem_cons, List.not_mem_nil, or_false] at hmem
    rcases hmem with h | h | h | h <;> exact hlarge _ (by omega) (by omega) h

/-- A text is encoded character by character, from the first on. -/
theorem encode_cons (c : Char) (rest : List Char) :
    Utf8.encode (c :: rest) = String.utf8EncodeChar c ++ Utf8.encode rest := List.flatMap_cons

/-- Bytes that end no line go with what follows them, into the first line of the rest. -/
theorem lines_append {bytes : Bytes} (hne : bytes ≠ []) (hfeed : 10 ∉ bytes)
    (hreturn : 13 ∉ bytes) (rest : Bytes) :
    lines (bytes ++ rest) =
      match lines rest with
      | [] => [bytes]
      | line :: others => (bytes ++ line) :: others := by
  induction bytes with
  | nil => exact absurd rfl hne
  | cons byte bytes ih =>
    obtain ⟨hten, hfeed⟩ := not_or.mp (mt List.mem_cons.mpr hfeed)
    obtain ⟨hthirteen, hreturn⟩ := not_or.mp (mt List.mem_cons.mpr hreturn)
    rw [List.cons_append, lines, if_neg (Ne.symm hten), if_neg fun h => hthirteen h.1.symm]
    cases bytes with
    | nil => rfl
    | cons next bytes =>
      rw [ih (List.cons_ne_nil _ _) hfeed hreturn]
      cases lines rest <;> rfl

/-- A text that does not begin with a line feed is not encoded as one that does. -/
theorem head?_encode_ne {text : List Char} (h : text.head? ≠ some '\n') :
    (Utf8.encode text).head? ≠ some 10 := by
  cases text with
  | nil => exact fun hnone => nomatch hnone
  | cons c rest =>
    intro hhead
    have hne : c.toNat ≠ (10 : UInt8).toNat := by
      intro heq
      exact h (congrArg some (Char.toNat_inj.mp heq))
    have hsome : String.utf8EncodeChar c ≠ [] := String.utf8EncodeChar_ne_nil
    obtain ⟨byte, bytes, hbytes⟩ := List.exists_cons_of_ne_nil hsome
    rw [encode_cons, hbytes] at hhead
    cases hhead
    exact not_mem_utf8EncodeChar (by decide) hne (hbytes ▸ List.mem_cons_self)

/-- The end of a line is not at its first character, unless that is the end. -/
theorem chomp_cons (hfeed : c ≠ '\n') (hreturn : c = '\r' → rest ≠ ['\n']) :
    chomp (c :: rest) = c :: chomp rest := by
  rw [chomp]
  · exact fun heq _ => hfeed heq
  · exact hreturn

/-- The first line of a text begins with the first character, unless that is an end or a carriage
return right before one. -/
theorem lines_encode_cons (hfeed : c ≠ '\n') (hreturn : c = '\r' → rest.head? ≠ some '\n') :
    lines (Utf8.encode (c :: rest)) =
      match lines (Utf8.encode rest) with
      | [] => [String.utf8EncodeChar c]
      | line :: others => (String.utf8EncodeChar c ++ line) :: others := by
  rw [encode_cons]
  by_cases hc : c = '\r'
  · rw [hc, show String.utf8EncodeChar '\r' = [13] from rfl, List.singleton_append, lines,
      if_neg (by decide), if_neg fun h => head?_encode_ne (hreturn hc) h.2]
    rfl
  · exact lines_append String.utf8EncodeChar_ne_nil
      (not_mem_utf8EncodeChar (by decide) fun heq => hfeed (Char.toNat_inj.mp heq))
      (not_mem_utf8EncodeChar (by decide) fun heq => hc (Char.toNat_inj.mp heq)) _

/-- The lines of a text are its pieces without their ends, each of them encoded. -/
theorem lines_encode (text : List Char) :
    lines (Utf8.encode text) = (pieces text).map fun piece => Utf8.encode (chomp piece) := by
  induction text with
  | nil => rfl
  | cons c rest ih =>
    by_cases hfeed : c = '\n'
    · rw [hfeed, pieces_newline, List.map_cons, ← ih]
      rfl
    by_cases hreturn : c = '\r' ∧ rest.head? = some '\n'
    · -- The two characters are one end, of a line that is empty.
      obtain ⟨rfl, hhead⟩ := hreturn
      obtain ⟨rest, rfl⟩ := List.head?_eq_some_iff.mp hhead
      rw [pieces_cons_of_ne hfeed, pieces_newline]
      rw [pieces_newline] at ih
      exact ih
    · have hother : c = '\r' → rest.head? ≠ some '\n' := fun hc hhead => hreturn ⟨hc, hhead⟩
      rw [lines_encode_cons hfeed hother, ih, pieces_cons_of_ne hfeed]
      cases hpieces : pieces rest with
      | nil => simp [chomp_cons hfeed, chomp, Utf8.encode]
      | cons piece others =>
        have hpiece : c = '\r' → piece ≠ ['\n'] := by
          rintro hc rfl
          refine hother hc ?_
          rw [← flatten_pieces rest, hpieces]
          rfl
        simp only [List.map_cons]
        rw [chomp_cons hfeed hpiece, encode_cons]

end Encoding

end Script

end Filestore
