import Filestore.Json

/-!
# `Filestore.Proofs.Json`: what is written is read back

`Json.object` writes an object, and `Json.readObject` reads one: it knows strings with all their
escapes, natural numbers, truth values and arrays of strings, without white space between them,
which is all that the writer makes. What was written is read back as it was (`readObject_object`),
whatever characters are in the strings, and it stands on one line (`newline_not_mem_object`).

Arrays and objects are the same to read, items with commas between them, so `readMany` and its
lemma `readMany_intercalate` are for both. An item is read up to the mark after it, a comma or the
mark that closes, and the lemmas about values ask for such a mark. A number has no end of its own.

The reader is more liberal than the writer where escapes are concerned, and less liberal
elsewhere: it takes escapes that the writer never makes, such as `\/`, but no negative numbers and
no nested objects. It is a reader of this project's output and not of all of JSON. Reading never
gives up for want of fuel; `readMany` goes by the length of the text.
-/

set_option autoImplicit false

namespace Filestore

namespace Json

/-- The value of a hexadecimal digit. -/
def hexDigit? (c : Char) : Option Nat :=
  if '0' ≤ c ∧ c ≤ '9' then some (c.toNat - '0'.toNat)
  else if 'a' ≤ c ∧ c ≤ 'f' then some (c.toNat - 'a'.toNat + 10)
  else if 'A' ≤ c ∧ c ≤ 'F' then some (c.toNat - 'A'.toNat + 10)
  else none

/-- The character that a letter after a backslash stands for. -/
def unescape? : Char → Option Char
  | '"' => some '"'
  | '\\' => some '\\'
  | '/' => some '/'
  | 'b' => some '\x08'
  | 'f' => some '\x0c'
  | 'n' => some '\n'
  | 'r' => some '\r'
  | 't' => some '\t'
  | _ => none

/-- The character with a code of four hexadecimal digits. A surrogate is none. -/
def codeChar? (a b c d : Char) : Option Char := do
  let a ← hexDigit? a
  let b ← hexDigit? b
  let c ← hexDigit? c
  let d ← hexDigit? d
  let code := ((a * 16 + b) * 16 + c) * 16 + d
  if code.isValidChar then some (Char.ofNat code) else none

/-- Reads the characters of a string and the quote that ends it. -/
def readString : List Char → Option (List Char × List Char)
  | [] => none
  | '"' :: rest => some ([], rest)
  | '\\' :: 'u' :: a :: b :: c :: d :: rest => do
    let char ← codeChar? a b c d
    let (content, rest) ← readString rest
    return (char :: content, rest)
  | '\\' :: letter :: rest => do
    let char ← unescape? letter
    let (content, rest) ← readString rest
    return (char :: content, rest)
  | char :: rest =>
    if char = '\\' ∨ char.toNat < 0x20 then none
    else do
      let (content, rest) ← readString rest
      return (char :: content, rest)

/-- Reads a string with its quotes. -/
def readText : List Char → Option (String × List Char)
  | '"' :: rest => (readString rest).map fun (content, rest) => (String.ofList content, rest)
  | _ => none

/-- Reads one item or more, with commas between them, and the mark that closes them. -/
def readMany {α : Type} (item : List Char → Option (α × List Char)) (close : Char)
    (text : List Char) : Option (List α × List Char) :=
  match item text with
  | some (value, mark :: rest) =>
    if mark = close then some ([value], rest)
    -- An item that takes nothing would be read for ever.
    else if mark = ',' ∧ rest.length < text.length then
      (readMany item close rest).map fun (values, rest) => (value :: values, rest)
    else none
  | _ => none
termination_by text.length

/-- Reads a natural number. Its digits are the ones that write it, so it has no leading zeros. -/
def readNat (text : List Char) : Option (Nat × List Char) :=
  let digits := text.takeWhile Char.isDigit
  let value := Nat.ofDigitChars 10 digits 0
  if Nat.toDigits 10 value = digits then some (value, text.dropWhile Char.isDigit) else none

/-- Reads a value. -/
def readValue : List Char → Option (Json × List Char)
  | 't' :: 'r' :: 'u' :: 'e' :: rest => some (.bool true, rest)
  | 'f' :: 'a' :: 'l' :: 's' :: 'e' :: rest => some (.bool false, rest)
  | '[' :: ']' :: rest => some (.texts [], rest)
  | '[' :: rest => (readMany readText ']' rest).map fun (values, rest) => (.texts values, rest)
  | '"' :: rest => (readText ('"' :: rest)).map fun (value, rest) => (.text value, rest)
  | other => (readNat other).map fun (value, rest) => (.nat value, rest)

/-- Reads a field. -/
def readField (text : List Char) : Option (Field × List Char) :=
  match readText text with
  | some (name, ':' :: rest) => (readValue rest).map fun (value, rest) => ((name, value), rest)
  | _ => none

/-- The fields of a text that is an object. -/
def readObject : List Char → Option (List Field)
  | ['\x7b', '\x7d'] => some []
  | '\x7b' :: rest =>
    match readMany readField '\x7d' rest with
    | some (fields, []) => some fields
    | _ => none
  | _ => none

variable {c mark : Char} {text rest : List Char}

section Strings

/-- The two digits that an escape code ends with are read as its character, which is a control
character. -/
theorem codeChar?_digitChar (h : c.toNat < 0x20) :
    codeChar? '0' '0' (Nat.digitChar (c.toNat / 16)) (Nat.digitChar (c.toNat % 16)) = some c := by
  have hdigit : ∀ d < 16, hexDigit? (Nat.digitChar d) = some d := by decide
  have hcode : c.toNat / 16 * 16 + c.toNat % 16 = c.toNat := by omega
  have hzero : hexDigit? '0' = some 0 := by decide
  have hvalid : c.toNat.isValidChar := .inl (by omega)
  simp [codeChar?, hzero, hdigit _ (show c.toNat / 16 < 16 by omega),
    hdigit _ (show c.toNat % 16 < 16 by omega), hcode, hvalid, Char.ofNat_toNat]

/-- A character that needs no escape is read as itself, and the string goes on after it. -/
theorem readString_plain (hquote : c ≠ '"') (hslash : c ≠ '\\') (hcontrol : 0x20 ≤ c.toNat)
    (rest : List Char) :
    readString (c :: rest) = (readString rest).map fun read => (c :: read.1, read.2) := by
  rw [readString]
  · rw [if_neg (not_or.mpr ⟨hslash, Nat.not_lt.mpr hcontrol⟩)]
    cases readString rest <;> rfl
  all_goals simp_all

/-- A letter after a backslash is read as the character it stands for, unless it begins a code. -/
theorem readString_letter {letter : Char} (hletter : unescape? letter = some c)
    (hcode : letter ≠ 'u') (rest : List Char) :
    readString ('\\' :: letter :: rest)
      = (readString rest).map fun read => (c :: read.1, read.2) := by
  rw [readString, hletter]
  · cases readString rest <;> rfl
  · rintro - - - - - rfl
    exact absurd rfl hcode

/-- A character stands in a string as a letter after a backslash, as its code, or as itself. These
are the cases of everything that is said about escapes. -/
theorem escape_cases (c : Char) :
    (∃ letter, escape c = ['\\', letter] ∧ unescape? letter = some c ∧ letter ≠ 'u') ∨
      (escape c = escapeCode c ∧ c.toNat < 0x20) ∨
      (escape c = [c] ∧ c ≠ '"' ∧ c ≠ '\\' ∧ 0x20 ≤ c.toNat) := by
  unfold escape
  split
  · rename_i h
    exact .inl ⟨'"', rfl, congrArg some h.symm, by decide⟩
  split
  · rename_i h
    exact .inl ⟨'\\', rfl, congrArg some h.symm, by decide⟩
  split
  · rename_i h
    exact .inl ⟨'b', rfl, congrArg some h.symm, by decide⟩
  split
  · rename_i h
    exact .inl ⟨'t', rfl, congrArg some h.symm, by decide⟩
  split
  · rename_i h
    exact .inl ⟨'n', rfl, congrArg some h.symm, by decide⟩
  split
  · rename_i h
    exact .inl ⟨'f', rfl, congrArg some h.symm, by decide⟩
  split
  · rename_i h
    exact .inl ⟨'r', rfl, congrArg some h.symm, by decide⟩
  split
  · rename_i hcontrol
    exact .inr (.inl ⟨rfl, hcontrol⟩)
  · rename_i hcontrol
    exact .inr (.inr ⟨rfl, ‹_›, ‹_›, Nat.le_of_not_lt hcontrol⟩)

/-- A character is read back from the way it stands in a string, whatever follows it. -/
theorem readString_escape (c : Char) (rest : List Char) :
    readString (escape c ++ rest) = (readString rest).map fun read => (c :: read.1, read.2) := by
  rcases escape_cases c with
    ⟨letter, hescape, hletter, hcode⟩ | ⟨hescape, hcontrol⟩ | ⟨hescape, hquote, hslash, hcontrol⟩
  all_goals rw [hescape]
  · exact readString_letter hletter hcode rest
  · simp only [escapeCode, List.cons_append, List.nil_append]
    rw [readString, codeChar?_digitChar hcontrol]
    cases readString rest <;> rfl
  · exact readString_plain hquote hslash hcontrol rest

/-- The characters of a string are read back, up to the quote that ends it. No quote among them
ends it before. -/
theorem readString_flatMap_escape (content rest : List Char) :
    readString (content.flatMap escape ++ '"' :: rest) = some (content, rest) := by
  induction content with
  | nil => rfl
  | cons c content ih => rw [List.flatMap_cons, List.append_assoc, readString_escape, ih]; rfl

/-- A string in quotes is read back, and what follows it is left. -/
theorem readText_quote (value : String) (rest : List Char) :
    readText (quote value ++ rest) = some (value, rest) := by
  rw [quote, List.cons_append, List.cons_append, List.append_assoc, readText, List.singleton_append,
    readString_flatMap_escape, Option.map_some]
  simp only [String.ofList_toList]

end Strings

section Values

/-- Items with commas between them are read back, if each is read back up to the mark after it.
There must be one at least, because an empty list has no mark to tell it by. -/
theorem readMany_intercalate {α : Type} {item : List Char → Option (α × List Char)} {close : Char}
    (hclose : close ≠ ',') {write : α → List Char} {values : List α} (hne : values ≠ [])
    (hitem : ∀ value ∈ values, ∀ mark, mark = ',' ∨ mark = close → ∀ rest,
      item (write value ++ mark :: rest) = some (value, mark :: rest)) (rest : List Char) :
    readMany item close ([','].intercalate (values.map write) ++ close :: rest)
      = some (values, rest) := by
  induction values with
  | nil => exact absurd rfl hne
  | cons value values ih =>
    have hfirst := hitem value List.mem_cons_self
    cases values with
    | nil =>
      rw [readMany]
      simp only [List.map_cons, List.map_nil, List.intercalate_singleton,
        hfirst close (.inr rfl) rest, if_true]
    | cons next values =>
      have hothers := ih (List.cons_ne_nil _ _) fun other hmem =>
        hitem other (List.mem_cons_of_mem _ hmem)
      rw [List.map_cons, List.map_cons, List.intercalate_cons_cons, List.append_assoc,
        List.append_assoc, List.singleton_append, ← List.map_cons, readMany]
      -- A comma comes after the first item, so the reader goes on, on a shorter text.
      simp only [hfirst ',' (.inl rfl), if_neg hclose.symm]
      rw [if_pos, hothers]
      · rfl
      · simp only [List.length_append, List.length_cons]
        exact ⟨trivial, by omega⟩

/-- A number is read back, if no digit follows it that could belong to it. -/
theorem readNat_toDigits (value : Nat) (hmark : mark.isDigit = false) (rest : List Char) :
    readNat (Nat.toDigits 10 value ++ mark :: rest) = some (value, mark :: rest) := by
  have hdigits : ∀ c ∈ Nat.toDigits 10 value, c.isDigit := fun c hc =>
    Nat.isDigit_of_mem_toDigits (by decide) (by decide) hc
  simp only [readNat, List.takeWhile_append_of_pos hdigits, List.dropWhile_append_of_pos hdigits,
    List.takeWhile_cons, List.dropWhile_cons, hmark, Bool.false_eq_true, if_false, List.append_nil,
    Nat.ofDigitChars_ten_toDigits, if_true]

/-- A value is read back, if what follows it cannot belong to it. The first character tells the
kinds of values apart. -/
theorem readValue_chars (value : Json) (hmark : mark = ',' ∨ mark = '\x7d') (rest : List Char) :
    readValue (value.chars ++ mark :: rest) = some (value, mark :: rest) := by
  cases value with
  | bool value => cases value <;> rfl
  | nat value =>
    have hstop : mark.isDigit = false := by rcases hmark with rfl | rfl <;> rfl
    have hnat := readNat_toDigits value hstop rest
    -- A number begins with a digit, and no other value does.
    obtain ⟨digit, digits, hdigits⟩ : ∃ digit digits, Nat.toDigits 10 value = digit :: digits :=
      List.exists_cons_of_ne_nil Nat.toDigits_ne_nil
    have hdigit : digit.isDigit := Nat.isDigit_of_mem_toDigits (by decide) (by decide)
      (hdigits ▸ List.mem_cons_self)
    rw [hdigits] at hnat
    rw [chars, hdigits, List.cons_append, readValue]
    · exact congrArg (Option.map _) hnat
    all_goals
      intro _ heq
      obtain ⟨rfl, -⟩ := List.cons.inj heq
      exact absurd hdigit (by decide)
  | text value =>
    exact congrArg (Option.map _) (readText_quote value (mark :: rest))
  | texts values =>
    cases values with
    | nil => rfl
    | cons value values =>
      have hclose : ']' ≠ ',' := by decide
      have hmany := readMany_intercalate hclose (List.cons_ne_nil value values)
        (fun value _ mark _ rest => readText_quote value (mark :: rest)) (mark :: rest)
      rw [chars, List.cons_append, List.cons_append, List.append_assoc, List.singleton_append,
        readValue]
      · rw [hmany]
        rfl
      · intro other heq
        rw [heq, readMany] at hmany
        exact nomatch hmany

/-- A field is read back, its name and its value, up to the mark after it. -/
theorem readField_fieldChars (field : Field) (hmark : mark = ',' ∨ mark = '\x7d')
    (rest : List Char) :
    readField (fieldChars field ++ mark :: rest) = some (field, mark :: rest) := by
  rw [fieldChars, List.append_assoc, readField, readText_quote]
  simp only [List.cons_append, readValue_chars field.2 hmark, Option.map_some]

/-- An object is read back as it was written: the same fields in the same order with the same
values. -/
theorem readObject_object (fields : List Field) :
    readObject (object fields).toList = some fields := by
  rw [object, String.toList_ofList]
  cases fields with
  | nil => rfl
  | cons field fields =>
    have hclose : '\x7d' ≠ ',' := by decide
    have hmany := readMany_intercalate hclose (List.cons_ne_nil field fields)
      (fun field _ mark hmark rest => readField_fieldChars field hmark rest) []
    rw [List.cons_append, readObject]
    · rw [hmany]
    · intro heq
      rw [heq, readMany] at hmany
      exact nomatch hmany

end Values

section OneLine

/-- Parts without line feeds make up a text without one, since there are only commas between
them. -/
theorem newline_not_mem_intercalate {parts : List (List Char)}
    (hparts : ∀ part ∈ parts, '\n' ∉ part) : '\n' ∉ [','].intercalate parts := by
  induction parts with
  | nil => exact List.not_mem_nil
  | cons part parts ih =>
    obtain ⟨hpart, hothers⟩ := List.forall_mem_cons.mp hparts
    cases parts with
    | nil => rwa [List.intercalate_singleton]
    | cons next parts =>
      rw [List.intercalate_cons_cons]
      simp only [List.mem_append, not_or]
      exact ⟨⟨hpart, by decide⟩, ih hothers⟩

/-- No character stands in a string with a line feed: the line feed itself is a letter after a
backslash. -/
theorem newline_not_mem_escape (c : Char) : '\n' ∉ escape c := by
  rcases escape_cases c with
    ⟨letter, hescape, hletter, -⟩ | ⟨hescape, hcontrol⟩ | ⟨hescape, -, -, hcontrol⟩
  all_goals rw [hescape]
  · have hne : '\n' ≠ letter := by
      rintro rfl
      exact nomatch hletter
    simp [hne]
  · have hdigit : ∀ d < 16, '\n' ≠ Nat.digitChar d := by decide
    have hhigh := hdigit (c.toNat / 16) (by omega)
    have hlow := hdigit (c.toNat % 16) (by omega)
    simp [escapeCode, hhigh, hlow]
  · rw [List.mem_singleton]
    rintro rfl
    exact absurd hcontrol (by decide)

/-- A quoted text has no line feed in it, since a line feed is written as an escape. -/
theorem newline_not_mem_quote (value : String) : '\n' ∉ quote value := by
  simp [quote, newline_not_mem_escape]

/-- The text of a value has no line feed in it. -/
theorem newline_not_mem_chars (value : Json) : '\n' ∉ value.chars := by
  cases value with
  | bool value => cases value <;> decide
  | nat value =>
    intro hmem
    exact absurd (Nat.isDigit_of_mem_toDigits (by decide) (by decide) hmem) (by decide)
  | text value => exact newline_not_mem_quote value
  | texts values =>
    have hquotes : ∀ part ∈ values.map quote, '\n' ∉ part :=
      List.forall_mem_map.mpr fun value _ => newline_not_mem_quote value
    simp [chars, newline_not_mem_intercalate hquotes]

/-- An object stands on one line, so objects that are written one a line can be told apart by
lines. -/
theorem newline_not_mem_object (fields : List Field) : '\n' ∉ (object fields).toList := by
  have hfields : ∀ part ∈ fields.map fieldChars, '\n' ∉ part := by
    refine List.forall_mem_map.mpr fun field _ => ?_
    simp [fieldChars, newline_not_mem_quote, newline_not_mem_chars]
  simp [object, newline_not_mem_intercalate hfields]

end OneLine

end Json

end Filestore
