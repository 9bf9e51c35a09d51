import Filestore.Proofs.Text.Numeral
import Filestore.Script.Parser

/-!
# `Filestore.Proofs.Script.Grammar`: the lines that are commands

The parser takes words off the front of a line and hands on what is left. The grammar knows nothing
of that: `Spells` says which lists of words ask for which command, and `WriteLine` which lines ask
for a write, the one command whose data are not words.

`parseLine_accepts` is the main result. A line that does not start with `write` is read by the words
before its first number sign, and by nothing else (`parseLine_eq_some_iff_spells`). A line that does
start with `write` is a write or a fault (`parseLine_eq_ok_iff_writeLine`).

Each function of the parser is given its lemma on a text without white space at its ends, which is
what is left of a line each time a word is taken off it.
-/

set_option autoImplicit false

namespace Filestore

namespace Script

open Text

/-- The word gives a fill byte: it is one character of ASCII that is no digit, or a number below
256. -/
def GivesByte (word : List Char) (byte : UInt8) : Prop :=
  (∃ c : Char, word = [c] ∧ c.toNat < 128 ∧ c.isDigit = false ∧ byte = UInt8.ofNat c.toNat) ∨
    ∃ value, Numeral.Writes Numeral.bound8 word value ∧ byte = UInt8.ofNat value

/-- The word writes a number of 64 bits. -/
abbrev Gives (word : List Char) (value : Nat) : Prop := Numeral.Writes Numeral.bound64 word value

/-- The words ask for the command. -/
inductive Spells : List (List Char) → Command → Prop where
  /-- Open the file of that name. -/
  | openFile {name : String} : Spells ["open".toList, name.toList] (.openFile name false)
  /-- Open the file of that name, or create it. -/
  | createFile {name : String} :
    Spells ["open".toList, name.toList, "create".toList] (.openFile name true)
  /-- Fill with the byte `x`. -/
  | fill {first second : List Char} {fd len : Nat} :
    Gives first fd → Gives second len →
      Spells ["fill".toList, first, second] (.fill fd len (UInt8.ofNat 'x'.toNat))
  /-- Fill with the given byte. -/
  | fillWith {first second third : List Char} {fd len : Nat} {byte : UInt8} :
    Gives first fd → Gives second len → GivesByte third byte →
      Spells ["fill".toList, first, second, third] (.fill fd len byte)
  /-- Read at most that many bytes. -/
  | read {first second : List Char} {fd most : Nat} :
    Gives first fd → Gives second most →
      Spells ["read".toList, first, second] (.read fd most)
  /-- Close the descriptor. -/
  | close {word : List Char} {fd : Nat} :
    Gives word fd → Spells ["close".toList, word] (.close fd)
  /-- Move the cursor to the start. -/
  | rewind {word : List Char} {fd : Nat} :
    Gives word fd → Spells ["rewind".toList, word] (.rewind fd)
  /-- Show the statistics of the open file. -/
  | statOpen {word : List Char} {fd : Nat} :
    Gives word fd → Spells ["fstat".toList, word] (.statOpen fd)
  /-- Show the digest of the open file. -/
  | digest {word : List Char} {fd : Nat} :
    Gives word fd → Spells ["digest".toList, word] (.digest fd)
  /-- Delete the name. -/
  | delete {name : String} : Spells ["delete".toList, name.toList] (.delete name)
  /-- Delete the name, in short. -/
  | rm {name : String} : Spells ["rm".toList, name.toList] (.delete name)
  /-- Show the statistics of the named file. -/
  | stat {name : String} : Spells ["stat".toList, name.toList] (.stat name)
  /-- Set the size. -/
  | resize {first second : List Char} {fd size : Nat} :
    Gives first fd → Gives second size →
      Spells ["resize".toList, first, second] (.resize fd size)
  /-- Show the names. -/
  | list : Spells ["ls".toList] .list
  /-- Show the outcome of the latest call. -/
  | lastError : Spells ["errno".toList] .lastError
  /-- Give up everything. -/
  | destroy : Spells ["destroy".toList] .destroy

/-- The part of a line before its first number sign. -/
def code (line : List Char) : List Char := line.takeWhile fun c => c != '#'

/-- The line begins with `write`, after white space if there is any. -/
def BeginsWrite (line : List Char) : Prop := "write".toList <+: trimStart line

instance (line : List Char) : Decidable (BeginsWrite line) :=
  inferInstanceAs (Decidable ("write".toList <+: trimStart line))

/-- The line asks to write the data: the word `write`, a descriptor, and the rest of the line, where
what separates them and what surrounds them is white space. -/
def WriteLine (line : List Char) (fd : Nat) (data : List Char) : Prop :=
  ∃ before text after rest numeral, line = before ++ (text ++ after) ∧ Gap before ∧ Gap after ∧
    Headed "write".toList rest text ∧ Headed numeral data rest ∧ Gives numeral fd ∧ Trimmed data

variable {text word rest line : List Char} {bound value : Nat} {argument : Argument}
  {command : Command}

section Arguments

/-- Steps give a result just if each gives one that the next can use. With this the steps of a
parser function are taken apart. -/
private theorem bind_eq_ok_iff {ε α β : Type} {step : Except ε α} {next : α → Except ε β}
    {result : β} :
    (step >>= next) = .ok result ↔ ∃ inner, step = .ok inner ∧ next inner = .ok result := by
  cases step with
  | error e => exact ⟨fun h => (nomatch h), fun ⟨_, h, _⟩ => (nomatch h)⟩
  | ok inner => exact ⟨fun h => ⟨inner, rfl, h⟩, fun ⟨_, h, hnext⟩ => Except.ok.inj h ▸ hnext⟩

/-- A result that is changed is there just if the result before the change is. -/
private theorem map_eq_ok_iff {ε α β : Type} {step : Except ε α} {f : α → β} {result : β} :
    step.map f = .ok result ↔ ∃ inner, step = .ok inner ∧ f inner = result := by
  cases step with
  | error e => exact ⟨fun h => (nomatch h), fun ⟨_, h, _⟩ => (nomatch h)⟩
  | ok inner =>
    exact ⟨fun h => ⟨inner, rfl, Except.ok.inj h⟩,
      fun ⟨_, h, hf⟩ => Except.ok.inj h ▸ congrArg _ hf⟩

/-- An argument is read as a number just if it writes that number, whatever the argument is for. -/
theorem number_eq_ok_iff :
    number bound argument text = .ok value ↔ Numeral.Writes bound text value := by
  rw [← Numeral.read_eq_ok_iff]
  unfold number
  split
  · exact ⟨fun h => (nomatch h), fun h => (nomatch h)⟩
  · split
    · rename_i cause hread
      rw [hread]
      exact ⟨fun h => (nomatch h), fun h => (nomatch h)⟩
    · rename_i hread
      rw [hread]
      exact ⟨fun h => congrArg Except.ok (Except.ok.inj h),
        fun h => congrArg Except.ok (Except.ok.inj h)⟩

/-- An argument is read as a descriptor just if it writes a number of 64 bits. -/
theorem descriptor_eq_ok_iff : descriptor text = .ok value ↔ Gives text value := number_eq_ok_iff

/-- Any word but the empty one is a file name, and the name is the word. -/
theorem fileName_eq_ok_iff {name : String} :
    fileName word = .ok name ↔ word ≠ [] ∧ String.ofList word = name := by
  cases word with
  | nil => exact ⟨fun h => (nomatch h), fun h => absurd rfl h.1⟩
  | cons c word => exact ⟨fun h => ⟨List.cons_ne_nil _ _, Except.ok.inj h⟩, fun h => congrArg _ h.2⟩

/-- A text has an only word just if it is the only one: what is left over is a fault. -/
theorem onlyWord_eq_ok_iff (h : Trimmed text) (hne : word ≠ []) :
    onlyWord text = .ok word ↔ words text = [word] := by
  rcases h.words_cases with rfl | ⟨first, rest, hsplit, -, hrest, hwords⟩
  · exact ⟨fun h => absurd (Except.ok.inj h).symm hne, fun h => (nomatch h)⟩
  · rw [onlyWord, hsplit, hwords]
    cases rest with
    | nil => simp [words_nil]
    | cons c rest =>
      have hmore : words (c :: rest) ≠ [] := mt hrest.words_eq_nil_iff.mp (List.cons_ne_nil c rest)
      simp [hmore]

/-- A command that takes nothing is read just where no word is left. -/
theorem alone_eq_ok_iff {only : Command} (h : Trimmed text) :
    alone only text = .ok command ↔ words text = [] ∧ only = command := by
  rw [h.words_eq_nil_iff]
  cases text with
  | nil => exact ⟨fun h => ⟨rfl, Except.ok.inj h⟩, fun h => congrArg _ h.2⟩
  | cons c text => exact ⟨fun h => (nomatch h), fun h => (nomatch h.1)⟩

/-- A command that takes a file name is read just where one word is left, which is the name. -/
theorem withName_eq_ok_iff {build : String → Command} (h : Trimmed text) :
    withName build text = .ok command ↔
      ∃ name, words text = [name.toList] ∧ build name = command := by
  simp only [withName, bind_eq_ok_iff, fileName_eq_ok_iff]
  constructor
  · rintro ⟨word, honly, name, ⟨hne, hname⟩, hcommand⟩
    refine ⟨name, ?_, Except.ok.inj hcommand⟩
    rw [(onlyWord_eq_ok_iff h hne).mp honly, ← hname, String.toList_ofList]
  · rintro ⟨name, hwords, rfl⟩
    have hne : name.toList ≠ [] := (isWord_of_mem_words (hwords ▸ List.mem_singleton_self _)).1
    exact ⟨_, (onlyWord_eq_ok_iff h hne).mpr hwords, name, ⟨hne, String.ofList_toList⟩, rfl⟩

/-- A command that takes a descriptor is read just where one word is left, which gives it. -/
theorem withDescriptor_eq_ok_iff {build : Nat → Command} (h : Trimmed text) :
    withDescriptor build text = .ok command ↔
      ∃ numeral fd, words text = [numeral] ∧ Gives numeral fd ∧ build fd = command := by
  simp only [withDescriptor, bind_eq_ok_iff, descriptor_eq_ok_iff]
  constructor
  · rintro ⟨numeral, honly, fd, hfd, hcommand⟩
    exact ⟨numeral, fd, (onlyWord_eq_ok_iff h hfd.isWord.1).mp honly, hfd, Except.ok.inj hcommand⟩
  · rintro ⟨numeral, fd, hwords, hfd, rfl⟩
    exact ⟨numeral, (onlyWord_eq_ok_iff h hfd.isWord.1).mpr hwords, fd, hfd, rfl⟩

/-- What is read as a number is the only word left. A numeral has no white space in it, so the
rest of the line may be read as it is. -/
theorem gives_iff_words (h : Trimmed text) :
    Numeral.Writes bound text value ↔
      ∃ numeral, words text = [numeral] ∧ Numeral.Writes bound numeral value :=
  ⟨fun hvalue => ⟨text, hvalue.isWord.words_eq, hvalue⟩,
    fun ⟨_, hwords, hvalue⟩ => h.eq_of_words_eq hwords ▸ hvalue⟩

/-- A command that takes a descriptor and a number is read just where two words are left, which
give them. -/
theorem withNumber_eq_ok_iff {build : Nat → Nat → Command} (h : Trimmed text) :
    withNumber build argument text = .ok command ↔
      ∃ first second fd value, words text = [first, second] ∧ Gives first fd ∧
        Gives second value ∧ build fd value = command := by
  simp only [withNumber, bind_eq_ok_iff, descriptor_eq_ok_iff, number_eq_ok_iff]
  rcases h.words_cases with rfl | ⟨first, rest, hsplit, -, hrest, hwords⟩
  · constructor
    · rintro ⟨fd, hfd, -⟩
      exact absurd rfl hfd.isWord.1
    · rintro ⟨_, _, _, _, hwords, -⟩
      exact nomatch hwords
  · rw [hsplit, hwords]
    constructor
    · rintro ⟨fd, hfd, value, hvalue, hcommand⟩
      obtain ⟨second, hsecond, hvalue⟩ := (gives_iff_words hrest).mp hvalue
      exact ⟨first, second, fd, value, by rw [hsecond], hfd, hvalue, Except.ok.inj hcommand⟩
    · rintro ⟨first, second, fd, value, hall, hfd, hvalue, rfl⟩
      obtain ⟨rfl, hsecond⟩ := List.cons.inj hall
      exact ⟨fd, hfd, value, (gives_iff_words hrest).mpr ⟨second, hsecond, hvalue⟩, rfl⟩

/-- An opening is read just where a name is left, and behind it nothing or the one flag that there
is. -/
theorem parseOpen_eq_ok_iff (h : Trimmed text) :
    parseOpen text = .ok command ↔
      ∃ name, words text = [name.toList] ∧ .openFile name false = command ∨
        words text = [name.toList, "create".toList] ∧ .openFile name true = command := by
  rcases h.words_cases with rfl | ⟨word, flag, hsplit, hword, hflag, hwords⟩
  · refine ⟨fun h => (nomatch h), ?_⟩
    rintro ⟨name, ⟨hnone, -⟩ | ⟨hnone, -⟩⟩ <;> exact nomatch hnone
  obtain ⟨name, rfl⟩ : ∃ name : String, word = name.toList := ⟨_, String.toList_ofList.symm⟩
  simp only [parseOpen, hsplit, hwords]
  -- The flag is all that is left of the line: nothing, the one word that is known, or a complaint.
  by_cases hnone : flag = []
  · rw [hnone]
    simp [bind_eq_ok_iff, fileName_eq_ok_iff, hword.1, words_nil, String.toList_inj, pure,
      Except.pure]
  by_cases hcreate : flag = "create".toList
  · have hone : words flag = [flag] :=
      IsWord.words_eq (hcreate ▸ (by decide : IsWord "create".toList))
    rw [hone, hcreate]
    simp [bind_eq_ok_iff, fileName_eq_ok_iff, hword.1, String.toList_inj, pure, Except.pure]
  · have hmore : words flag ≠ [] := mt hflag.words_eq_nil_iff.mp hnone
    have hother : words flag ≠ ["create".toList] := fun hone => hcreate (hflag.eq_of_words_eq hone)
    rw [if_pos ⟨hnone, hcreate⟩]
    refine ⟨fun h => (nomatch h), ?_⟩
    rintro ⟨name, ⟨hall, -⟩ | ⟨hall, -⟩⟩
    · exact absurd (List.cons.inj hall).2 hmore
    · exact absurd (List.cons.inj hall).2 hother

/-- A numeral of one character is a digit. A sign alone writes no number. -/
theorem isDigit_of_writes {c : Char} (h : Numeral.Writes bound [c] value) : c.isDigit = true := by
  obtain ⟨digits, htext | htext, hne, hdigits, -⟩ := h
  · exact hdigits c (htext ▸ List.mem_singleton_self c)
  · exact absurd (List.cons.inj htext).2.symm hne

/-- A word that gives a fill byte is a word, also where it is a character of its own: that would
have been trimmed off if it were white space. -/
theorem isWord_of_givesByte {byte : UInt8} (h : Trimmed text) (hbyte : GivesByte text byte) :
    IsWord text := by
  rcases hbyte with ⟨c, rfl, -⟩ | ⟨value, hvalue, -⟩
  · exact ⟨List.cons_ne_nil _ _, by simpa using h.head c rfl⟩
  · exact hvalue.isWord

/-- A fill byte is read from nothing, as `x`, or from a word that gives it. -/
theorem fillByte_eq_ok_iff {byte : UInt8} :
    fillByte text = .ok byte ↔ text = [] ∧ UInt8.ofNat 'x'.toNat = byte ∨ GivesByte text byte := by
  have hnumber : (number Numeral.bound8 .fillByte text).map UInt8.ofNat = .ok byte ↔
      ∃ value, Numeral.Writes Numeral.bound8 text value ∧ byte = UInt8.ofNat value := by
    rw [map_eq_ok_iff]
    exact exists_congr fun value => and_congr number_eq_ok_iff eq_comm
  -- The parser looks at how long the word is, so the cases are no character, one, and more. A word
  -- of one character is that byte, unless it is a digit or no ASCII.
  unfold fillByte GivesByte
  simp only
  split
  · constructor
    · exact fun h => .inl ⟨rfl, Except.ok.inj h⟩
    · rintro (⟨-, rfl⟩ | ⟨c, hc, -⟩ | ⟨value, hvalue, -⟩)
      · rfl
      · exact nomatch hc
      · exact absurd rfl hvalue.isWord.1
  · rename_i c
    split
    · rename_i hc
      constructor
      · exact fun h => .inr (.inl ⟨c, rfl, hc.1, hc.2, (Except.ok.inj h).symm⟩)
      · rintro (⟨hnil, -⟩ | ⟨d, hd, -, -, rfl⟩ | ⟨value, hvalue, -⟩)
        · exact nomatch hnil
        · rw [(List.cons.inj hd).1]
        · -- A numeral of one character is a digit, which this case excludes.
          rw [isDigit_of_writes hvalue] at hc
          exact nomatch hc.2
    · rename_i hc
      rw [hnumber]
      constructor
      · exact fun h => .inr (.inr h)
      · rintro (⟨hnil, -⟩ | ⟨d, hd, hascii, hdigit, -⟩ | hvalue)
        · exact nomatch hnil
        · rw [(List.cons.inj hd).1] at hc
          exact absurd ⟨hascii, hdigit⟩ hc
        · exact hvalue
  · rename_i hnil hone
    rw [hnumber]
    constructor
    · exact fun h => .inr (.inr h)
    · rintro (⟨rfl, -⟩ | ⟨c, rfl, -⟩ | hvalue)
      · exact absurd rfl hnil
      · exact absurd rfl (hone c)
      · exact hvalue

/-- A fill is read just where two or three words are left: the descriptor, the length, and perhaps
the byte. -/
theorem parseFill_eq_ok_iff (h : Trimmed text) :
    parseFill text = .ok command ↔
      ∃ first second fd len, Gives first fd ∧ Gives second len ∧
        (words text = [first, second] ∧ .fill fd len (UInt8.ofNat 'x'.toNat) = command ∨
          ∃ third byte, words text = [first, second, third] ∧ GivesByte third byte ∧
            .fill fd len byte = command) := by
  simp only [parseFill, bind_eq_ok_iff, descriptor_eq_ok_iff, number_eq_ok_iff, fillByte_eq_ok_iff]
  -- The words are taken off one by one, as the parser does. What is left after two of them is the
  -- word for the byte, if there is just one.
  rcases h.words_cases with rfl | ⟨first, more, hfirst, -, hmore, hwords⟩
  · constructor
    · rintro ⟨fd, hfd, -⟩
      exact absurd rfl hfd.isWord.1
    · rintro ⟨_, _, _, _, -, -, ⟨hwords, -⟩ | ⟨_, _, hwords, -⟩⟩ <;> exact nomatch hwords
  rcases hmore.words_cases with rfl | ⟨second, rest, hsecond, -, hrest, hmorewords⟩
  · -- With one word only, the length is missing, and no text is an empty numeral.
    rw [hfirst, hwords]
    constructor
    · rintro ⟨fd, -, len, hlen, -⟩
      exact absurd rfl hlen.isWord.1
    · rintro ⟨_, _, _, _, -, -, ⟨hwords, -⟩ | ⟨_, _, hwords, -⟩⟩ <;> exact nomatch hwords
  rw [hfirst, hwords, hmorewords]
  simp only [hsecond]
  constructor
  · rintro ⟨fd, hfd, len, hlen, byte, ⟨rfl, rfl⟩ | hbyte, hcommand⟩
    · exact ⟨first, second, fd, len, hfd, hlen, .inl ⟨rfl, Except.ok.inj hcommand⟩⟩
    · refine ⟨first, second, fd, len, hfd, hlen,
        .inr ⟨rest, byte, ?_, hbyte, Except.ok.inj hcommand⟩⟩
      rw [(isWord_of_givesByte hrest hbyte).words_eq]
  · rintro ⟨_, _, fd, len, hfd, hlen, ⟨hall, rfl⟩ | ⟨third, byte, hall, hbyte, rfl⟩⟩
    · obtain ⟨rfl, htail⟩ := List.cons.inj hall
      obtain ⟨rfl, hnone⟩ := List.cons.inj htail
      exact ⟨fd, hfd, len, hlen, _, .inl ⟨hrest.words_eq_nil_iff.mp hnone, rfl⟩, rfl⟩
    · obtain ⟨rfl, htail⟩ := List.cons.inj hall
      obtain ⟨rfl, hone⟩ := List.cons.inj htail
      exact ⟨fd, hfd, len, hlen, byte, .inr (hrest.eq_of_words_eq hone ▸ hbyte), rfl⟩

/-- A write is read just where the first word gives a descriptor. Whatever is left is the data. -/
theorem parseWrite_eq_ok_iff :
    parseWrite text = .ok command ↔
      ∃ fd, Gives (splitWord text).1 fd ∧ .write fd (Utf8.encode (splitWord text).2) = command := by
  simp only [parseWrite, bind_eq_ok_iff, descriptor_eq_ok_iff]
  exact exists_congr fun fd => and_congr Iff.rfl ⟨Except.ok.inj, congrArg _⟩

end Arguments

section Commands

variable {name : String}

/-- A word and the text after it are read as a command just if the words ask for it, one case for
each command word. -/
theorem parseCommand_eq_ok_iff (hrest : Trimmed rest) (hname : name ≠ "write") :
    parseCommand name rest = .ok command ↔ Spells (name.toList :: words rest) command := by
  constructor
  · intro h
    -- One case for each name of a command, in the order of the parser. The rule is the one that the
    -- name begins.
    unfold parseCommand at h
    split at h
    · obtain ⟨name, ⟨hwords, rfl⟩ | ⟨hwords, rfl⟩⟩ := (parseOpen_eq_ok_iff hrest).mp h
      · exact hwords ▸ .openFile
      · exact hwords ▸ .createFile
    · exact absurd rfl hname
    · obtain ⟨first, second, fd, len, hfd, hlen,
        ⟨hwords, rfl⟩ | ⟨third, byte, hwords, hbyte, rfl⟩⟩ := (parseFill_eq_ok_iff hrest).mp h
      · exact hwords ▸ .fill hfd hlen
      · exact hwords ▸ .fillWith hfd hlen hbyte
    · obtain ⟨first, second, fd, most, hwords, hfd, hmost, rfl⟩ := (withNumber_eq_ok_iff hrest).mp h
      exact hwords ▸ .read hfd hmost
    · obtain ⟨numeral, fd, hwords, hfd, rfl⟩ := (withDescriptor_eq_ok_iff hrest).mp h
      exact hwords ▸ .close hfd
    · obtain ⟨name, hwords, rfl⟩ := (withName_eq_ok_iff hrest).mp h
      exact hwords ▸ .delete
    · obtain ⟨name, hwords, rfl⟩ := (withName_eq_ok_iff hrest).mp h
      exact hwords ▸ .rm
    · obtain ⟨first, second, fd, size, hwords, hfd, hsize, rfl⟩ := (withNumber_eq_ok_iff hrest).mp h
      exact hwords ▸ .resize hfd hsize
    · obtain ⟨numeral, fd, hwords, hfd, rfl⟩ := (withDescriptor_eq_ok_iff hrest).mp h
      exact hwords ▸ .rewind hfd
    · obtain ⟨name, hwords, rfl⟩ := (withName_eq_ok_iff hrest).mp h
      exact hwords ▸ .stat
    · obtain ⟨numeral, fd, hwords, hfd, rfl⟩ := (withDescriptor_eq_ok_iff hrest).mp h
      exact hwords ▸ .statOpen hfd
    · obtain ⟨numeral, fd, hwords, hfd, rfl⟩ := (withDescriptor_eq_ok_iff hrest).mp h
      exact hwords ▸ .digest hfd
    · obtain ⟨hwords, rfl⟩ := (alone_eq_ok_iff hrest).mp h
      exact hwords ▸ .list
    · obtain ⟨hwords, rfl⟩ := (alone_eq_ok_iff hrest).mp h
      exact hwords ▸ .lastError
    · obtain ⟨hwords, rfl⟩ := (alone_eq_ok_iff hrest).mp h
      exact hwords ▸ .destroy
    · exact nomatch h
  · intro h
    -- The rules have a name as their first word, so its letters decide which case the parser takes.
    generalize hall : name.toList :: words rest = all at h
    cases h <;> obtain ⟨hhead, hwords⟩ := List.cons.inj hall <;>
      obtain rfl := String.toList_injective hhead
    case openFile => exact (parseOpen_eq_ok_iff hrest).mpr ⟨_, .inl ⟨hwords, rfl⟩⟩
    case createFile => exact (parseOpen_eq_ok_iff hrest).mpr ⟨_, .inr ⟨hwords, rfl⟩⟩
    case fill hfd hlen =>
      exact (parseFill_eq_ok_iff hrest).mpr ⟨_, _, _, _, hfd, hlen, .inl ⟨hwords, rfl⟩⟩
    case fillWith hfd hlen hbyte =>
      exact (parseFill_eq_ok_iff hrest).mpr
        ⟨_, _, _, _, hfd, hlen, .inr ⟨_, _, hwords, hbyte, rfl⟩⟩
    case read hfd hmost =>
      exact (withNumber_eq_ok_iff hrest).mpr ⟨_, _, _, _, hwords, hfd, hmost, rfl⟩
    case close hfd => exact (withDescriptor_eq_ok_iff hrest).mpr ⟨_, _, hwords, hfd, rfl⟩
    case rewind hfd => exact (withDescriptor_eq_ok_iff hrest).mpr ⟨_, _, hwords, hfd, rfl⟩
    case statOpen hfd => exact (withDescriptor_eq_ok_iff hrest).mpr ⟨_, _, hwords, hfd, rfl⟩
    case digest hfd => exact (withDescriptor_eq_ok_iff hrest).mpr ⟨_, _, hwords, hfd, rfl⟩
    case delete => exact (withName_eq_ok_iff hrest).mpr ⟨_, hwords, rfl⟩
    case rm => exact (withName_eq_ok_iff hrest).mpr ⟨_, hwords, rfl⟩
    case stat => exact (withName_eq_ok_iff hrest).mpr ⟨_, hwords, rfl⟩
    case resize hfd hsize =>
      exact (withNumber_eq_ok_iff hrest).mpr ⟨_, _, _, _, hwords, hfd, hsize, rfl⟩
    case list => exact (alone_eq_ok_iff hrest).mpr ⟨hwords, rfl⟩
    case lastError => exact (alone_eq_ok_iff hrest).mpr ⟨hwords, rfl⟩
    case destroy => exact (alone_eq_ok_iff hrest).mpr ⟨hwords, rfl⟩

/-- The word `write` and the text after it are read as a write, and the text is not split into
words. -/
theorem parseCommand_write (text : List Char) : parseCommand "write" text = parseWrite text := rfl

end Commands

section Lines

/-- A line that begins with `write` keeps its number signs and what follows them. -/
theorem stripComment_of_beginsWrite (h : BeginsWrite line) : stripComment line = line :=
  if_pos (List.isPrefixOf_iff_prefix.mpr h)

/-- Any other line is read up to its first number sign. -/
theorem stripComment_of_not_beginsWrite (h : ¬ BeginsWrite line) : stripComment line = code line :=
  if_neg (mt List.isPrefixOf_iff_prefix.mp h)

/-- What is left of a line without its comment and the white space at its ends decides what the
line asks for: its first word, and the text after that. -/
theorem parseLine_of_headed (h : Headed word rest (trim (stripComment line)))
    (hrest : Trimmed rest) :
    parseLine line = (parseCommand (String.ofList word) rest).map some := by
  have hsplit := h.splitWord_eq hrest
  unfold parseLine
  generalize trim (stripComment line) = text at h hsplit
  cases text with
  | nil => exact absurd h.words_eq (List.cons_ne_nil word _).symm
  | cons c text => simp only [hsplit]

/-- A line asks for nothing, or for what its first word and the text after it ask for. -/
theorem parseLine_cases (line : List Char) :
    (words (stripComment line) = [] ∧ parseLine line = .ok none) ∨
      ∃ word rest, Headed word rest (trim (stripComment line)) ∧ Trimmed rest ∧
        words (stripComment line) = word :: words rest ∧
        parseLine line = (parseCommand (String.ofList word) rest).map some := by
  have htrimmed := trimmed_trim (stripComment line)
  by_cases hnil : trim (stripComment line) = []
  · left
    rw [← words_trim, hnil]
    refine ⟨rfl, ?_⟩
    rw [parseLine, hnil]
  · right
    have hheaded := htrimmed.headed hnil
    refine ⟨_, _, hheaded, htrimmed.splitWord, ?_, parseLine_of_headed hheaded htrimmed.splitWord⟩
    rw [← words_trim, hheaded.words_eq]

/-- A line that does not begin with `write` does not have that word as its first, whatever its
comment was. -/
theorem word_ne_write (h : ¬ BeginsWrite line) (hheaded : Headed word rest (trim (code line))) :
    word ≠ "write".toList := by
  rintro rfl
  obtain ⟨gap, htext, -⟩ := hheaded
  have hcode : "write".toList <+: trimStart (code line) :=
    List.IsPrefix.trans ⟨gap ++ rest, htext.symm⟩ (trim_isPrefix (code line))
  have hne : trimStart (code line) ≠ [] := by
    intro hnil
    rw [hnil] at hcode
    exact absurd (List.prefix_nil.mp hcode) (by decide)
  refine h (hcode.trans ⟨line.dropWhile fun c => c != '#', ?_⟩)
  rw [← trimStart_append hne, code, List.takeWhile_append_dropWhile]

/-- A line that does not begin with `write` asks for what its words ask for, and for nothing
else. -/
theorem parseLine_eq_some_iff_spells (h : ¬ BeginsWrite line) :
    parseLine line = .ok (some command) ↔ Spells (words (code line)) command := by
  have hstrip := stripComment_of_not_beginsWrite h
  rcases parseLine_cases line with ⟨hnone, hparse⟩ | ⟨word, rest, hheaded, hrest, hwords, hparse⟩
  · rw [hparse, ← hstrip, hnone]
    exact ⟨fun h => (nomatch h), fun h => (nomatch h)⟩
  · rw [hstrip] at hheaded
    have hword : String.ofList word ≠ "write" := by
      intro heq
      exact word_ne_write h hheaded (String.ofList_injective heq)
    rw [hparse, ← hstrip, hwords, map_eq_ok_iff]
    simp only [parseCommand_eq_ok_iff hrest hword, String.toList_ofList]
    exact ⟨fun ⟨_, hspells, heq⟩ => Option.some.inj heq ▸ hspells, fun hspells => ⟨_, hspells, rfl⟩⟩

/-- A line asks for nothing just if it has no words before its first number sign. -/
theorem parseLine_eq_none_iff (h : ¬ BeginsWrite line) :
    parseLine line = .ok none ↔ words (code line) = [] := by
  rw [← stripComment_of_not_beginsWrite h]
  rcases parseLine_cases line with ⟨hnone, hparse⟩ | ⟨word, rest, -, -, hwords, hparse⟩
  · exact ⟨fun _ => hnone, fun _ => hparse⟩
  · rw [hparse, hwords, map_eq_ok_iff]
    exact ⟨fun ⟨_, _, heq⟩ => (nomatch heq), fun h => (nomatch h)⟩

end Lines

section WriteLines

variable {fd : Nat} {data : List Char}

/-- No command but `write` begins with the same letter, so a line that begins with `write` is no
other command. -/
theorem Spells.head?_ne {others : List (List Char)} (h : Spells (word :: others) command) :
    word.head? ≠ some 'w' := by
  cases h <;> decide

/-- What is read as a command on a line that begins with `write` is a write: a longer word with
that beginning names no command. -/
theorem word_eq_write (h : BeginsWrite line) (hheaded : Headed word rest (trim line))
    (hrest : Trimmed rest)
    (hparse : parseCommand (String.ofList word) rest = .ok command) :
    word = "write".toList := by
  by_contra hne
  have hname : String.ofList word ≠ "write" := fun heq => hne (String.ofList_injective heq)
  have hspells := (parseCommand_eq_ok_iff hrest hname).mp hparse
  rw [String.toList_ofList] at hspells
  refine hspells.head?_ne ?_
  obtain ⟨gap, htext, hword, -⟩ := hheaded
  obtain ⟨c, more, rfl⟩ := List.exists_cons_of_ne_nil hword.1
  obtain ⟨tail, htail⟩ := h
  obtain ⟨after, hafter⟩ := trim_isPrefix line
  rw [htext, ← htail] at hafter
  exact congrArg some (List.cons.inj hafter).1

/-- A line that asks to write begins with `write`, after white space if there is any. -/
theorem WriteLine.beginsWrite (h : WriteLine line fd data) : BeginsWrite line := by
  obtain ⟨before, text, after, rest, numeral, rfl, hbefore, -, ⟨gap, rfl, hword, -⟩, -⟩ := h
  rw [BeginsWrite, trimStart_gap_append hbefore, trimStart_of_head]
  · simp
  · intro c hc
    exact hword.trimmed.head c hc

/-- A line that asks to write is read as just that write, with the data as it has them. -/
theorem WriteLine.parseLine_eq (h : WriteLine line fd data) :
    parseLine line = .ok (some (.write fd (Utf8.encode data))) := by
  have hstrip := stripComment_of_beginsWrite h.beginsWrite
  obtain ⟨before, text, after, rest, numeral, rfl, hbefore, hafter, htext, hrest, hfd, hdata⟩ := h
  have hresttrimmed := hrest.trimmed hdata
  have htrim := (htext.trimmed hresttrimmed).trim_eq hbefore hafter
  rw [parseLine_of_headed (by rw [hstrip, htrim]; exact htext) hresttrimmed, map_eq_ok_iff]
  refine ⟨_, ?_, rfl⟩
  rw [String.ofList_toList, parseCommand_write, parseWrite_eq_ok_iff, hrest.splitWord_eq hdata]
  exact ⟨fd, hfd, rfl⟩

/-- A line that begins with `write` is a write or a fault. It never asks for nothing. -/
theorem parseLine_eq_ok_iff_writeLine (h : BeginsWrite line) {result : Option Command} :
    parseLine line = .ok result ↔
      ∃ fd data, WriteLine line fd data ∧ result = some (.write fd (Utf8.encode data)) := by
  constructor
  · intro hparse
    have hstrip := stripComment_of_beginsWrite h
    -- There is no comment to be taken off, so a line that is read as nothing would be blank, and
    -- could not begin with a word.
    rcases parseLine_cases line with ⟨hnone, -⟩ | ⟨word, rest, hheaded, hrest, -, heq⟩
    · rw [hstrip] at hnone
      rw [BeginsWrite, trimStart_eq_nil hnone] at h
      exact absurd (List.prefix_nil.mp h) (by decide)
    rw [hstrip] at hheaded
    rw [hparse, eq_comm, map_eq_ok_iff] at heq
    obtain ⟨command, hcommand, rfl⟩ := heq
    obtain rfl := word_eq_write h hheaded hrest hcommand
    rw [String.ofList_toList, parseCommand_write, parseWrite_eq_ok_iff] at hcommand
    obtain ⟨fd, hfd, rfl⟩ := hcommand
    obtain ⟨before, after, hbefore, hafter, hline⟩ := exists_trim line
    -- The descriptor is a numeral, so there is something behind the word.
    have hne : rest ≠ [] := by
      rintro rfl
      exact absurd rfl hfd.isWord.1
    exact ⟨fd, _, ⟨before, _, after, rest, _, hline, hbefore, hafter, hheaded, hrest.headed hne,
      hfd, hrest.splitWord⟩, rfl⟩
  · rintro ⟨fd, data, hwrite, rfl⟩
    exact hwrite.parseLine_eq

end WriteLines

/-- The lines that the parser accepts, and what it makes of them. A line that does not begin with
`write` is read by its words before the first number sign: if there are none it asks for nothing, if
they spell a command it asks for that, and else it is a fault. So another line with the same words
is read alike, whatever white space is in it and whatever follows a number sign. A line that begins
with `write` is a write, or it is a fault. -/
theorem parseLine_accepts (line : List Char) :
    (¬ BeginsWrite line →
      (parseLine line = .ok none ↔ words (code line) = []) ∧
      (∀ command, parseLine line = .ok (some command) ↔ Spells (words (code line)) command) ∧
      ((∃ cause, parseLine line = .error cause) ↔
        words (code line) ≠ [] ∧ ∀ command, ¬ Spells (words (code line)) command) ∧
      ∀ other, ¬ BeginsWrite other → words (code other) = words (code line) →
        ∀ result, parseLine line = .ok result → parseLine other = .ok result) ∧
    (BeginsWrite line →
      ∀ result, parseLine line = .ok result ↔
        ∃ fd data, WriteLine line fd data ∧ result = some (.write fd (Utf8.encode data))) := by
  refine ⟨fun h => ⟨parseLine_eq_none_iff h, fun _ => parseLine_eq_some_iff_spells h, ?_, ?_⟩,
    fun h _ => parseLine_eq_ok_iff_writeLine h⟩
  · -- A line that is neither nothing nor a command is an error, as there are no other results.
    rw [Ne, ← parseLine_eq_none_iff h]
    simp only [← parseLine_eq_some_iff_spells h]
    constructor
    · rintro ⟨cause, hcause⟩
      rw [hcause]
      exact ⟨fun h => (nomatch h), fun _ h => (nomatch h)⟩
    · rintro ⟨hnone, hsome⟩
      cases hparse : parseLine line with
      | error cause => exact ⟨cause, rfl⟩
      | ok result =>
        cases result with
        | none => exact absurd hparse hnone
        | some command => exact absurd hparse (hsome command)
  · intro other hother hwords result hparse
    cases result with
    | none =>
      rw [parseLine_eq_none_iff hother, hwords, ← parseLine_eq_none_iff h]
      exact hparse
    | some command =>
      rw [parseLine_eq_some_iff_spells hother, hwords, ← parseLine_eq_some_iff_spells h]
      exact hparse

/-- A line with several kinds of white space, a sign, a fill byte of one character and a comment
that is glued to it, and a write of data that look like a comment. -/
theorem parseLine_accepts_fill :
    let line := "\u2003fill\t+0 \u00a0007 z#9".toList
    let write := " write\u20281 # not a comment ".toList
    ¬ BeginsWrite line ∧ parseLine line = .ok (some (.fill 0 7 122)) ∧ BeginsWrite write ∧
      parseLine write = .ok (some (.write 1 (Utf8.encode "# not a comment".toList))) := by
  intro line write
  have hline : ¬ BeginsWrite line := by decide +kernel
  have hwrite : BeginsWrite write := by decide +kernel
  have hwords : words (code line) = ["fill".toList, "+0".toList, "007".toList, "z".toList] := by
    decide +kernel
  have hfd : Gives "+0".toList 0 := Numeral.read_eq_ok_iff.mp rfl
  have hlen : Gives "007".toList 7 := Numeral.read_eq_ok_iff.mp rfl
  have hbyte : GivesByte "z".toList 122 := .inl ⟨'z', rfl, by decide, rfl, rfl⟩
  have hrest : Headed "1".toList "# not a comment".toList "1 # not a comment".toList :=
    ⟨" ".toList, by decide +kernel⟩
  have hasks : WriteLine write 1 "# not a comment".toList :=
    ⟨" ".toList, "write\u20281 # not a comment".toList, " ".toList, "1 # not a comment".toList,
      "1".toList, by decide +kernel, by decide +kernel, by decide +kernel,
      ⟨"\u2028".toList, by decide +kernel⟩, hrest, Numeral.read_eq_ok_iff.mp rfl,
      ⟨fun c hc => Option.some.inj hc ▸ rfl, fun c hc => Option.some.inj hc ▸ rfl⟩⟩
  -- What the lines are does not matter any more, and would only be looked into.
  clear_value line write
  obtain ⟨-, hsome, -⟩ := (parseLine_accepts line).1 hline
  refine ⟨hline, (hsome _).mpr ?_, hwrite, ?_⟩
  · rw [hwords]
    exact .fillWith hfd hlen hbyte
  · exact ((parseLine_accepts write).2 hwrite _).mpr ⟨1, _, hasks, rfl⟩

end Script

end Filestore
