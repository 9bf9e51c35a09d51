import Filestore.Proofs.Script.Grammar
import Filestore.Text.Utf8.Lemmas

/-!
# `Filestore.Proofs.Script.RoundTrip`: the commands that a line can ask for

Not every command has a line. `Command.Sayable` says which have one: numbers have 64 bits, a file
name is one word without a number sign, and data are text without white space at its ends. The
line that `Command.render` writes for such a command is read back as the command.

`parseLine_render` is the first main result. All commands but a write are words with spaces
between them, so one lemma covers them (`parseLine_spaced`). It goes through the grammar and not
through the parser: the words spell the command, and a line with these words is read as it.

The other one is `parseLine_payload`: of the text that a line gives a write, the white space at
the ends is not written. The line is trimmed before its words are split off, and splitting off the
descriptor drops the white space behind it. So a text with white space at an end cannot be written
by any line, which is why such data are not sayable, and the text of a line is written as it
stands just if it has none there. What is inside the text stays, number signs and double spaces
included.
-/

set_option autoImplicit false

namespace Filestore

namespace Script

open Text

/-- The text can stand as a word before any comment. -/
def Plain (word : List Char) : Prop := IsWord word ∧ '#' ∉ word

instance (word : List Char) : Decidable (Plain word) :=
  inferInstanceAs (Decidable (IsWord word ∧ '#' ∉ word))

namespace Command

/-- The file name that a command gives, if it gives one. -/
def name? : Command → Option String
  | .openFile name _ | .delete name | .stat name => some name
  | _ => none

/-- The data that a command gives, if it gives any. -/
def data? : Command → Option Bytes
  | .write _ data => some data
  | _ => none

/-- The numbers that a command gives, the fill byte apart. -/
def numbers : Command → List Nat
  | .write fd _ | .close fd | .rewind fd | .statOpen fd | .digest fd => [fd]
  | .fill fd value _ | .read fd value | .resize fd value => [fd, value]
  | _ => []

/-- There is a line that asks for the command.

- `numbers_lt`: its numbers have 64 bits.
- `name_plain`: its file name is a word without a number sign.
- `data_text`: its data are text without white space at the ends. -/
structure Sayable (command : Command) : Prop where
  numbers_lt : ∀ value ∈ command.numbers, value < Numeral.bound64
  name_plain : ∀ name, command.name? = some name → Plain name.toList
  data_text : ∀ data, command.data? = some data →
    ∃ text, Utf8.encode text = data ∧ Trimmed text

end Command

variable {line word text : List Char} {all : List (List Char)} {command : Command}
  {bound value : Nat}

/-- There is no number sign in the part of a line before its first one. -/
theorem hash_not_mem_code (line : List Char) : '#' ∉ code line := by
  intro h
  exact absurd (List.mem_takeWhile_imp h) (by decide)

/-- A line without a number sign is all before its comment. -/
theorem code_eq_self (h : '#' ∉ line) : code line = line := by
  refine List.takeWhile_eq_self_iff.mpr fun c hc => ?_
  have hne : c ≠ '#' := fun heq => h (heq ▸ hc)
  simpa using hne

/-- The words of a line before its comment have no number sign, and they are words. -/
theorem plain_of_mem_words (h : word ∈ words (code line)) : Plain word :=
  ⟨isWord_of_mem_words h, fun hash => hash_not_mem_code line (mem_of_mem_words h hash)⟩

/-- There is no number sign in a numeral, and no white space, so it can stand as a word. -/
theorem plain_of_writes (h : Numeral.Writes bound text value) : Plain text := by
  refine ⟨h.isWord, fun hash => ?_⟩
  obtain ⟨digits, htext, -, hdigits, -⟩ := h
  have hnone : '#' ∉ digits := fun hmem => absurd (hdigits '#' hmem) (by decide)
  rcases htext with rfl | rfl
  · exact hnone hash
  · exact hnone ((List.mem_cons.mp hash).resolve_left (by decide))

section Sayable

/-- What words without number signs spell is a command that a line can ask for, one case for each
way to spell a command. -/
theorem Spells.sayable (h : Spells all command) (hall : ∀ word ∈ all, Plain word) :
    command.Sayable := by
  have hnumber : ∀ {word : List Char} {value : Nat}, Gives word value → value < Numeral.bound64 :=
    fun ⟨_, _, _, _, _, hlt⟩ => hlt
  have hname : ∀ {name : String}, name.toList ∈ all →
      ∀ given, some name = some given → Plain given.toList :=
    fun hmem _ hgiven => Option.some.inj hgiven ▸ hall _ hmem
  -- The rules differ in what they name: a file, two numbers, one, or nothing.
  cases h with
  | openFile | createFile | delete | rm | stat =>
    exact ⟨fun _ hvalue => (nomatch hvalue), hname (by simp), fun _ hdata => (nomatch hdata)⟩
  | fill hfd hvalue | fillWith hfd hvalue _ | read hfd hvalue | resize hfd hvalue =>
    exact ⟨by simp [Command.numbers, hnumber hfd, hnumber hvalue], fun _ hgiven => (nomatch hgiven),
      fun _ hdata => (nomatch hdata)⟩
  | close hfd | rewind hfd | statOpen hfd | digest hfd =>
    exact ⟨by simp [Command.numbers, hnumber hfd], fun _ hgiven => (nomatch hgiven),
      fun _ hdata => (nomatch hdata)⟩
  | list | lastError | destroy =>
    exact ⟨fun _ hvalue => (nomatch hvalue), fun _ hgiven => (nomatch hgiven),
      fun _ hdata => (nomatch hdata)⟩

/-- What a line asks for is a command that a line can ask for: the parser makes no others. -/
theorem sayable_of_parseLine (h : parseLine line = .ok (some command)) : command.Sayable := by
  by_cases hwrite : BeginsWrite line
  · obtain ⟨fd, data, hline, heq⟩ := (parseLine_eq_ok_iff_writeLine hwrite).mp h
    obtain ⟨-, -, -, -, numeral, -, -, -, -, -, ⟨_, _, _, _, _, hlt⟩, hdata⟩ := hline
    rw [Option.some.inj heq]
    exact ⟨by simpa [Command.numbers] using hlt, fun _ hgiven => (nomatch hgiven),
      fun _ hgiven => ⟨data, Option.some.inj hgiven, hdata⟩⟩
  · exact ((parseLine_eq_some_iff_spells hwrite).mp h).sayable fun _ => plain_of_mem_words

end Sayable

section Spaced

open Command

/-- A single word stands alone, without any space. -/
theorem spaced_singleton (word : List Char) : spaced [word] = word := List.intercalate_singleton

/-- A word that others follow has one space behind it. -/
theorem spaced_cons_cons (first second : List Char) (all : List (List Char)) :
    spaced (first :: second :: all) = first ++ ' ' :: spaced (second :: all) := by
  rw [spaced, List.intercalate_cons_cons, List.append_assoc]
  rfl

/-- Words with spaces between them have just those words, and no number sign between them. -/
theorem words_spaced (hall : ∀ word ∈ all, Plain word) :
    words (spaced all) = all ∧ '#' ∉ spaced all := by
  induction all with
  | nil => exact ⟨rfl, List.not_mem_nil⟩
  | cons word all ih =>
    obtain ⟨hword, hrest⟩ := List.forall_mem_cons.mp hall
    cases all with
    | nil =>
      rw [spaced_singleton]
      exact ⟨hword.1.words_eq, hword.2⟩
    | cons second all =>
      obtain ⟨hwords, hhash⟩ := ih hrest
      rw [spaced_cons_cons, words_append_cons rfl, hword.1.words_eq, hwords]
      exact ⟨rfl, by simp [hword.2, hhash]⟩

/-- Words that spell a command ask for it with spaces between them, as long as none has a number
sign. -/
theorem parseLine_spaced (h : Spells all command) (hall : ∀ word ∈ all, Plain word) :
    parseLine (spaced all) = .ok (some command) := by
  obtain ⟨hwords, hhash⟩ := words_spaced hall
  have hwrite : ¬ BeginsWrite (spaced all) := by
    intro ⟨tail, htail⟩
    cases all with
    | nil => exact nomatch h
    | cons word others =>
      have hword := (hall word List.mem_cons_self).1
      obtain ⟨c, more, rfl⟩ := List.exists_cons_of_ne_nil hword.1
      have hstart : ∀ d, (spaced ((c :: more) :: others)).head? = some d → isBlank d = false := by
        rw [spaced, List.intercalate_cons_cons_left]
        exact fun d hd => Option.some.inj hd ▸ hword.2 c List.mem_cons_self
      rw [trimStart_of_head hstart, spaced, List.intercalate_cons_cons_left] at htail
      exact h.head?_ne (congrArg some (List.cons.inj htail).1.symm)
  rw [parseLine_eq_some_iff_spells hwrite, code_eq_self hhash, hwords]
  exact h

end Spaced

section Render

open Command

/-- A line with the word, a descriptor and any text asks to write that text, but for the white
space at its ends. The text may have anything in it, number signs too. -/
theorem writeLine_spaced {fd : Nat} (hfd : fd < Numeral.bound64) (payload : List Char) :
    WriteLine (spaced ["write".toList, Numeral.render fd, payload]) fd (trim payload) := by
  have hgives : Gives (Numeral.render fd) fd := Numeral.writes_render hfd
  have hspaced : spaced ["write".toList, Numeral.render fd, payload]
      = "write".toList ++ ' ' :: (Numeral.render fd ++ ' ' :: payload) := by
    rw [spaced_cons_cons, spaced_cons_cons, spaced_singleton]
  have hspace : Gap [' '] := by decide
  have hhead : ∀ rest, rest ≠ [] → Headed "write".toList rest ("write".toList ++ ' ' :: rest) :=
    fun rest hrest => ⟨[' '], rfl, by decide, hspace, by simp [hrest]⟩
  have htrimmed := trimmed_trim payload
  obtain ⟨before, after, hbefore, hafter, hpayload⟩ := exists_trim payload
  have hgap : Gap (' ' :: before) := List.forall_mem_cons.mpr ⟨rfl, hbefore⟩
  rw [hspaced]
  cases htrim : trim payload with
  | nil =>
    -- There is only white space from the descriptor on, so the descriptor ends the line.
    have hnone : Headed (Numeral.render fd) [] (Numeral.render fd) :=
      ⟨[], by simp, hgives.isWord, List.forall_mem_nil _, Iff.rfl⟩
    have hline : "write".toList ++ ' ' :: (Numeral.render fd ++ ' ' :: payload)
        = [] ++ ("write".toList ++ ' ' :: Numeral.render fd ++ (' ' :: before ++ after)) := by
      rw [hpayload, htrim]
      simp
    exact ⟨[], _, ' ' :: before ++ after, _, _, hline, List.forall_mem_nil _,
      List.forall_mem_append.mpr ⟨hgap, hafter⟩, hhead _ hgives.isWord.1, hnone, hgives,
      htrim ▸ htrimmed⟩
  | cons c text =>
    have hmore : Headed (Numeral.render fd) (c :: text)
        (Numeral.render fd ++ (' ' :: before ++ c :: text)) :=
      ⟨' ' :: before, rfl, hgives.isWord, hgap, by simp⟩
    have hline : "write".toList ++ ' ' :: (Numeral.render fd ++ ' ' :: payload)
        = [] ++ ("write".toList ++ ' ' :: (Numeral.render fd ++ (' ' :: before ++ c :: text))
          ++ after) := by
      rw [hpayload, htrim]
      simp
    exact ⟨[], _, after, _, _, hline, List.forall_mem_nil _, hafter, hhead _ (by simp), hmore,
      hgives, htrim ▸ htrimmed⟩

/-- A write is read back from its line, if its data are text without white space at the ends. -/
theorem parseLine_render_write {fd : Nat} (hfd : fd < Numeral.bound64) (htext : Trimmed text) :
    parseLine (Command.render (.write fd (Utf8.encode text)))
      = .ok (some (.write fd (Utf8.encode text))) := by
  have hline := writeLine_spaced hfd text
  rw [htext.trim_eq_self] at hline
  have hrender : Command.render (.write fd (Utf8.encode text))
      = spaced ["write".toList, Numeral.render fd, text] := by
    show spaced ["write".toList, Numeral.render fd, Utf8.decodeLossy (Utf8.encode text)] = _
    rw [Utf8.decodeLossy_encode]
  rw [hrender]
  exact hline.parseLine_eq

/-- A command that a line can ask for is read back from its line, one case for each command. -/
theorem Command.Sayable.parseLine_eq (h : command.Sayable) :
    parseLine command.render = .ok (some command) := by
  have hnumber : ∀ {value : Nat}, value ∈ command.numbers → Gives (Numeral.render value) value :=
    fun hvalue => Numeral.writes_render (h.numbers_lt _ hvalue)
  have htwo : ∀ {verb first : List Char}, Plain verb → Plain first →
      ∀ word ∈ [verb, first], Plain word :=
    fun hverb hfirst => List.forall_mem_cons.mpr ⟨hverb, List.forall_mem_singleton.mpr hfirst⟩
  have hthree : ∀ {verb first second : List Char}, Plain verb → Plain first → Plain second →
      ∀ word ∈ [verb, first, second], Plain word :=
    fun hverb hfirst hsecond => List.forall_mem_cons.mpr ⟨hverb, htwo hfirst hsecond⟩
  -- Every line but the one of a write is words with a blank between them, of which the grammar has
  -- a rule. It is left to be shown that the words have no white space in them.
  cases command with
  | openFile name create =>
    have hname := h.name_plain name rfl
    cases create with
    | false => exact parseLine_spaced .openFile (htwo (by decide) hname)
    | true => exact parseLine_spaced .createFile (hthree (by decide) hname (by decide))
  | write fd data =>
    obtain ⟨text, rfl, htext⟩ := h.data_text data rfl
    exact parseLine_render_write (h.numbers_lt fd List.mem_cons_self) htext
  | fill fd len byte =>
    have hfd : Gives (Numeral.render fd) fd := hnumber (by simp [numbers])
    have hlen : Gives (Numeral.render len) len := hnumber (by simp [numbers])
    have hbyte : Numeral.Writes Numeral.bound8 (Numeral.render byte.toNat) byte.toNat :=
      Numeral.writes_render byte.toNat_lt
    exact parseLine_spaced (.fillWith hfd hlen (.inr ⟨_, hbyte, by simp⟩))
      (List.forall_mem_cons.mpr ⟨by decide,
        hthree (plain_of_writes hfd) (plain_of_writes hlen) (plain_of_writes hbyte)⟩)
  | read fd most =>
    have hfd : Gives (Numeral.render fd) fd := hnumber (by simp [numbers])
    have hmost : Gives (Numeral.render most) most := hnumber (by simp [numbers])
    exact parseLine_spaced (.read hfd hmost)
      (hthree (by decide) (plain_of_writes hfd) (plain_of_writes hmost))
  | resize fd size =>
    have hfd : Gives (Numeral.render fd) fd := hnumber (by simp [numbers])
    have hsize : Gives (Numeral.render size) size := hnumber (by simp [numbers])
    exact parseLine_spaced (.resize hfd hsize)
      (hthree (by decide) (plain_of_writes hfd) (plain_of_writes hsize))
  | close fd =>
    have hfd : Gives (Numeral.render fd) fd := hnumber (by simp [numbers])
    exact parseLine_spaced (.close hfd) (htwo (by decide) (plain_of_writes hfd))
  | rewind fd =>
    have hfd : Gives (Numeral.render fd) fd := hnumber (by simp [numbers])
    exact parseLine_spaced (.rewind hfd) (htwo (by decide) (plain_of_writes hfd))
  | statOpen fd =>
    have hfd : Gives (Numeral.render fd) fd := hnumber (by simp [numbers])
    exact parseLine_spaced (.statOpen hfd) (htwo (by decide) (plain_of_writes hfd))
  | digest fd =>
    have hfd : Gives (Numeral.render fd) fd := hnumber (by simp [numbers])
    exact parseLine_spaced (.digest hfd) (htwo (by decide) (plain_of_writes hfd))
  | delete name =>
    have hname := h.name_plain name rfl
    exact parseLine_spaced .delete (htwo (by decide) hname)
  | stat name =>
    have hname := h.name_plain name rfl
    exact parseLine_spaced .stat (htwo (by decide) hname)
  | list => exact parseLine_spaced .list (by decide)
  | lastError => exact parseLine_spaced .lastError (by decide)
  | destroy => exact parseLine_spaced .destroy (by decide)

end Render

/-- The commands that a line can ask for are those that are sayable, and each of them is read back
from the line that is written for it. -/
theorem parseLine_render (command : Command) :
    ((∃ line, parseLine line = .ok (some command)) ↔ command.Sayable) ∧
      (parseLine command.render = .ok (some command) ↔ command.Sayable) :=
  ⟨⟨fun ⟨_, h⟩ => sayable_of_parseLine h, fun h => ⟨_, h.parseLine_eq⟩⟩,
    sayable_of_parseLine, fun h => h.parseLine_eq⟩

/-- A write takes the text behind its descriptor without the white space at the ends. So it takes
the text as it stands only if there is none. -/
theorem parseLine_payload {fd : Nat} (hfd : fd < Numeral.bound64) (payload : List Char) :
    parseLine (Command.spaced ["write".toList, Numeral.render fd, payload])
        = .ok (some (.write fd (Utf8.encode (trim payload)))) ∧
      (parseLine (Command.spaced ["write".toList, Numeral.render fd, payload])
        = .ok (some (.write fd (Utf8.encode payload))) ↔ Trimmed payload) := by
  have hparse := (writeLine_spaced hfd payload).parseLine_eq
  refine ⟨hparse, ?_⟩
  rw [hparse]
  constructor
  · intro h
    have hbytes : Utf8.encode (trim payload) = Utf8.encode payload :=
      (Command.write.inj (Option.some.inj (Except.ok.inj h))).2
    have htext : trim payload = payload := Utf8.encode_injective hbytes
    exact htext ▸ trimmed_trim payload
  · intro h
    rw [h.trim_eq_self]

/-- Of a text in the middle of white space, the white space is lost: ` x ` is written as `x`. -/
theorem parseLine_payload_spaces :
    0 < Numeral.bound64 ∧
      parseLine "write 0  x ".toList = .ok (some (.write 0 (Utf8.encode "x".toList))) ∧
      parseLine "write 0  x ".toList ≠ .ok (some (.write 0 (Utf8.encode " x ".toList))) := by
  have hfd : 0 < Numeral.bound64 := by decide
  have h := parseLine_payload hfd " x ".toList
  refine ⟨hfd, h.1, fun hverbatim => ?_⟩
  have hblank := (h.2.mp hverbatim).head ' ' rfl
  exact absurd hblank (by decide)

/-- So not every text that a line gives is written as it stands, not even of texts without line
ends. -/
theorem not_forall_parseLine_payload :
    ¬ ∀ fd < Numeral.bound64, ∀ payload : List Char, '\n' ∉ payload → '\r' ∉ payload →
      parseLine (Command.spaced ["write".toList, Numeral.render fd, payload])
        = .ok (some (.write fd (Utf8.encode payload))) := by
  intro h
  have hspaces := h 0 (by decide) " x ".toList (by decide) (by decide)
  exact absurd hspaces (by decide +kernel)

end Script

end Filestore
