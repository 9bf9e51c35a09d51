import Mathlib.Data.List.TakeWhile
import Filestore.Text.Blank

/-!
# `Filestore.Proofs.Text.Words`: the words of a text

`words` are the longest stretches of a text without white space, all of them at once, while
`splitWord` takes them off the front one at a time. On a text without white space at its ends the
two agree (`Trimmed.words_cases`): a text is empty, or it begins with the word that is split off,
and the other words are those of what is left, which has no white space at its ends either.

White space around a text adds no words (`words_trim`), and how much of it stands between two
words does not matter (`Headed.words_eq`).

`Gap`, `IsWord`, `Trimmed` and `Headed` name the kinds of text that occur: white space alone, a
word, a text that trimming leaves alone, and a word with more behind it. The section `Trim` is
about what trimming takes off, at the start and, by reading the text backwards, at the end; the
section `SplitWord` about what splitting a word leaves.
-/

set_option autoImplicit false

namespace Filestore

namespace Text

/-- The words of a text: its longest stretches without white space. -/
def words (text : List Char) : List (List Char) :=
  (text.splitOnP isBlank).filter fun word => !word.isEmpty

/-- The text is white space. -/
def Gap (text : List Char) : Prop := ∀ c ∈ text, isBlank c = true

/-- The text is a word: it is not empty, and there is no white space in it. -/
def IsWord (text : List Char) : Prop := text ≠ [] ∧ ∀ c ∈ text, isBlank c = false

/-- There is no white space at the ends of the text.

- `head`: the first character is none.
- `last`: the last character is none. -/
structure Trimmed (text : List Char) : Prop where
  head : ∀ c, text.head? = some c → isBlank c = false
  last : ∀ c, text.getLast? = some c → isBlank c = false

/-- The text is a word and, if there is more, white space and the rest of the text. -/
def Headed (word rest text : List Char) : Prop :=
  ∃ gap, text = word ++ (gap ++ rest) ∧ IsWord word ∧ Gap gap ∧ (gap = [] ↔ rest = [])

instance (text : List Char) : Decidable (Gap text) :=
  decidable_of_iff (text.all isBlank = true) List.all_eq_true

/-- A text is a word just if it is not empty and a look at each character finds no white space. So
this can be decided. -/
theorem isWord_iff_all (text : List Char) :
    (text ≠ [] ∧ (text.all fun c => !isBlank c) = true) ↔ IsWord text := by
  simp only [IsWord, List.all_eq_true, Bool.not_eq_true']

instance (text : List Char) : Decidable (IsWord text) :=
  decidable_of_iff _ (isWord_iff_all text)

variable {c : Char} {text word rest gap before after : List Char}

/-- A word has no white space at its ends, as it has none at all. -/
theorem IsWord.trimmed (h : IsWord word) : Trimmed word where
  head c hc := h.2 c (List.mem_of_head? hc)
  last c hc := h.2 c (List.mem_of_getLast? hc)

/-- White space read backwards is white space. -/
theorem Gap.reverse (h : Gap gap) : Gap gap.reverse := fun c hc => h c (List.mem_reverse.mp hc)

section Words

/-- There are no words in the empty text. -/
theorem words_nil : words [] = [] := rfl

/-- White space separates words: those before a blank and those after it are all the words. -/
theorem words_append_cons (hc : isBlank c = true) (before after : List Char) :
    words (before ++ c :: after) = words before ++ words after := by
  rw [words, List.splitOnP_append_cons before after hc, List.filter_append]
  rfl

/-- White space before a text adds no words. -/
theorem words_gap_append (h : Gap gap) (text : List Char) : words (gap ++ text) = words text := by
  induction gap with
  | nil => rfl
  | cons c gap ih =>
    obtain ⟨hc, hgap⟩ := List.forall_mem_cons.mp h
    rw [List.cons_append, ← List.nil_append (c :: (gap ++ text)), words_append_cons hc, words_nil,
      List.nil_append, ih hgap]

/-- There are no words in white space. -/
theorem words_gap (h : Gap gap) : words gap = [] := by
  rw [← List.append_nil gap, words_gap_append h, words_nil]

/-- White space after a text adds no words. -/
theorem words_append_gap (h : Gap gap) (text : List Char) : words (text ++ gap) = words text := by
  cases gap with
  | nil => rw [List.append_nil]
  | cons c gap =>
    obtain ⟨hc, hgap⟩ := List.forall_mem_cons.mp h
    rw [words_append_cons hc, words_gap hgap, List.append_nil]

/-- A word is its own only word. -/
theorem IsWord.words_eq (h : IsWord word) : words word = [word] := by
  rw [words, List.splitOnP_eq_singleton h.2]
  simp [h.1]

/-- What a text is headed by is a word. -/
theorem Headed.isWord (h : Headed word rest text) : IsWord word := by
  obtain ⟨-, -, hword, -, -⟩ := h
  exact hword

/-- A word at the front of a text is its first word, and the others are those of the rest. -/
theorem Headed.words_eq (h : Headed word rest text) : words text = word :: words rest := by
  obtain ⟨gap, rfl, hword, hgap, hsep⟩ := h
  cases gap with
  | nil =>
    rw [hsep.mp rfl, List.append_nil, List.append_nil, hword.words_eq, words_nil]
  | cons c gap =>
    obtain ⟨hc, hgap⟩ := List.forall_mem_cons.mp hgap
    rw [List.cons_append, words_append_cons hc, hword.words_eq, words_gap_append hgap]
    rfl

/-- A piece of a split has the characters of the text that are no white space. -/
private theorem mem_of_mem_splitOnP (h : word ∈ text.splitOnP isBlank) :
    ∀ c ∈ word, c ∈ text ∧ isBlank c = false := by
  induction text generalizing word with
  | nil =>
    rw [List.splitOnP_nil, List.mem_singleton] at h
    rw [h]
    exact fun c hc => nomatch hc
  | cons d text ih =>
    rw [List.splitOnP_cons_eq_if_modifyHead] at h
    obtain ⟨piece, pieces, hsplit⟩ :=
      List.exists_cons_of_ne_nil (List.splitOnP_ne_nil isBlank text)
    -- Whatever the first character is, the pieces of the rest are as the induction says.
    have hlater : ∀ word ∈ text.splitOnP isBlank, ∀ c ∈ word, c ∈ d :: text ∧ isBlank c = false :=
      fun word hword c hc => (ih hword c hc).imp_left (List.mem_cons_of_mem d)
    rw [hsplit] at h hlater
    obtain ⟨hpiece, hpieces⟩ := List.forall_mem_cons.mp hlater
    split at h
    · rcases List.mem_cons.mp h with rfl | h
      · exact fun c hc => nomatch hc
      · exact hlater word h
    · rename_i hd
      rcases List.mem_cons.mp h with rfl | h
      · exact List.forall_mem_cons.mpr ⟨⟨List.mem_cons_self, by simpa using hd⟩, hpiece⟩
      · exact hpieces word h

/-- The words of a text are words: not empty, and without white space. -/
theorem isWord_of_mem_words (h : word ∈ words text) : IsWord word := by
  obtain ⟨hmem, hne⟩ := List.mem_filter.mp h
  exact ⟨by simpa using hne, fun c hc => (mem_of_mem_splitOnP hmem c hc).2⟩

/-- A character of a word is a character of the text, so what is so of all characters of a text is
so of those of its words. -/
theorem mem_of_mem_words (h : word ∈ words text) (hc : c ∈ word) : c ∈ text :=
  (mem_of_mem_splitOnP (List.mem_filter.mp h).1 c hc).1

end Words

section Trim

/-- A text that does not begin with white space keeps its start. -/
theorem trimStart_of_head (h : ∀ c, text.head? = some c → isBlank c = false) :
    trimStart text = text := by
  cases text with
  | nil => rfl
  | cons c text => exact List.dropWhile_cons_of_neg (by simp [h c rfl])

/-- What is left when the start is trimmed does not begin with white space. -/
theorem head_trimStart (text : List Char) :
    ∀ c, (trimStart text).head? = some c → isBlank c = false := by
  intro c hc
  have hnot := List.head?_dropWhile_not isBlank text
  rw [show (text.dropWhile isBlank).head? = some c from hc] at hnot
  exact hnot

/-- What is trimmed off the start is white space, and nothing else is. -/
theorem exists_trimStart (text : List Char) : ∃ gap, Gap gap ∧ text = gap ++ trimStart text :=
  ⟨text.takeWhile isBlank, fun _ => List.mem_takeWhile_imp, List.takeWhile_append_dropWhile.symm⟩

/-- White space at the start is trimmed off, all of it, and what is behind it is trimmed alike. -/
theorem trimStart_gap_append (h : Gap gap) (text : List Char) :
    trimStart (gap ++ text) = trimStart text := List.dropWhile_append_of_pos h

/-- What follows a text with a word in it is not trimmed off the start, even if it is white
space. -/
theorem trimStart_append (h : trimStart text ≠ []) (more : List Char) :
    trimStart (text ++ more) = trimStart text ++ more := by
  unfold trimStart at h ⊢
  rw [List.dropWhile_append, if_neg (by simpa using h)]

/-- Trimming the end is trimming the start of the text read backwards, so what is known of the
start carries over. -/
theorem trimEnd_eq_reverse (text : List Char) : trimEnd text = (trimStart text.reverse).reverse :=
  rfl

/-- What is left when the end is trimmed does not end with white space. -/
theorem last_trimEnd (text : List Char) :
    ∀ c, (trimEnd text).getLast? = some c → isBlank c = false := by
  intro c hc
  rw [trimEnd_eq_reverse, List.getLast?_reverse] at hc
  exact head_trimStart text.reverse c hc

/-- What is trimmed off the end is white space, and nothing else is. -/
theorem exists_trimEnd (text : List Char) : ∃ gap, Gap gap ∧ text = trimEnd text ++ gap := by
  obtain ⟨gap, hgap, heq⟩ := exists_trimStart text.reverse
  refine ⟨gap.reverse, hgap.reverse, ?_⟩
  rw [trimEnd_eq_reverse, ← List.reverse_append, ← heq, List.reverse_reverse]

/-- Of a text whose start is trimmed, trimming leaves the front. -/
theorem trim_isPrefix (text : List Char) : trim text <+: trimStart text := by
  obtain ⟨gap, -, heq⟩ := exists_trimEnd (trimStart text)
  exact ⟨gap, heq.symm⟩

/-- What is left of a text that is trimmed has no white space at its ends. -/
theorem trimmed_trim (text : List Char) : Trimmed (trim text) where
  head c hc := by
    obtain ⟨gap, -, heq⟩ := exists_trimEnd (trimStart text)
    refine head_trimStart text c ?_
    rw [heq, List.head?_append, show (trimEnd (trimStart text)).head? = some c from hc]
    rfl
  last := last_trimEnd (trimStart text)

/-- What is trimmed off is white space, some before and some after what is left. -/
theorem exists_trim (text : List Char) :
    ∃ before after, Gap before ∧ Gap after ∧ text = before ++ (trim text ++ after) := by
  obtain ⟨before, hbefore, hstart⟩ := exists_trimStart text
  obtain ⟨after, hafter, hend⟩ := exists_trimEnd (trimStart text)
  exact ⟨before, after, hbefore, hafter, hstart.trans (congrArg (before ++ ·) hend)⟩

/-- White space around a text adds no words. -/
theorem words_trim (text : List Char) : words (trim text) = words text := by
  obtain ⟨before, after, hbefore, hafter, heq⟩ := exists_trim text
  calc words (trim text) = words (trim text ++ after) := (words_append_gap hafter _).symm
    _ = words (before ++ (trim text ++ after)) := (words_gap_append hbefore _).symm
    _ = words text := by rw [← heq]

/-- A text without white space at its ends is what is left when white space is added at the ends
and trimmed. -/
theorem Trimmed.trim_eq (h : Trimmed text) (hbefore : Gap before) (hafter : Gap after) :
    trim (before ++ (text ++ after)) = text := by
  rw [trim, trimStart_gap_append hbefore]
  cases text with
  | nil =>
    rw [List.nil_append, ← List.append_nil after, trimStart_gap_append hafter]
    rfl
  | cons c text =>
    rw [trimStart_of_head (by simpa using h.head), trimEnd_eq_reverse, List.reverse_append,
      trimStart_gap_append hafter.reverse, trimStart_of_head, List.reverse_reverse]
    intro d hd
    rw [List.head?_reverse] at hd
    exact h.last d hd

/-- Nothing is trimmed off a text without white space at its ends. -/
theorem Trimmed.trim_eq_self (h : Trimmed text) : trim text = text := by
  have htrim := h.trim_eq (List.forall_mem_nil _) (List.forall_mem_nil _)
  rwa [List.append_nil, List.nil_append] at htrim

end Trim

section SplitWord

/-- What follows the first word of a text begins with white space, if there is anything. -/
theorem head_dropWhile_not_isBlank (text : List Char) :
    ∀ c, (text.dropWhile fun c => !isBlank c).head? = some c → isBlank c = true := by
  intro c hc
  have hnot := List.head?_dropWhile_not (fun c => !isBlank c) text
  rw [hc] at hnot
  simpa using hnot

/-- A text that begins with white space does not begin with a word, so nothing is taken off it as
one. -/
theorem span_of_head (h : ∀ c, text.head? = some c → isBlank c = true) :
    (text.takeWhile fun c => !isBlank c) = [] ∧ (text.dropWhile fun c => !isBlank c) = text := by
  cases text with
  | nil => exact ⟨rfl, rfl⟩
  | cons c text => simp [h c rfl]

/-- The word at the front of a text is split off it, and the white space behind the word goes. -/
theorem Headed.splitWord_eq (h : Headed word rest text) (hrest : Trimmed rest) :
    splitWord text = (word, rest) := by
  obtain ⟨gap, rfl, hword, hgap, hsep⟩ := h
  have hstart : trimStart (word ++ (gap ++ rest)) = word ++ (gap ++ rest) := by
    refine trimStart_of_head fun c hc => hword.2 c ?_
    obtain ⟨d, more, hcons⟩ := List.exists_cons_of_ne_nil hword.1
    rw [hcons] at hc ⊢
    rw [← Option.some.inj hc]
    exact List.mem_cons_self
  -- The word ends where the gap begins, or with the text, in case that there is no gap.
  have hmore : ∀ c, (gap ++ rest).head? = some c → isBlank c = true := by
    intro c hc
    cases gap with
    | nil =>
      rw [hsep.mp rfl] at hc
      exact nomatch hc
    | cons d gap =>
      rw [← Option.some.inj hc]
      exact hgap d List.mem_cons_self
  obtain ⟨htake, hdrop⟩ := span_of_head hmore
  have hall : ∀ c ∈ word, (!isBlank c) = true := fun c hc => by simp [hword.2 c hc]
  unfold splitWord
  simp only [hstart]
  rw [List.takeWhile_append_of_pos hall, htake, List.append_nil,
    List.dropWhile_append_of_pos hall, hdrop, trimStart_gap_append hgap,
    trimStart_of_head hrest.head]

/-- What is split off a text that is not empty is the word at its front, given that no white space
is in front of it. -/
theorem Trimmed.headed (h : Trimmed text) (hne : text ≠ []) :
    Headed (splitWord text).1 (splitWord text).2 text := by
  have hstart : trimStart text = text := trimStart_of_head h.head
  obtain ⟨gap, hgap, heq⟩ := exists_trimStart (text.dropWhile fun c => !isBlank c)
  refine ⟨gap, ?_, ⟨?_, ?_⟩, hgap, ?_⟩
  · simp only [splitWord, hstart]
    rw [← heq, List.takeWhile_append_dropWhile]
  · simp only [splitWord, hstart]
    cases text with
    | nil => exact absurd rfl hne
    | cons c text => simp [h.head c rfl]
  · intro c hc
    simp only [splitWord, hstart] at hc
    simpa using List.mem_takeWhile_imp hc
  · simp only [splitWord, hstart]
    constructor
    · -- With no gap, the rest would begin with a character that is white space and is none.
      rintro rfl
      rw [List.nil_append] at heq
      refine List.head?_eq_none_iff.mp (Option.eq_none_iff_forall_ne_some.mpr fun c hc => ?_)
      have hnot := head_trimStart _ c hc
      rw [← heq] at hc
      rw [head_dropWhile_not_isBlank text c hc] at hnot
      exact nomatch hnot
    · intro hnone
      rw [hnone, List.append_nil] at heq
      -- With no rest, the text would end with white space if there were a gap.
      cases hlast : gap.getLast? with
      | none => exact List.getLast?_eq_none_iff.mp hlast
      | some c =>
        have hblank := hgap c (List.mem_of_getLast? hlast)
        have htext : text.getLast? = some c := by
          rw [← List.takeWhile_append_dropWhile (p := fun c => !isBlank c) (l := text), heq,
            List.getLast?_append, hlast]
          rfl
        rw [h.last c htext] at hblank
        exact nomatch hblank

/-- A text that begins with a word and ends like a text without white space at its ends has none
either. -/
theorem Headed.trimmed (h : Headed word rest text) (hrest : Trimmed rest) : Trimmed text := by
  obtain ⟨gap, rfl, hword, hgap, hsep⟩ := h
  refine ⟨fun c hc => ?_, fun c hc => ?_⟩
  · obtain ⟨d, more, hcons⟩ := List.exists_cons_of_ne_nil hword.1
    rw [hcons] at hc hword
    exact hword.trimmed.head c hc
  · cases hlast : rest.getLast? with
    | none =>
      have hnil := List.getLast?_eq_none_iff.mp hlast
      rw [hnil, hsep.mpr hnil, List.append_nil, List.append_nil] at hc
      exact hword.trimmed.last c hc
    | some d =>
      rw [List.getLast?_append, List.getLast?_append, hlast] at hc
      exact hrest.last c (hlast.trans hc)

/-- What is left when a word is split off has no white space at its ends. -/
theorem Trimmed.splitWord (h : Trimmed text) : Trimmed (splitWord text).2 where
  head := head_trimStart _
  last c hc := by
    cases text with
    | nil => exact nomatch hc
    | cons d text =>
      obtain ⟨gap, heq, -, -, -⟩ := h.headed (List.cons_ne_nil d text)
      refine h.last c ?_
      rw [heq, List.getLast?_append, List.getLast?_append, hc]
      rfl

/-- A text without white space at its ends is empty, or it is the word that is split off it and
the words of what is left. This is the step of every induction over a line. -/
theorem Trimmed.words_cases (h : Trimmed text) :
    text = [] ∨
      ∃ word rest, Text.splitWord text = (word, rest) ∧ IsWord word ∧ Trimmed rest ∧
        words text = word :: words rest := by
  by_cases hne : text = []
  · exact .inl hne
  · have hheaded := h.headed hne
    exact .inr ⟨_, _, rfl, hheaded.isWord, h.splitWord, hheaded.words_eq⟩

/-- A text without white space at its ends has words unless it is empty. -/
theorem Trimmed.words_eq_nil_iff (h : Trimmed text) : words text = [] ↔ text = [] := by
  constructor
  · intro hnone
    rcases h.words_cases with hnil | ⟨word, rest, -, -, -, hwords⟩
    · exact hnil
    · rw [hnone] at hwords
      exact nomatch hwords
  · rintro rfl
    rfl

/-- All of a text without words is trimmed off. -/
theorem trimStart_eq_nil (h : words text = []) : trimStart text = [] := by
  have hnil := (trimmed_trim text).words_eq_nil_iff.mp ((words_trim text).trans h)
  obtain ⟨gap, hgap, heq⟩ := exists_trimEnd (trimStart text)
  rw [show trimEnd (trimStart text) = [] from hnil, List.nil_append] at heq
  cases gap with
  | nil => exact heq
  | cons c gap =>
    have hblank := hgap c List.mem_cons_self
    rw [head_trimStart text c (by rw [heq]; rfl)] at hblank
    exact nomatch hblank

/-- A text without white space at its ends that has one word is that word. -/
theorem Trimmed.eq_of_words_eq (h : Trimmed text) (hwords : words text = [word]) : text = word := by
  have hne : text ≠ [] := by
    rintro rfl
    exact nomatch hwords
  have hheaded := h.headed hne
  rw [hheaded.words_eq] at hwords
  obtain ⟨hword, hnone⟩ := List.cons.inj hwords
  obtain ⟨gap, heq, -, -, hsep⟩ := hheaded
  have hnil := h.splitWord.words_eq_nil_iff.mp hnone
  rw [hnil, hsep.mpr hnil, List.append_nil, List.append_nil, hword] at heq
  exact heq

end SplitWord

end Text

end Filestore
