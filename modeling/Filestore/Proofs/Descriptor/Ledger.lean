import Mathlib.Algebra.GroupWithZero.Nat
import Mathlib.Data.List.Induction
import Mathlib.Order.Bounds.Defs
import Filestore.Proofs.Descriptor
import Filestore.Proofs.Lookup

/-!
# `Filestore.Proofs.Descriptor.Ledger`: a table of descriptors and what its user knows

Whoever makes all uses of a table of descriptors can keep a ledger of them: the descriptors handed
out and not released, each with its number, how many were handed out since the table was last
cleared, and how many were open at most. A `DescriptorTable.Ledger` has these. It knows nothing of
slots.

`agrees_recordAll` is the main result. After any uses the table agrees with the ledger
(`DescriptorTable.Agrees`): every further use is answered as the ledger has it, the lowest number
not in use is handed out next, the free numbers and the counter tell the truth about the slots,
and there are as many slots as doubling has to make for the descriptors that were open at most.

What is recorded of an allocation is what was asked for: a descriptor of that file, with a cursor
that is in no block and at offset 0. Only its number is taken from the answer, and a number that
is open already would not be an answer to expect (`Ledger.Expects`). A descriptor may be edited in
any way. What a store edits of it is the cursor.

`Tracks` is what one use keeps, with a lemma for each kind of use, and `tracks_recordAll` the
induction over all of them. It needs no bound on the uses: numbers do not run out.
-/

set_option autoImplicit false

namespace Filestore

namespace DescriptorTable

/-- Changes the descriptor of a number in use; another number changes nothing. -/
def edit (table : DescriptorTable) (fd : Nat) (change : Descriptor → Descriptor) :
    DescriptorTable :=
  match table.get? fd with
  | none => table
  | some descriptor =>
    { table with slots := table.slots.setIfInBounds fd (some (change descriptor)) }

/-- A use of a table. -/
inductive Call where
  /-- Binds a new descriptor to a file. -/
  | allocate (file : FileId)
  /-- Looks a descriptor up. -/
  | get (fd : Nat)
  /-- Looks a descriptor up and changes it. -/
  | edit (fd : Nat) (change : Descriptor → Descriptor)
  /-- Frees a number. -/
  | release (fd : Nat)
  /-- Visits the descriptors bound to a file. -/
  | boundTo (file : FileId)
  /-- Gives up everything. -/
  | clear

/-- What a use gives back. -/
inductive Answer where
  /-- The number handed out. -/
  | number (fd : Nat)
  /-- The descriptor found, or the complaint that there is none. -/
  | descriptor (result : Except Error Descriptor)
  /-- The descriptors visited, in order. -/
  | descriptors (visited : List Descriptor)
  /-- Nothing. -/
  | done

/-- Answers a use. -/
def perform (table : DescriptorTable) : Call → Answer × DescriptorTable
  | .allocate file => (.number (table.allocate file).1, (table.allocate file).2)
  | .get fd => (.descriptor (table.get fd), table)
  | .edit fd change => (.descriptor (table.get fd), table.edit fd change)
  | .release fd =>
    match table.release fd with
    | .error complaint => (.descriptor (.error complaint), table)
    | .ok (freed, left) => (.descriptor (.ok freed), left)
  | .boundTo file => (.descriptors (table.boundTo file), table)
  | .clear => (.done, empty)

/-- What a user knows of a table who has made all uses of it since it was last cleared. -/
structure Ledger where
  /-- The descriptors handed out and not released, by number. -/
  opened : List (Nat × Descriptor)
  /-- How many were handed out. -/
  handedOut : Nat
  /-- How many were open at most. -/
  most : Nat

namespace Ledger

/-- The ledger of a table that has just been cleared. -/
def empty : Ledger := ⟨[], 0, 0⟩

/-- The descriptor of an open number, or the complaint that the number is not open. -/
def find (ledger : Ledger) (fd : Nat) : Except Error Descriptor :=
  match ledger.opened.lookup fd with
  | none => .error (.badDescriptor fd)
  | some descriptor => .ok descriptor

/-- Records a use. The answer matters for an allocation only, which says the number there. What was
asked for is a descriptor of the file whose cursor is in no block and at offset 0. -/
def note (ledger : Ledger) : Call → Answer → Ledger
  | .allocate file, .number fd =>
    { opened := (fd, { file, cursor := { block := none, offset := 0 } }) :: ledger.opened
      handedOut := ledger.handedOut + 1
      most := max ledger.most (ledger.opened.length + 1) }
  | .edit fd change, _ =>
    { ledger with
      opened := ledger.opened.map fun entry =>
        if entry.1 = fd then (entry.1, change entry.2) else entry }
  | .release fd, _ => { ledger with opened := ledger.opened.filter fun entry => entry.1 != fd }
  | .clear, _ => empty
  | _, _ => ledger

/-- The answers that a user expects. An allocation hands out the lowest number that is not open. A
visit to the descriptors of a file meets those that are open, by ascending number. -/
def Expects (ledger : Ledger) : Call → Answer → Prop
  | .allocate _, .number fd =>
    ledger.opened.lookup fd = none ∧ ∀ lower < fd, (ledger.opened.lookup lower).isSome
  | .get fd, .descriptor result | .edit fd _, .descriptor result
  | .release fd, .descriptor result =>
    result = ledger.find fd
  | .boundTo file, .descriptors visited =>
    ∃ found : List (Nat × Descriptor), (found.Pairwise fun entry later => entry.1 < later.1) ∧
      (∀ entry, entry ∈ found ↔ entry ∈ ledger.opened ∧ entry.2.file = file) ∧
      visited = found.map Prod.snd
  | .clear, .done => True
  | _, _ => False

end Ledger

/-- Makes a use of a table and records it. -/
def record (state : Ledger × DescriptorTable) (call : Call) : Ledger × DescriptorTable :=
  (state.1.note call (state.2.perform call).1, (state.2.perform call).2)

/-- Makes uses of an empty table one after another and records them. -/
def recordAll (calls : List Call) : Ledger × DescriptorTable :=
  calls.foldl record (Ledger.empty, empty)

/-- The table is as the ledger says.

- `answers`: every use is answered as expected.
- `get?_eq`: a number denotes the descriptor that is open under it.
- `refused`: freeing a number that is not open changes nothing.
- `ascending`: the free numbers are listed in ascending order.
- `mem_free`: they are those of the empty slots.
- `active_eq`: the slots in use are counted.
- `length_opened`: they are as many as the open descriptors.
- `size_zero`: there are no slots before the first descriptor is handed out.
- `size_least`: afterwards their number is the least power of two that is not below the number of
  descriptors that were open at most. -/
structure Agrees (table : DescriptorTable) (ledger : Ledger) : Prop where
  answers : ∀ call, ledger.Expects call (table.perform call).1
  get?_eq : ∀ fd, table.get? fd = ledger.opened.lookup fd
  refused : ∀ fd, ledger.opened.lookup fd = none → (table.perform (.release fd)).2 = table
  ascending : table.free.Pairwise (· < ·)
  mem_free : ∀ fd, fd ∈ table.free ↔ table.slots[fd]? = some none
  active_eq : table.active = table.slots.toList.countP Option.isSome
  length_opened : ledger.opened.length = table.active
  size_zero : ledger.handedOut = 0 → table.slots.size = 0
  size_least : 0 < ledger.handedOut →
    IsLeast {count | ledger.most ≤ count ∧ ∃ k, count = 2 ^ k} table.slots.size

variable {table : DescriptorTable} {ledger : Ledger} {fd : Nat} {file : FileId}

/-- A descriptor is changed under its number, and no other. An edit of a number that is not in use
changes nothing. -/
theorem get?_edit (table : DescriptorTable) (fd : Nat) (change : Descriptor → Descriptor)
    (other : Nat) :
    (table.edit fd change).get? other =
      if other = fd then (table.get? other).map change else table.get? other := by
  unfold edit
  cases hget : table.get? fd with
  | none =>
    by_cases heq : other = fd
    · rw [if_pos heq, heq, hget]
      rfl
    · rw [if_neg heq]
  | some descriptor =>
    have hlt := lt_size_of_get? hget
    by_cases heq : other = fd
    · rw [if_pos heq, heq, hget, get?]
      simp only [Array.getElem?_setIfInBounds_self_of_lt hlt]
      rfl
    · rw [if_neg heq, get?]
      simp only [Array.getElem?_setIfInBounds_ne (Ne.symm heq)]
      rfl

/-- An edit leaves a sound table sound: the same numbers are in use after it. -/
theorem Sound.edit (h : table.Sound) (fd : Nat) (change : Descriptor → Descriptor) :
    (table.edit fd change).Sound := by
  have hsame : ∀ other, ((table.edit fd change).get? other).isSome
      = (table.get? other).isSome := by
    intro other
    rw [get?_edit]
    split
    · exact Option.isSome_map
    · rfl
  revert hsame
  unfold DescriptorTable.edit
  cases table.get? fd with
  | none => exact fun _ => h
  | some descriptor => exact h.of_isSome_eq Array.size_setIfInBounds rfl rfl

/-- The slots in an edited table are as many as before, so a table does not grow by being edited. -/
theorem size_edit (table : DescriptorTable) (fd : Nat) (change : Descriptor → Descriptor) :
    (table.edit fd change).slots.size = table.slots.size := by
  unfold edit
  split
  · rfl
  · exact Array.size_setIfInBounds

section Entries

/-- The descriptors in use, by ascending number. -/
def entries (table : DescriptorTable) : List (Nat × Descriptor) :=
  (List.range table.slots.size).filterMap fun fd =>
    (table.get? fd).map fun descriptor => (fd, descriptor)

/-- The entries are the numbers in use, each with the descriptor that it denotes. -/
theorem mem_entries {entry : Nat × Descriptor} :
    entry ∈ table.entries ↔ table.get? entry.1 = some entry.2 := by
  rw [entries, List.mem_filterMap]
  constructor
  · rintro ⟨fd, -, hfd⟩
    obtain ⟨descriptor, hget, rfl⟩ := Option.map_eq_some_iff.mp hfd
    exact hget
  · intro hget
    exact ⟨entry.1, List.mem_range.mpr (lt_size_of_get? hget), by rw [hget]; rfl⟩

/-- The entries are by ascending number, so none of them comes twice. -/
theorem pairwise_entries (table : DescriptorTable) :
    table.entries.Pairwise fun entry later => entry.1 < later.1 := by
  refine List.Pairwise.filterMap _ ?_ List.pairwise_lt_range
  intro fd fd' hlt entry hentry later hlater
  obtain ⟨-, -, rfl⟩ := Option.map_eq_some_iff.mp hentry
  obtain ⟨-, -, rfl⟩ := Option.map_eq_some_iff.mp hlater
  exact hlt

/-- The descriptors of a file are visited by ascending number, each of them once. -/
theorem boundTo_eq (table : DescriptorTable) (file : FileId) :
    table.boundTo file
      = (table.entries.filter fun entry => entry.2.file = file).map Prod.snd := by
  rw [boundTo, toList_slots, entries, List.filterMap_map, List.filter_filterMap,
    List.map_filterMap]
  congr 1
  funext fd
  show (table.get? fd).filter _ = _
  cases table.get? fd with
  | none => rfl
  | some descriptor => by_cases h : descriptor.file = file <;> simp [Option.filter, h]

end Entries

section Size

/-- An allocation doubles the slots where none is free, and makes the first one where there are
none. -/
theorem size_allocate (table : DescriptorTable) (file : FileId) :
    (table.allocate file).2.slots.size =
      if table.free = [] then table.slots.size + max 1 table.slots.size else table.slots.size := by
  rw [slots_allocate, Array.size_setIfInBounds, takeLowest]
  cases table.free with
  | nil => simp
  | cons lowest rest => simp

/-- No more descriptors are in use than there are slots. -/
theorem Sound.active_le_size (h : table.Sound) : table.active ≤ table.slots.size := by
  have hle := List.length_filter_le (fun fd => (table.get? fd).any fun _ => true)
    (List.range table.slots.size)
  rwa [List.length_range, ← numbers, ← h.active_eq] at hle

/-- Where no number is free, all slots are in use, so the table has to grow for another one. -/
theorem Sound.active_eq_size (h : table.Sound) (hfree : table.free = []) :
    table.active = table.slots.size := by
  have hall : ∀ fd ∈ List.range table.slots.size,
      ((table.get? fd).any fun _ => true) = true := by
    intro fd hfd
    cases hget : table.get? fd with
    | none =>
      have hempty := slots_eq_some_none_iff.mpr ⟨List.mem_range.mp hfd, hget⟩
      rw [← h.mem_free, hfree] at hempty
      exact nomatch hempty
    | some descriptor => rfl
  rw [h.active_eq, numbers, List.filter_eq_self.mpr hall, List.length_range]

/-- So many slots are what doubling has to make for so many descriptors. -/
def SizedFor (size most : Nat) : Prop := ∃ k, size = 2 ^ k ∧ most ≤ size ∧ size < 2 * most

/-- A number of slots that doubling has to make is the least power of two that is enough: half as
many would not do. -/
theorem SizedFor.isLeast {size most : Nat} (h : SizedFor size most) :
    IsLeast {count | most ≤ count ∧ ∃ k, count = 2 ^ k} size := by
  obtain ⟨k, rfl, hle, hlt⟩ := h
  refine ⟨⟨hle, k, rfl⟩, ?_⟩
  rintro count ⟨hcount, j, rfl⟩
  -- A smaller power of two is at most half as large, which is too few.
  by_contra hless
  have hjk : j < k := (Nat.pow_lt_pow_iff_right (by decide)).mp (Nat.not_le.mp hless)
  have hhalf : 2 ^ (j + 1) ≤ 2 ^ k := Nat.pow_le_pow_right (by decide) hjk
  rw [Nat.pow_succ] at hhalf
  omega

/-- A table that was large enough is large enough for one more descriptor, and not too large. It
doubles only where all slots are in use, and then twice as many are needed. -/
theorem Sound.sizedFor_allocate (h : table.Sound) {most : Nat}
    (hsized : table.slots.size = 0 ∧ most = 0 ∨ SizedFor table.slots.size most) (file : FileId) :
    SizedFor (table.allocate file).2.slots.size (max most (table.active + 1)) := by
  have hroom := (h.allocate file).active_le_size
  have hactive : (table.allocate file).2.active = table.active + 1 := by
    show table.takeLowest.2.active + 1 = _
    rw [h.takeLowest.active_eq]
  have hsize := table.size_allocate file
  rw [hactive] at hroom
  split at hsize
  · rename_i hfree
    have hfull := h.active_eq_size hfree
    rcases hsized with ⟨hzero, rfl⟩ | ⟨k, hk, hle, hlt⟩
    · exact ⟨0, by omega, by omega, by omega⟩
    · have hpos : 0 < 2 ^ k := Nat.two_pow_pos k
      exact ⟨k + 1, by omega, by omega, by omega⟩
  · rcases hsized with ⟨hzero, rfl⟩ | ⟨k, hk, hle, hlt⟩
    · omega
    · exact ⟨k, by omega, by omega, by omega⟩

end Size

/-- What the table and its ledger keep in common from use to use.

- `sound`: the free list and the counter of the table are right.
- `get?_eq`: a number denotes the descriptor that is open under it.
- `distinct`: no number is open twice.
- `sized`: there are no slots as long as no descriptor was handed out, and then as many as doubling
  has to make. -/
structure Tracks (table : DescriptorTable) (ledger : Ledger) : Prop where
  sound : table.Sound
  get?_eq : ∀ fd, table.get? fd = ledger.opened.lookup fd
  distinct : (ledger.opened.map Prod.fst).Nodup
  sized : ledger.handedOut = 0 ∧ table.slots.size = 0 ∧ ledger.most = 0 ∨
    0 < ledger.handedOut ∧ SizedFor table.slots.size ledger.most

/-- A table without slots and a ledger without entries go together. -/
theorem tracks_empty : empty.Tracks Ledger.empty where
  sound := sound_empty
  get?_eq _ := rfl
  distinct := List.nodup_nil
  sized := .inl ⟨rfl, rfl, rfl⟩

/-- The open descriptors are those in use, each under its number. No number is open twice, so
being found and being listed are the same. -/
theorem Tracks.get?_eq_some_iff_mem (h : table.Tracks ledger) {descriptor : Descriptor} :
    table.get? fd = some descriptor ↔ (fd, descriptor) ∈ ledger.opened := by
  rw [h.get?_eq, lookup_eq_some_iff_mem h.distinct]

/-- As many descriptors are open as the table counts. -/
theorem Tracks.length_opened (h : table.Tracks ledger) :
    ledger.opened.length = table.active := by
  rw [h.sound.active_eq, ← List.length_map (f := Prod.fst)]
  refine List.Perm.length_eq ?_
  rw [List.perm_ext_iff_of_nodup h.distinct (nodup_numbers _ _)]
  intro fd
  rw [mem_numbers, List.mem_map]
  simp only [h.get?_eq_some_iff_mem, and_true]
  constructor
  · rintro ⟨entry, hentry, rfl⟩
    exact ⟨entry.2, hentry⟩
  · rintro ⟨descriptor, hmem⟩
    exact ⟨_, hmem, rfl⟩

/-- Looking a number up is answered as the ledger has it, with the same complaint where it is not
open. -/
theorem Tracks.get_eq (h : table.Tracks ledger) (fd : Nat) : table.get fd = ledger.find fd := by
  have hget := h.get?_eq fd
  cases hlookup : ledger.opened.lookup fd with
  | none => simp only [get, Ledger.find, hget, hlookup]
  | some descriptor => simp only [get, Ledger.find, hget, hlookup]

/-- An allocation is recorded under a number that was not open, and the descriptor is the one
recorded. -/
theorem Tracks.allocate (h : table.Tracks ledger) (file : FileId) :
    (table.allocate file).2.Tracks
      (ledger.note (.allocate file) (.number (table.allocate file).1)) where
  sound := h.sound.allocate file
  get?_eq fd := by
    show _ = ((_, _) :: ledger.opened).lookup fd
    rw [h.sound.get?_allocate]
    split
    · rename_i heq
      rw [heq, List.lookup_cons_self]
      rfl
    · rename_i hne
      rw [lookup_cons_of_ne hne, h.get?_eq]
  distinct := by
    have hfree := h.sound.get?_fst_allocate file
    rw [h.get?_eq, lookup_eq_none_iff_not_mem] at hfree
    exact List.nodup_cons.mpr ⟨hfree, h.distinct⟩
  sized := by
    -- There is an open number now, so the table is sized for the most that were open at once.
    refine .inr ⟨Nat.succ_pos _, ?_⟩
    show SizedFor _ (max ledger.most (ledger.opened.length + 1))
    rw [h.length_opened]
    refine h.sound.sizedFor_allocate ?_ file
    exact h.sized.imp And.right And.right

/-- An edit is recorded where it was made, and nowhere if the number is not open. -/
theorem Tracks.edit (h : table.Tracks ledger) (fd : Nat) (change : Descriptor → Descriptor)
    (answer : Answer) : (table.edit fd change).Tracks (ledger.note (.edit fd change) answer) := by
  have hkeys : ((ledger.note (.edit fd change) answer).opened).map Prod.fst
      = ledger.opened.map Prod.fst := map_fst_map (fun entry => by split <;> rfl) _
  have hdistinct := hkeys ▸ h.distinct
  refine ⟨h.sound.edit fd change, fun other => ?_, hdistinct, size_edit table fd change ▸ h.sized⟩
  refine Option.ext fun descriptor => ?_
  rw [get?_edit, lookup_eq_some_iff_mem hdistinct]
  show _ ↔ (other, descriptor) ∈ ledger.opened.map _
  split
  · rename_i heq
    subst heq
    rw [mem_map_if_of_forall (p := fun entry => entry.1 = other) (fun _ => rfl),
      Option.map_eq_some_iff]
    simp only [h.get?_eq_some_iff_mem, eq_comm]
  · rename_i hne
    rw [mem_map_if_of_not (p := fun entry => entry.1 = fd) (fun _ => hne), h.get?_eq_some_iff_mem]

/-- A release is recorded, also one of a number that is not open, which changes neither side. -/
theorem Tracks.release (h : table.Tracks ledger) (fd : Nat) (answer : Answer) :
    (table.perform (.release fd)).2.Tracks (ledger.note (.release fd) answer) := by
  have hdistinct : ((ledger.opened.filter fun entry => entry.1 != fd).map Prod.fst).Nodup :=
    h.distinct.sublist (List.filter_sublist.map _)
  -- The recorded list loses the entry of the number, if it has one, and only that.
  have hlookup : ∀ other, (ledger.opened.filter fun entry => entry.1 != fd).lookup other
      = if other = fd then none else table.get? other := by
    intro other
    refine Option.ext fun descriptor => ?_
    rw [lookup_eq_some_iff_mem hdistinct, List.mem_filter, bne_iff_ne, ← h.get?_eq_some_iff_mem]
    split <;> simp [*]
  cases hrelease : table.release fd with
  -- A refused release is of a number without an entry, so there was nothing to be taken off.
  | error complaint =>
    have hnone : table.get? fd = none := by
      rw [DescriptorTable.release] at hrelease
      split at hrelease
      · assumption
      · cases hrelease
    simp only [perform, hrelease]
    refine ⟨h.sound, fun other => ?_, hdistinct, h.sized⟩
    refine (Eq.trans (hlookup other) ?_).symm
    split
    · rename_i heq
      rw [heq, hnone]
    · rfl
  | ok freed =>
    obtain ⟨descriptor, left⟩ := freed
    have hsize : left.slots.size = table.slots.size := by
      rw [(release_eq_ok_iff.mp hrelease).2, Array.size_setIfInBounds]
    simp only [perform, hrelease]
    refine ⟨h.sound.release hrelease, fun other => ?_, hdistinct, hsize.symm ▸ h.sized⟩
    rw [get?_release hrelease]
    exact (hlookup other).symm

/-- A use of a table and its record go together. This is the step of the induction, one case for
each kind of use. -/
theorem Tracks.record (h : table.Tracks ledger) (call : Call) :
    (record (ledger, table) call).2.Tracks (record (ledger, table) call).1 := by
  cases call with
  | allocate file => exact h.allocate file
  | get fd => exact h
  | edit fd change => exact h.edit fd change (.descriptor (table.get fd))
  | release fd => exact h.release fd (table.perform (.release fd)).1
  | boundTo file => exact h
  | clear => exact tracks_empty

/-- All uses of a table and their records go together, by induction over the uses from the first
to the last. -/
theorem tracks_recordAll (calls : List Call) :
    (recordAll calls).2.Tracks (recordAll calls).1 := by
  induction calls using List.reverseRecOn with
  | nil => exact tracks_empty
  | append_singleton calls call ih =>
    rw [recordAll, List.foldl_append]
    exact ih.record call

/-- A release is answered as expected, and one that is refused changes nothing about the table. -/
theorem Tracks.release_answer (h : table.Tracks ledger) (fd : Nat) :
    (table.perform (.release fd)).1 = .descriptor (ledger.find fd) ∧
      (ledger.opened.lookup fd = none → (table.perform (.release fd)).2 = table) := by
  rw [← h.get_eq, ← h.get?_eq]
  simp only [perform, DescriptorTable.release, get]
  cases table.get? fd with
  | none => exact ⟨rfl, fun _ => rfl⟩
  | some descriptor => exact ⟨rfl, fun hnone => nomatch hnone⟩

/-- A visit to the descriptors of a file is answered as expected: those of the file, by ascending
number. -/
theorem Tracks.boundTo_answer (h : table.Tracks ledger) (file : FileId) :
    ledger.Expects (.boundTo file) (.descriptors (table.boundTo file)) := by
  refine ⟨table.entries.filter fun entry => entry.2.file = file,
    table.pairwise_entries.filter _, fun entry => ?_, table.boundTo_eq file⟩
  rw [List.mem_filter, mem_entries, h.get?_eq_some_iff_mem, decide_eq_true_iff]

/-- Whatever uses are made of a table, it agrees with its ledger: every statement of `Agrees`
holds after them. -/
theorem agrees_recordAll (calls : List Call) :
    (recordAll calls).2.Agrees (recordAll calls).1 := by
  have h := tracks_recordAll calls
  -- From here on only the relation matters, not the calls that led to it.
  generalize (recordAll calls).1 = ledger at h
  generalize (recordAll calls).2 = table at h
  refine ⟨fun call => ?_, h.get?_eq, fun fd => (h.release_answer fd).2, h.sound.ascending,
    h.sound.mem_free, ?_, h.length_opened, ?_, ?_⟩
  · cases call with
    | allocate file =>
      refine ⟨(h.get?_eq _).symm.trans (h.sound.get?_fst_allocate file), fun lower hlt => ?_⟩
      rw [← h.get?_eq, Option.isSome_iff_ne_none]
      exact h.sound.get?_of_lt_allocate hlt
    | get fd | edit fd change => exact h.get_eq fd
    | release fd =>
      rw [(h.release_answer fd).1]
      rfl
    | boundTo file => exact h.boundTo_answer file
    | clear => trivial
  · rw [h.sound.active_eq, toList_slots, List.countP_map, List.countP_eq_length_filter, numbers]
    rfl
  · intro hzero
    rcases h.sized with ⟨-, hsize, -⟩ | ⟨hpos, -⟩
    · exact hsize
    · omega
  · intro hpos
    rcases h.sized with ⟨hzero, -, -⟩ | ⟨-, hsized⟩
    · omega
    · exact hsized.isLeast

/-- Three descriptors are handed out, the cursor of the first is moved, and the second is released
twice. The next one gets its number, on the other file and with a cursor that is in no block. -/
theorem agrees_recordAll_reused :
    let file : FileId := ⟨0, 0⟩
    let other : FileId := ⟨1, 7⟩
    let moved : Cursor := ⟨some ⟨4, 2⟩, 3⟩
    let calls : List Call := [.allocate file, .allocate other, .allocate file,
      .edit 0 fun descriptor => { descriptor with cursor := moved }, .release 1, .release 1,
      .allocate other]
    let table := (recordAll calls).2
    table.get? 0 = some ⟨file, moved⟩ ∧ table.get? 1 = some ⟨other, ⟨none, 0⟩⟩ ∧
      table.get? 2 = some ⟨file, ⟨none, 0⟩⟩ ∧ table.get? 3 = none ∧
      table.boundTo file = [⟨file, moved⟩, ⟨file, ⟨none, 0⟩⟩] ∧ table.active = 3 ∧
      table.free = [3] ∧ table.slots.size = 4 ∧ table.Agrees (recordAll calls).1 := by
  intro file other moved calls table
  refine ⟨?_, ?_, ?_, ?_, ?_, ?_, ?_, ?_, agrees_recordAll calls⟩
  all_goals decide +kernel

end DescriptorTable

end Filestore
