import Filestore.Descriptor
import Filestore.Proofs.Slab.Live

/-!
# `Filestore.Proofs.Descriptor`: what the numbers of a table denote

`DescriptorTable.get?` is the view of a table, and each operation has one lemma through it. A
table is `DescriptorTable.Sound` when its list of free numbers is ascending and lists the empty
slots, and its counter counts the others. Every operation leaves a sound table sound, and in a
sound table `allocate` gives the lowest number not in use (`Sound.get?_of_lt_allocate`).

`DescriptorTable.numbers` lists the numbers whose descriptors satisfy a condition. What is counted
about a table is a length of such a list: the descriptors in use, and those bound to a file
(`length_boundTo`). Three lemmas are enough to keep track of it: one number more satisfies the
condition, one less, or the same ones do.

An allocation has two steps, taking a number and binding it. `Taken` is what is known in between,
when the number is off the free list and its slot still empty; the two ways of taking one, from
the list and by growing the table, come together there.

A cursor can be moved without any of this changing. `Sound.congr` says it for every change after
which each number still has its file, and the moves of one cursor and of all cursors in a file are
instances.
-/

set_option autoImplicit false

namespace Filestore

namespace DescriptorTable

variable {table : DescriptorTable} {fd other index : Nat} {file : FileId} {free : List Nat}

/-- The numbers in use whose descriptors satisfy a condition, ascending. -/
def numbers (table : DescriptorTable) (p : Descriptor → Bool) : List Nat :=
  (List.range table.slots.size).filter fun fd => (table.get? fd).any p

/-- A number is in use when its slot holds a descriptor. A number without a slot is not. -/
theorem get?_eq_some_iff {descriptor : Descriptor} :
    table.get? fd = some descriptor ↔ table.slots[fd]? = some (some descriptor) := by
  unfold get?
  cases table.slots[fd]? with
  | none => simp
  | some slot => simp

/-- A slot is empty when its number is not in use. The number must be that of a slot, as larger
numbers are not in use either. -/
theorem slots_eq_some_none_iff :
    table.slots[fd]? = some none ↔ fd < table.slots.size ∧ table.get? fd = none := by
  unfold get?
  rcases Nat.lt_or_ge fd table.slots.size with hlt | hge
  · rw [Array.getElem?_eq_getElem hlt]
    simp [hlt]
  · rw [Array.getElem?_eq_none hge]
    simp [Nat.not_lt.mpr hge]

/-- A number in use is that of a slot. -/
theorem lt_size_of_get? {descriptor : Descriptor} (h : table.get? fd = some descriptor) :
    fd < table.slots.size :=
  (Array.getElem?_eq_some_iff.mp (get?_eq_some_iff.mp h)).1

/-- The listed numbers are those in use whose descriptors satisfy the condition, and no others. -/
theorem mem_numbers {p : Descriptor → Bool} :
    fd ∈ table.numbers p ↔ ∃ descriptor, table.get? fd = some descriptor ∧ p descriptor = true := by
  rw [numbers, List.mem_filter, Option.any_eq_true]
  constructor
  · exact fun h => h.2
  · rintro ⟨descriptor, hget, hp⟩
    exact ⟨List.mem_range.mpr (lt_size_of_get? hget), descriptor, hget, hp⟩

/-- A descriptor bound to a file is that of a number in use, and its file is this one. -/
theorem exists_get?_of_mem_boundTo {descriptor : Descriptor} (h : descriptor ∈ table.boundTo file) :
    ∃ fd, table.get? fd = some descriptor ∧ descriptor.file = file := by
  rw [boundTo, List.mem_filterMap] at h
  obtain ⟨slot, hslot, hfilter⟩ := h
  obtain ⟨rfl, hfile⟩ := Option.filter_eq_some_iff.mp hfilter
  obtain ⟨fd, hfd⟩ := Array.mem_iff_getElem?.mp (Array.mem_toList_iff.mp hslot)
  exact ⟨fd, get?_eq_some_iff.mpr hfd, of_decide_eq_true hfile⟩

/-- No number is listed twice, since they are listed in the order of the slots. -/
theorem nodup_numbers (table : DescriptorTable) (p : Descriptor → Bool) :
    (table.numbers p).Nodup :=
  List.nodup_range.filter _

/-- The slots are what the numbers denote, in order. So a list over the slots is one over the
numbers. -/
theorem toList_slots (table : DescriptorTable) :
    table.slots.toList = (List.range table.slots.size).map table.get? := by
  refine List.ext_getElem (by simp) ?_
  intro fd hfd _
  rw [List.getElem_map, List.getElem_range, get?, Array.getElem?_eq_getElem (by simpa using hfd)]
  rfl

/-- The descriptors bound to a file are counted by their numbers, also where two of them are
equal. -/
theorem length_boundTo (table : DescriptorTable) (file : FileId) :
    (table.boundTo file).length
      = (table.numbers fun descriptor => descriptor.file = file).length := by
  rw [boundTo, toList_slots, List.filterMap_map, List.length_filterMap_eq_countP,
    List.countP_eq_length_filter, numbers]
  congr 2
  funext fd
  show (Option.filter _ (table.get? fd)).isSome = _
  cases table.get? fd with
  | none => rfl
  | some descriptor => by_cases h : descriptor.file = file <;> simp [Option.filter, h]

/-- A file has no descriptors when none in use is bound to it. This is when it may go. -/
theorem length_boundTo_eq_zero_iff : (table.boundTo file).length = 0 ↔
    ∀ fd descriptor, table.get? fd = some descriptor → descriptor.file ≠ file := by
  rw [length_boundTo, List.length_eq_zero_iff, List.eq_nil_iff_forall_not_mem]
  constructor
  · intro hnone fd descriptor hget hfile
    exact hnone fd (mem_numbers.mpr ⟨descriptor, hget, decide_eq_true hfile⟩)
  · intro hnone fd hfd
    obtain ⟨descriptor, hget, hfile⟩ := mem_numbers.mp hfd
    exact hnone fd descriptor hget (of_decide_eq_true hfile)

/-- A table whose counter and free list tell the truth about its slots.

- `active_eq`: the counter counts the numbers in use.
- `ascending`: the free numbers are ascending.
- `mem_free`: they are the numbers of the empty slots. -/
structure Sound (table : DescriptorTable) : Prop where
  active_eq : table.active = (table.numbers fun _ => true).length
  ascending : table.free.Pairwise (· < ·)
  mem_free : ∀ fd, fd ∈ table.free ↔ table.slots[fd]? = some none

/-- The table without slots is sound: nothing is free and nothing is counted. -/
theorem sound_empty : empty.Sound where
  active_eq := rfl
  ascending := List.Pairwise.nil
  mem_free fd := by simp [empty]

/-- One number more satisfies a condition, where one was not in use and now does, and every other
is as it was. -/
theorem length_numbers_succ {table' : DescriptorTable} {p : Descriptor → Bool}
    (hfd : table.get? fd = none)
    (hfd' : ∃ descriptor, table'.get? fd = some descriptor ∧ p descriptor)
    (hother : ∀ other, other ≠ fd → table'.get? other = table.get? other) :
    (table'.numbers p).length = (table.numbers p).length + 1 := by
  have hnot : fd ∉ table.numbers p := by
    rw [mem_numbers]
    rintro ⟨descriptor, hget, -⟩
    rw [hfd] at hget
    cases hget
  have hperm : (table'.numbers p).Perm (fd :: table.numbers p) := by
    refine perm_cons_of_mem_iff (nodup_numbers _ _) (nodup_numbers _ _) hnot ?_
    intro other
    by_cases heq : other = fd
    · subst heq
      exact ⟨fun _ => .inl rfl, fun _ => mem_numbers.mpr hfd'⟩
    · rw [mem_numbers, hother other heq, mem_numbers]
      exact ⟨.inr, fun h => h.resolve_left heq⟩
  rw [hperm.length_eq, List.length_cons]

/-- As many numbers satisfy a condition as before, where each of them does if it did. The tables
may have different numbers of slots. -/
theorem length_numbers_congr {table' : DescriptorTable} {p : Descriptor → Bool}
    (hsame : ∀ fd, (table'.get? fd).any p = (table.get? fd).any p) :
    (table'.numbers p).length = (table.numbers p).length := by
  refine List.Perm.length_eq ?_
  rw [List.perm_ext_iff_of_nodup (nodup_numbers _ _) (nodup_numbers _ _)]
  intro fd
  rw [mem_numbers, mem_numbers, ← Option.any_eq_true, ← Option.any_eq_true, hsame]

/-- A number was taken that is the lowest of an empty slot. Nothing that is in use changed.

- `empty`: the number is of an empty slot.
- `get?_eq`: what was in use is in use.
- `lowest`: no lower number is of an empty slot.
- `ascending`: the numbers that stay free are ascending.
- `mem_free`: they are those of the other empty slots.
- `active_eq`: as many numbers are in use. -/
structure Taken (table : DescriptorTable) (fd : Nat) (taken : DescriptorTable) : Prop where
  empty : taken.slots[fd]? = some none
  get?_eq : ∀ other, taken.get? other = table.get? other
  lowest : ∀ other < fd, table.get? other ≠ none
  ascending : taken.free.Pairwise (· < ·)
  mem_free : ∀ other, other ∈ taken.free ↔ other ≠ fd ∧ taken.slots[other]? = some none
  active_eq : taken.active = table.active

/-- The first free number is the lowest one, since the list is ascending and lists all empty
slots. -/
private theorem Sound.taken_of_cons (h : table.Sound) {lowest : Nat} {rest : List Nat}
    (hfree : table.free = lowest :: rest) : table.Taken lowest { table with free := rest } := by
  have hascending := h.ascending
  have hmem := h.mem_free
  rw [hfree] at hascending hmem
  obtain ⟨hlowest, hrest⟩ := List.pairwise_cons.mp hascending
  have hempty := (hmem lowest).mp List.mem_cons_self
  refine ⟨hempty, fun _ => rfl, ?_, hrest, fun other => ⟨?_, ?_⟩, rfl⟩
  · -- A lower number that is not in use would be free, and the free numbers ascend.
    intro other hlt hnone
    have hsize := (slots_eq_some_none_iff.mp hempty).1
    have hlower := slots_eq_some_none_iff.mpr ⟨Nat.lt_trans hlt hsize, hnone⟩
    rcases List.mem_cons.mp ((hmem other).mpr hlower) with rfl | hother
    · exact Nat.lt_irrefl _ hlt
    · exact Nat.lt_asymm hlt (hlowest other hother)
  · intro hother
    exact ⟨(Nat.ne_of_lt (hlowest other hother)).symm,
      (hmem other).mp (List.mem_cons_of_mem _ hother)⟩
  · rintro ⟨hne, hother⟩
    exact (List.mem_cons.mp ((hmem other).mpr hother)).resolve_left hne

/-- Where no number is free, the table grows and its first new number is the lowest one. All the
old slots are in use. -/
private theorem Sound.taken_of_nil (h : table.Sound) (hfree : table.free = []) :
    table.Taken table.takeLowest.1 table.takeLowest.2 := by
  have hmem := h.mem_free
  rw [hfree] at hmem
  -- No old slot is empty, and all new ones are.
  have hslot : ∀ fd, (table.slots ++ Array.replicate (max 1 table.slots.size) none)[fd]?
      = some none ↔ table.slots.size ≤ fd ∧ fd < table.slots.size + max 1 table.slots.size := by
    intro fd
    rcases Nat.lt_or_ge fd table.slots.size with hlt | hge
    · rw [Array.getElem?_append_left hlt]
      exact ⟨fun hempty => (List.not_mem_nil ((hmem fd).mpr hempty)).elim, fun h => by omega⟩
    · rw [Array.getElem?_append_right hge, Array.getElem?_replicate]
      split <;> simp <;> omega
  simp only [DescriptorTable.takeLowest, hfree]
  refine ⟨(hslot _).mpr (by omega), ?_, ?_, List.pairwise_lt_range', ?_, rfl⟩
  · intro fd
    unfold get?
    rcases Nat.lt_or_ge fd table.slots.size with hlt | hge
    · rw [Array.getElem?_append_left hlt]
    · rw [Array.getElem?_append_right hge, Array.getElem?_replicate, Array.getElem?_eq_none hge]
      split <;> rfl
  · intro fd hlt hnone
    exact List.not_mem_nil ((hmem fd).mpr (slots_eq_some_none_iff.mpr ⟨hlt, hnone⟩))
  · intro fd
    rw [hslot, List.mem_range'_1]
    omega

/-- The lowest number of an empty slot is taken, from the list or from what the table grows by. -/
theorem Sound.takeLowest (h : table.Sound) :
    table.Taken table.takeLowest.1 table.takeLowest.2 := by
  cases hfree : table.free with
  | nil => exact h.taken_of_nil hfree
  | cons lowest rest =>
    simp only [DescriptorTable.takeLowest, hfree]
    exact h.taken_of_cons hfree

/-- An allocation puts the descriptor in the slot of the number taken, with its cursor unset. -/
theorem slots_allocate (table : DescriptorTable) (file : FileId) :
    (table.allocate file).2.slots = table.takeLowest.2.slots.setIfInBounds (table.allocate file).1
      (some (Descriptor.onFile file)) := rfl

/-- The number that a table allocates was not in use, so no descriptor is lost by it. -/
theorem Sound.get?_fst_allocate (h : table.Sound) (file : FileId) :
    table.get? (table.allocate file).1 = none := by
  obtain ⟨hempty, hsame, -⟩ := h.takeLowest
  show table.get? table.takeLowest.1 = none
  rw [← hsame]
  exact (slots_eq_some_none_iff.mp hempty).2

/-- Every lower number than the one that a table allocates was in use: it is the lowest. -/
theorem Sound.get?_of_lt_allocate (h : table.Sound) (hlt : fd < (table.allocate file).1) :
    table.get? fd ≠ none :=
  h.takeLowest.lowest fd hlt

/-- An allocation binds its number, and no other. What was in use denotes what it denoted. -/
theorem Sound.get?_allocate (h : table.Sound) (file : FileId) (fd : Nat) :
    (table.allocate file).2.get? fd =
      if fd = (table.allocate file).1 then some (Descriptor.onFile file) else table.get? fd := by
  obtain ⟨hempty, hsame, -⟩ := h.takeLowest
  have hlt := (Array.getElem?_eq_some_iff.mp hempty).1
  split
  · rename_i heq
    subst heq
    rw [get?_eq_some_iff, slots_allocate]
    exact Array.getElem?_setIfInBounds_self_of_lt hlt
  · rename_i hne
    rw [← hsame fd, get?, slots_allocate, Array.getElem?_setIfInBounds_ne (Ne.symm hne), get?]

/-- An allocation leaves a sound table sound: one number goes from the free ones to those
counted. -/
theorem Sound.allocate (h : table.Sound) (file : FileId) : (table.allocate file).2.Sound where
  active_eq := by
    show table.takeLowest.2.active + 1 = _
    rw [h.takeLowest.active_eq, h.active_eq]
    refine (length_numbers_succ (h.get?_fst_allocate file) ⟨Descriptor.onFile file, ?_, rfl⟩
      fun other hother => ?_).symm
    · rw [h.get?_allocate, if_pos rfl]
    · rw [h.get?_allocate, if_neg hother]
  ascending := h.takeLowest.ascending
  mem_free fd := by
    obtain ⟨hempty, -, -, -, hmem, -⟩ := h.takeLowest
    have hlt : (table.allocate file).1 < table.takeLowest.2.slots.size :=
      (Array.getElem?_eq_some_iff.mp hempty).1
    refine (hmem fd).trans ?_
    rw [slots_allocate]
    by_cases heq : fd = (table.allocate file).1
    · rw [heq, Array.getElem?_setIfInBounds_self_of_lt hlt]
      exact ⟨fun h => absurd rfl h.1, fun h => nomatch h⟩
    · rw [Array.getElem?_setIfInBounds_ne (Ne.symm heq)]
      exact ⟨fun h => h.2, fun h => ⟨heq, h⟩⟩

/-- An insertion into an ascending list adds its number and keeps the others. -/
theorem mem_insertAscending :
    other ∈ insertAscending index free ↔ other = index ∨ other ∈ free := by
  induction free with
  | nil => simp [insertAscending]
  | cons first rest ih =>
    rw [insertAscending]
    split
    · simp
    split
    · rename_i heq
      simp [heq]
    · rw [List.mem_cons, ih, List.mem_cons, or_left_comm]

/-- An ascending list stays ascending when a number is inserted in its place. -/
theorem pairwise_insertAscending (h : free.Pairwise (· < ·)) (index : Nat) :
    (insertAscending index free).Pairwise (· < ·) := by
  induction free with
  | nil => exact List.pairwise_singleton _ _
  | cons first rest ih =>
    obtain ⟨hfirst, hrest⟩ := List.pairwise_cons.mp h
    rw [insertAscending]
    split
    · rename_i hlt
      refine List.pairwise_cons.mpr ⟨?_, h⟩
      intro i hi
      rcases List.mem_cons.mp hi with rfl | hi
      · exact hlt
      · exact Nat.lt_trans hlt (hfirst i hi)
    split
    · exact h
    · refine List.pairwise_cons.mpr ⟨?_, ih hrest⟩
      intro i hi
      rcases mem_insertAscending.mp hi with rfl | hi
      · omega
      · exact hfirst i hi

/-- A number that is freed was in use. Its slot is emptied, it is put in its place among the free
ones, and one less is counted. -/
theorem release_eq_ok_iff {freed : Descriptor} {left : DescriptorTable} :
    table.release fd = .ok (freed, left) ↔ table.get? fd = some freed ∧
      left = ⟨table.slots.setIfInBounds fd none, insertAscending fd table.free,
        table.active - 1⟩ := by
  unfold release
  cases table.get? fd with
  | none => simp
  | some descriptor => simp [eq_comm]

/-- A release frees its number, and no other; the other descriptors are what they were. -/
theorem get?_release {freed : Descriptor} {left : DescriptorTable}
    (hrelease : table.release fd = .ok (freed, left)) (other : Nat) :
    left.get? other = if other = fd then none else table.get? other := by
  obtain ⟨hget, rfl⟩ := release_eq_ok_iff.mp hrelease
  unfold get?
  split
  · rename_i heq
    rw [heq, Array.getElem?_setIfInBounds_self_of_lt (lt_size_of_get? hget)]
    rfl
  · rename_i hne
    rw [Array.getElem?_setIfInBounds_ne (Ne.symm hne)]

/-- The numbers that stay in use are all but the freed one, with the descriptors they had. -/
theorem get?_release_iff {freed descriptor : Descriptor} {left : DescriptorTable}
    (hrelease : table.release fd = .ok (freed, left)) (other : Nat) :
    left.get? other = some descriptor ↔ other ≠ fd ∧ table.get? other = some descriptor := by
  rw [get?_release hrelease]
  by_cases heq : other = fd
  · simp [heq]
  · simp [heq]

/-- A descriptor of another file than the freed one's stays, whatever its number. -/
theorem get?_release_iff_of_file_ne {freed descriptor : Descriptor} {left : DescriptorTable}
    (hrelease : table.release fd = .ok (freed, left)) (hne : descriptor.file ≠ freed.file)
    (other : Nat) : left.get? other = some descriptor ↔ table.get? other = some descriptor := by
  refine (get?_release_iff hrelease other).trans (and_iff_right_of_imp ?_)
  rintro hget rfl
  cases (release_eq_ok_iff.mp hrelease).1.symm.trans hget
  exact hne rfl

/-- A release leaves one descriptor less that satisfies a condition, if its own does. -/
theorem length_numbers_release {freed : Descriptor} {left : DescriptorTable}
    (hrelease : table.release fd = .ok (freed, left)) {p : Descriptor → Bool}
    (hp : p freed = true) :
    (table.numbers p).length = (left.numbers p).length + 1 := by
  have hget := (release_eq_ok_iff.mp hrelease).1
  have hnone : left.get? fd = none := by rw [get?_release hrelease, if_pos rfl]
  refine length_numbers_succ hnone ⟨freed, hget, hp⟩ ?_
  intro other hother
  rw [get?_release hrelease, if_neg hother]

/-- A release leaves a sound table sound: one number goes from those counted to the free ones. -/
theorem Sound.release (h : table.Sound) {freed : Descriptor} {left : DescriptorTable}
    (hrelease : table.release fd = .ok (freed, left)) : left.Sound := by
  have hcount := length_numbers_release hrelease (p := fun _ => true) rfl
  obtain ⟨hget, hleft⟩ := release_eq_ok_iff.mp hrelease
  refine ⟨?_, ?_, ?_⟩
  · have hactive := h.active_eq
    rw [hleft] at hcount ⊢
    show table.active - 1 = _
    omega
  · rw [hleft]
    exact pairwise_insertAscending h.ascending fd
  · intro other
    rw [hleft]
    refine mem_insertAscending.trans ?_
    by_cases heq : other = fd
    · rw [heq, Array.getElem?_setIfInBounds_self_of_lt (lt_size_of_get? hget)]
      simp
    · rw [Array.getElem?_setIfInBounds_ne (Ne.symm heq), h.mem_free]
      exact ⟨fun h => h.resolve_left heq, .inr⟩

/-- Where every number keeps its file, each file keeps its number of descriptors. -/
theorem length_boundTo_congr {table' : DescriptorTable}
    (hsame : ∀ fd, (table'.get? fd).map Descriptor.file = (table.get? fd).map Descriptor.file)
    (file : FileId) : (table'.boundTo file).length = (table.boundTo file).length := by
  rw [length_boundTo, length_boundTo]
  refine length_numbers_congr ?_
  intro fd
  have hany : ∀ slot : Option Descriptor, slot.any (fun descriptor => descriptor.file = file)
      = (slot.map Descriptor.file).any (fun id => id = file) := by
    intro slot
    cases slot <;> rfl
  rw [hany, hany, hsame]

/-- Where the same numbers are in use, a sound table stays sound, whatever the descriptors are. -/
theorem Sound.of_isSome_eq (h : table.Sound) {table' : DescriptorTable}
    (hsize : table'.slots.size = table.slots.size) (hfree : table'.free = table.free)
    (hactive : table'.active = table.active)
    (hsame : ∀ fd, (table'.get? fd).isSome = (table.get? fd).isSome) : table'.Sound where
  active_eq := by
    rw [hactive, h.active_eq]
    refine (length_numbers_congr ?_).symm
    intro fd
    have hany : ∀ slot : Option Descriptor, slot.any (fun _ => true) = slot.isSome := by
      intro slot
      cases slot <;> rfl
    rw [hany, hany, hsame]
  ascending := hfree ▸ h.ascending
  mem_free fd := by
    rw [hfree, h.mem_free, slots_eq_some_none_iff, slots_eq_some_none_iff, hsize,
      ← Option.isNone_iff_eq_none, ← Option.not_isSome, ← hsame, Option.not_isSome,
      Option.isNone_iff_eq_none]

/-- Where every number keeps its file, a sound table stays sound, as the same numbers are in use. -/
theorem Sound.congr (h : table.Sound) {table' : DescriptorTable}
    (hsize : table'.slots.size = table.slots.size) (hfree : table'.free = table.free)
    (hactive : table'.active = table.active)
    (hsame : ∀ fd, (table'.get? fd).map Descriptor.file = (table.get? fd).map Descriptor.file) :
    table'.Sound := by
  refine h.of_isSome_eq hsize hfree hactive fun fd => ?_
  rw [← Option.isSome_map (f := Descriptor.file), hsame, Option.isSome_map]

/-- A cursor is moved in its descriptor, and in no other. The descriptor keeps its file. -/
theorem get?_setCursor (table : DescriptorTable) (fd : Nat) (cursor : Cursor) (other : Nat) :
    (table.setCursor fd cursor).get? other =
      (table.get? other).map fun descriptor =>
        { descriptor with cursor := if other = fd then cursor else descriptor.cursor } := by
  unfold setCursor
  cases hget : table.get? fd with
  | none =>
    by_cases heq : other = fd
    · subst heq
      simp [hget]
    · simp [heq]
  | some descriptor =>
    by_cases heq : other = fd
    · subst heq
      rw [hget]
      have hslot := Array.getElem?_setIfInBounds_self_of_lt (lt_size_of_get? hget)
        (a := some { descriptor with cursor })
      simp [get?, hslot]
    · simp only [get?, Array.getElem?_setIfInBounds_ne (Ne.symm heq)]
      simp [heq]

/-- Moving a cursor leaves the other descriptors as they are, those of the same file among them. -/
theorem get?_setCursor_of_ne (hne : other ≠ fd) (table : DescriptorTable) (cursor : Cursor) :
    (table.setCursor fd cursor).get? other = table.get? other := by
  rw [get?_setCursor]
  simp only [if_neg hne]
  exact Option.map_id'

/-- A cursor that is moved to where it is changes nothing, not even the representation of the
table. -/
theorem setCursor_cursor {descriptor : Descriptor} (hget : table.get? fd = some descriptor) :
    table.setCursor fd descriptor.cursor = table := by
  obtain ⟨hlt, hslot⟩ := Array.getElem?_eq_some_iff.mp (get?_eq_some_iff.mp hget)
  simp only [setCursor, hget]
  rw [← hslot, Array.setIfInBounds_def, dif_pos hlt, Array.set_getElem_self]

/-- A moved cursor is where it was moved to, and its descriptor is open on the file it was open
on. -/
theorem get?_setCursor_self {descriptor : Descriptor} (hget : table.get? fd = some descriptor)
    (cursor : Cursor) :
    (table.setCursor fd cursor).get? fd = some { descriptor with cursor } := by
  rw [get?_setCursor, hget, Option.map_some, if_pos rfl]

/-- A cursor that is moved twice is where it was moved to last, as if it had been moved once. -/
theorem setCursor_setCursor {descriptor : Descriptor} (hget : table.get? fd = some descriptor)
    (cursor last : Cursor) :
    (table.setCursor fd cursor).setCursor fd last = table.setCursor fd last := by
  rw [setCursor, get?_setCursor_self hget]
  simp only [setCursor, hget, Array.setIfInBounds_setIfInBounds]

/-- A descriptor with another cursor is open on the file it was open on, and so is every other
one. -/
theorem file_setCursor (table : DescriptorTable) (fd : Nat) (cursor : Cursor) (other : Nat) :
    ((table.setCursor fd cursor).get? other).map Descriptor.file
      = (table.get? other).map Descriptor.file := by
  rw [get?_setCursor]
  cases table.get? other with
  | none => rfl
  | some descriptor => rfl

/-- Moving a cursor leaves a sound table sound, as the same numbers are in use. -/
theorem Sound.setCursor (h : table.Sound) (fd : Nat) (cursor : Cursor) :
    (table.setCursor fd cursor).Sound := by
  have hfile := table.file_setCursor fd cursor
  revert hfile
  unfold DescriptorTable.setCursor
  cases table.get? fd with
  | none => exact fun _ => h
  | some descriptor => exact fun hfile => h.congr Array.size_setIfInBounds rfl rfl hfile

/-- The cursors in a file are moved, all of them, and no others. Every descriptor keeps its file. -/
theorem get?_mapCursors (table : DescriptorTable) (file : FileId) (move : Cursor → Cursor)
    (fd : Nat) :
    (table.mapCursors file move).get? fd =
      (table.get? fd).map fun descriptor =>
        { descriptor with
          cursor := if descriptor.file = file then move descriptor.cursor
            else descriptor.cursor } := by
  have hslot : (table.mapCursors file move).get? fd =
      (table.get? fd).map fun descriptor =>
        if descriptor.file = file then { descriptor with cursor := move descriptor.cursor }
        else descriptor := by
    unfold get? mapCursors
    simp only [Array.getElem?_map]
    cases table.slots[fd]? <;> rfl
  rw [hslot]
  congr 1
  funext descriptor
  split <;> rfl

/-- Moving the cursors in a file leaves every descriptor open on its file. -/
theorem file_mapCursors (table : DescriptorTable) (file : FileId) (move : Cursor → Cursor)
    (fd : Nat) :
    ((table.mapCursors file move).get? fd).map Descriptor.file
      = (table.get? fd).map Descriptor.file := by
  rw [get?_mapCursors]
  cases table.get? fd with
  | none => rfl
  | some descriptor => rfl

/-- Moving the cursors in a file leaves a sound table sound, as the same numbers are in use. -/
theorem Sound.mapCursors (h : table.Sound) (file : FileId) (move : Cursor → Cursor) :
    (table.mapCursors file move).Sound :=
  h.congr Array.size_map rfl rfl (table.file_mapCursors file move)

end DescriptorTable

end Filestore
