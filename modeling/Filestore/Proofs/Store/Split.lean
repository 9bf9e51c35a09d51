import Filestore.Proofs.Store.Atomic
import Filestore.Proofs.Stream.Split

/-!
# `Filestore.Proofs.Store.Split`: writing at once and in pieces

Bytes that are written in pieces lead to the same store as bytes that are written at once, if a
piece that is short, or fails, is the last one that is tried. The stores are the same one to the
last detail: the slots of the storage with its free list, the cursor, and the outcome that is
remembered.
A later piece that is refused for good is part of a short write of them all, and both are remembered
for what the limit refused.

`Sound.write_append_of_full` and `Sound.write_append_of_short` carry the two halves of this from the
stream of a descriptor to the store, and `Reachable.write_pieces` is the main result.
-/

set_option autoImplicit false

namespace Filestore

/-- What the call that wrote answers. -/
def Stream.Written.answer (written : Stream.Written) : Except Error Nat :=
  match written.error with
  | none => .ok written.count
  | some e => if written.count = 0 then .error e else .ok written.count

/-- What is remembered of the call that wrote. -/
def Stream.Written.kind (written : Stream.Written) : ErrorKind :=
  match written.error with
  | none => .noError
  | some e => e.kind

/-- How many bytes a call stored that has answered so. -/
def stored : Except Error Nat → Nat
  | .ok count => count
  | .error _ => 0

/-- The answer counts the bytes that were stored. -/
theorem Stream.Written.stored_answer (written : Stream.Written) :
    stored written.answer = written.count := by
  cases herror : written.error with
  | none => simp only [answer, herror, stored]
  | some e =>
    simp only [answer, herror]
    split
    · rename_i hzero
      rw [hzero, stored]
    · rw [stored]

/-- A write after `count` bytes that were stored before has not failed if it stored none. -/
theorem Stream.Written.answer_add {count : Nat} (hpos : 0 < count) (written : Stream.Written) :
    Stream.Written.answer { written with count := count + written.count }
      = .ok (count + stored written.answer) := by
  rw [stored_answer]
  obtain ⟨error, more, stream⟩ := written
  cases error with
  | none => rfl
  | some e => exact if_neg (show count + more ≠ 0 by omega)

section Complete

variable {config : Config} {stream : Stream} {chain : Chain} {pos : Nat} {data : Bytes}
  {written : Stream.Written}

/-- A call has stored all the bytes just when nothing ended the write before the last one. -/
theorem Stream.Written.Complete.answer_eq_ok_iff
    (h : written.Complete config stream chain pos data) :
    written.answer = .ok data.length ↔ written.error = none := by
  have herror := h.error_eq
  have hle := h.count_eq ▸ config.admitted_le pos data.length
  split at herror
  · rename_i hless
    refine iff_of_false ?_ (herror ▸ Option.some_ne_none _)
    simp only [answer, herror]
    split
    · exact fun hok => nomatch hok
    · exact fun hok => Nat.ne_of_lt hless (Except.ok.inj hok)
  · rename_i hall
    refine iff_of_true ?_ herror
    simp only [answer, herror]
    rw [Nat.le_antisymm hle (Nat.le_of_not_lt hall)]

end Complete

namespace Store

/-- Writes pieces one by one, until one of them is short or fails. -/
def writeEach (store : Store) (fd : Nat) : List Bytes → Store
  | [] => store
  | piece :: pieces =>
    match store.write fd piece with
    | (.ok count, next) => if count = piece.length then next.writeEach fd pieces else next
    | (.error _, next) => next

/-- The store after a write to a stream of it. -/
def wrote (store : Store) (fd : Nat) (id : FileId) (written : Stream.Written) : Store :=
  { store.putStream fd id written.stream with lastError := written.kind }

variable {config : Config} {store : Store} {fd : Nat} {descriptor : Descriptor} {file : File}
  {data piece : Bytes} {pieces : List Bytes} {written : Stream.Written}

/-- A write through an open descriptor is one to its stream, which is put back. -/
theorem write_eq (hget : store.descriptors.get? fd = some descriptor)
    (hfile : store.file? descriptor.file = some file) (hdata : data ≠ [])
    (hwritten : Stream.write store.config fd data ⟨file, store.blocks, descriptor.cursor⟩
      = written) :
    store.write fd data = (written.answer, store.wrote fd descriptor.file written) := by
  simp only [Store.write, opened_eq hget hfile, List.isEmpty_eq_false_iff.mpr hdata,
    Bool.false_eq_true, if_false, hwritten, wrote, Stream.Written.answer, Stream.Written.kind]
  cases written.error with
  | none => rfl
  | some e =>
    by_cases hzero : written.count = 0
    · simp only [if_pos hzero]
      rfl
    · simp only [if_neg hzero]

/-- A write of nothing through an open descriptor does nothing. -/
theorem write_nil (hget : store.descriptors.get? fd = some descriptor)
    (hfile : store.file? descriptor.file = some file) :
    store.write fd [] = (.ok 0, { store with lastError := .noError }) := by
  simp only [Store.write, opened_eq hget hfile, List.isEmpty_nil, if_true]
  rfl

/-- What a write through an open descriptor did to its stream, be there bytes or none. -/
theorem Sound.exists_written (h : store.Sound) (hget : store.descriptors.get? fd = some descriptor)
    (hfile : store.file? descriptor.file = some file) {pos : Nat}
    (hstands : (store.chainOf descriptor.file).Stands descriptor.cursor pos) (data : Bytes) :
    ∃ written : Stream.Written,
      written.Complete store.config ⟨file, store.blocks, descriptor.cursor⟩
        (store.chainOf descriptor.file) pos data ∧
      store.write fd data = (written.answer, store.wrote fd descriptor.file written) := by
  have hresting := h.resting hget hfile hstands
  by_cases hdata : data = []
  · subst hdata
    refine ⟨_, hresting.ready.complete_nil, ?_⟩
    rw [write_nil hget hfile, wrote, putStream_self hget hfile]
    rfl
  · exact ⟨_, hresting.write_complete hdata fd, write_eq hget hfile hdata rfl⟩

/-- After a write was put back, its number has the same descriptor with the cursor of the stream. -/
theorem get?_wrote (hget : store.descriptors.get? fd = some descriptor) (id : FileId)
    (written : Stream.Written) :
    (store.wrote fd id written).descriptors.get? fd
      = some { descriptor with cursor := written.stream.cursor } :=
  DescriptorTable.get?_setCursor_self hget written.stream.cursor

/-- After a write was put back, the handle of its file denotes the file of the stream. -/
theorem file?_wrote {id : FileId} (hfile : store.file? id = some file)
    (written : Stream.Written) :
    (store.wrote fd id written).file? id = some written.stream.file :=
  Slab.get?_set_self hfile written.stream.file

/-- The next write to the stream starts where this one ended, and it is put back over it. -/
theorem write_wrote (hget : store.descriptors.get? fd = some descriptor)
    (hfile : store.file? descriptor.file = some file) (hdata : data ≠ []) {last : Stream.Written}
    (hlast : Stream.write store.config fd data written.stream = last) :
    (store.wrote fd descriptor.file written).write fd data
      = (last.answer, store.wrote fd descriptor.file last) := by
  rw [write_eq (get?_wrote hget descriptor.file written) (file?_wrote hfile written) hdata hlast]
  simp only [wrote, putStream, Catalog.set, Slab.set_set,
    DescriptorTable.setCursor_setCursor hget]

/-- Where a write stored all its bytes, a write of these and more is that write and a write of the
others. -/
theorem Sound.write_append_of_full (h : store.Sound) (hdata : data ≠ [])
    (hfull : (store.write fd data).1 = .ok data.length) (more : Bytes) :
    store.write fd (data ++ more) =
      (.ok (data.length + stored ((store.write fd data).2.write fd more).1),
        ((store.write fd data).2.write fd more).2) := by
  rcases h.opened_cases fd with ⟨-, hopened⟩ | ⟨descriptor, file, hget, hfile, -⟩
  · simp only [Store.write, hopened] at hfull
    cases hfull
  obtain ⟨pos, hstands⟩ := h.exists_stands hget
  have hresting := h.resting hget hfile hstands
  have hcomplete := hresting.write_complete hdata fd
  have happend := hresting.write_append_of_full hdata fd
  generalize hwritten : Stream.write store.config fd data ⟨file, store.blocks, descriptor.cursor⟩
    = written at hcomplete happend
  have hwrite := write_eq hget hfile hdata hwritten
  rw [hwrite] at hfull ⊢
  replace hfull : written.answer = .ok data.length := hfull
  have herror := hcomplete.answer_eq_ok_iff.mp hfull
  by_cases hmore : more = []
  · -- The second write only says that all is well, which the first one has said.
    subst hmore
    have hkind : { store.wrote fd descriptor.file written with lastError := .noError }
        = store.wrote fd descriptor.file written := by
      rw [wrote, Stream.Written.kind, herror]
    rw [List.append_nil, hwrite, hfull,
      write_nil (get?_wrote hget descriptor.file written) (file?_wrote hfile written), hkind]
    rfl
  · rw [write_eq hget hfile (List.append_ne_nil_of_left_ne_nil hdata more) (happend herror more),
      write_wrote hget hfile hmore rfl, Stream.Written.answer_add (List.length_pos_iff.mpr hdata)]
    rfl

/-- A write that is short or fails does not look at what comes after its bytes. -/
theorem Sound.write_append_of_short (h : store.Sound) (hdata : data ≠ [])
    (hshort : (store.write fd data).1 ≠ .ok data.length) (more : Bytes) :
    store.write fd (data ++ more) = store.write fd data := by
  rcases h.opened_cases fd with ⟨-, hopened⟩ | ⟨descriptor, file, hget, hfile, -⟩
  · simp only [Store.write, hopened]
  obtain ⟨pos, hstands⟩ := h.exists_stands hget
  have hresting := h.resting hget hfile hstands
  have hwrite := write_eq hget hfile hdata rfl
  rw [hwrite] at hshort ⊢
  have herror := mt (hresting.write_complete hdata fd).answer_eq_ok_iff.mpr hshort
  exact write_eq hget hfile (List.append_ne_nil_of_left_ne_nil hdata more)
    (hresting.write_append_of_short herror more)

/-- Where the first piece is stored in full, the others are written to the store that it leaves. -/
theorem writeEach_cons_of_full (hfull : (store.write fd piece).1 = .ok piece.length)
    (pieces : List Bytes) :
    store.writeEach fd (piece :: pieces) = (store.write fd piece).2.writeEach fd pieces := by
  rw [writeEach]
  generalize store.write fd piece = outcome at hfull
  obtain ⟨result, next⟩ := outcome
  cases hfull
  exact if_pos rfl

/-- Where the first piece is short or refused, the others are not tried. -/
theorem writeEach_cons_of_short (hshort : (store.write fd piece).1 ≠ .ok piece.length)
    (pieces : List Bytes) :
    store.writeEach fd (piece :: pieces) = (store.write fd piece).2 := by
  rw [writeEach]
  generalize store.write fd piece = outcome at hshort
  obtain ⟨result, next⟩ := outcome
  cases result with
  | error _ => rfl
  | ok count => exact if_neg fun heq => hshort (congrArg Except.ok heq)

/-- Pieces written one by one lead where the write of all their bytes leads. -/
theorem Sound.writeEach_eq (h : store.Sound) (fd : Nat) (hne : pieces ≠ [])
    (hpieces : ∀ piece ∈ pieces, piece ≠ []) :
    store.writeEach fd pieces = (store.write fd pieces.flatten).2 := by
  induction pieces generalizing store with
  | nil => exact absurd rfl hne
  | cons piece pieces ih =>
    obtain ⟨hpiece, hrest⟩ := List.forall_mem_cons.mp hpieces
    rw [List.flatten_cons]
    by_cases hfull : (store.write fd piece).1 = .ok piece.length
    · rw [writeEach_cons_of_full hfull]
      by_cases hlast : pieces = []
      · rw [hlast, List.flatten_nil, List.append_nil, writeEach]
      · rw [h.write_append_of_full hpiece hfull]
        exact ih (h.continues_write fd piece).sound hlast hrest
    · rw [h.write_append_of_short hpiece hfull, writeEach_cons_of_short hfull]

/-- Writing in pieces leads to the same store, to the last detail, as writing at once.

Where a write stored all of some bytes, a write of these and more stores as many more as a second
write would, and leaves the store that one leaves, whether or not it is refused. Where a write was
short, or failed, a write of these bytes and more is that write. So pieces written one by one, until
one is short or fails, lead where one write of all of them leads. -/
theorem Reachable.write_pieces (h : Reachable config store) (fd : Nat) :
    (∀ data more, data ≠ [] →
      ((store.write fd data).1 = .ok data.length →
        store.write fd (data ++ more) =
          (.ok (data.length + stored ((store.write fd data).2.write fd more).1),
            ((store.write fd data).2.write fd more).2)) ∧
      ((store.write fd data).1 ≠ .ok data.length →
        store.write fd (data ++ more) = store.write fd data)) ∧
    ∀ pieces, pieces ≠ [] → (∀ piece ∈ pieces, piece ≠ []) →
      store.writeEach fd pieces = (store.write fd pieces.flatten).2 :=
  ⟨fun _ more hdata => ⟨fun hfull => h.sound.write_append_of_full hdata hfull more,
    fun hshort => h.sound.write_append_of_short hdata hshort more⟩,
    fun _ hne hpieces => h.sound.writeEach_eq fd hne hpieces⟩

/-- The first piece ends at the end of a block, and the second one at the limit. The third one is
refused for good, and the fourth one is not tried. -/
theorem write_pieces_refused :
    let config : Config := ⟨4, some 6, by decide, by decide⟩
    let store := ((empty config).performAll [.openFile "a" true]).2
    Reachable config store ∧
      (store.write 0 [1, 2, 3, 4]).1 = .ok 4 ∧
      (((store.write 0 [1, 2, 3, 4]).2.write 0 [5, 6]).2.write 0 [7]).1
        = .error (.fileTooLarge "a" 6) ∧
      store.write 0 [1, 2, 3, 4, 5, 6, 7, 8]
        = (.ok 6, ((store.write 0 [1, 2, 3, 4]).2.write 0 [5, 6, 7, 8]).2) ∧
      (store.write 0 [1, 2, 3, 4, 5, 6, 7, 8]).1 ≠ .ok 8 ∧
      store.write 0 [1, 2, 3, 4, 5, 6, 7, 8, 9] = store.write 0 [1, 2, 3, 4, 5, 6, 7, 8] ∧
      store.writeEach 0 [[1, 2, 3, 4], [5, 6], [7], [8]]
        = (store.write 0 [1, 2, 3, 4, 5, 6, 7, 8]).2 := by
  intro config store
  have h : Reachable config store := reachable_iff_exists_performAll.mpr ⟨_, rfl⟩
  obtain ⟨happend, hpieces⟩ := h.write_pieces 0
  have hfull : (store.write 0 [1, 2, 3, 4]).1 = .ok 4 := by decide
  have hshort : (store.write 0 [1, 2, 3, 4, 5, 6, 7, 8]).1 ≠ .ok 8 := by decide
  have hcount : stored ((store.write 0 [1, 2, 3, 4]).2.write 0 [5, 6, 7, 8]).1 = 2 := by decide
  refine ⟨h, hfull, by decide, ?_, hshort, ?_, ?_⟩
  · have hboth := (happend [1, 2, 3, 4] [5, 6, 7, 8] (by decide)).1 hfull
    rwa [hcount] at hboth
  · exact (happend [1, 2, 3, 4, 5, 6, 7, 8] [9] (by decide)).2 hshort
  · exact hpieces [[1, 2, 3, 4], [5, 6], [7], [8]] (by decide) (by decide)

end Store

end Filestore
