import Filestore.Proofs.Store.Edited
import Filestore.Proofs.Stream.Read
import Filestore.Proofs.Stream.Write
import Filestore.Store.Transfer

/-!
# `Filestore.Proofs.Store.Transfer`: what writes, reads and rewinds do to a store

Each of them works on the stream of one descriptor and puts it back (`Sound.putStream`). A write
stores the bytes that the size limit admits (`Sound.write_spec`), a read gives the bytes there are
(`Sound.read_spec`), a rewind goes to the start (`Sound.rewind_spec`); the other descriptors on
the file stay where they are.

What happens to the stream is known from `Filestore.Proofs.Stream.Write` and
`Filestore.Proofs.Stream.Read`. Here it is put into the words of the whole store: an `Edited`
store with the new contents, in which the descriptor of the stream goes past the bytes and the
others stay. That the others stay needs an argument where blocks are appended, because a cursor at
the end of what was the last block now has a block after it. It stands at the same position all
the same.
-/

set_option autoImplicit false

namespace Filestore

namespace Store

variable {store : Store} {fd pos : Nat} {descriptor : Descriptor} {file : File}

/-- The stream of a descriptor is at rest between calls: its file is packed and within the limit,
and its cursor stands in it, settled. -/
theorem Sound.resting (h : store.Sound) (hget : store.descriptors.get? fd = some descriptor)
    (hfile : store.file? descriptor.file = some file)
    (hstands : (store.chainOf descriptor.file).Stands descriptor.cursor pos) :
    Stream.Resting store.config ⟨file, store.blocks, descriptor.cursor⟩
      (store.chainOf descriptor.file) pos :=
  ⟨h.spans hfile, h.storage.packed _, h.storage.within _ file hfile, hstands,
    (h.accounts descriptor.file).settled fd descriptor hget rfl⟩

/-- A stream that was transferred through and is at rest again is put back. Its descriptor goes to
the new position, and the cursors of the others stand where they stood in the longer chain. -/
theorem Sound.putStream (h : store.Sound) (hget : store.descriptors.get? fd = some descriptor)
    (hfile : store.file? descriptor.file = some file) {stream : Stream} {chain : Chain}
    (hresting : stream.Resting store.config chain pos)
    (hedit : file.Edit store.blocks (store.chainOf descriptor.file) stream.file stream.blocks chain)
    (hids : (store.chainOf descriptor.file).ids <+: chain.ids)
    (hlength : (store.chainOf descriptor.file).contents.length ≤ chain.contents.length) :
    Edited store (store.putStream fd descriptor.file stream) descriptor.file chain.contents
      fun other place => if other = fd then pos else place := by
  refine h.edit hfile hedit hresting.packed hresting.within (h.table.setCursor fd stream.cursor)
    (store.descriptors.get?_setCursor fd stream.cursor) (fun other bound hbound hne => ?_)
    fun other bound place hbound hid hstands hsettled => ?_
  · -- The descriptor of the stream is open on this file, so it is not one of another.
    refine if_neg ?_
    rintro rfl
    cases hget.symm.trans hbound
    exact hne rfl
  · by_cases heq : other = fd
    · rw [if_pos heq, if_pos heq]
      exact ⟨hresting.stands, hresting.settled⟩
    · rw [if_neg heq, if_neg heq]
      exact ⟨hstands.extend (h.storage.packed _).toUniform hresting.packed.toUniform hids hlength,
        hsettled.extend hids⟩

/-- A descriptor's cursor goes elsewhere in its file, and nothing else changes. -/
theorem Sound.setCursor (h : store.Sound) (hget : store.descriptors.get? fd = some descriptor)
    {cursor : Cursor} (hstands : (store.chainOf descriptor.file).Stands cursor pos)
    (hsettled : (store.chainOf descriptor.file).Settled cursor) :
    Edited store { store with descriptors := store.descriptors.setCursor fd cursor }
      descriptor.file (store.chainOf descriptor.file).contents
      fun other place => if other = fd then pos else place := by
  obtain ⟨file, hfile⟩ := h.exists_file hget
  have hresting : Stream.Resting store.config ⟨file, store.blocks, cursor⟩
      (store.chainOf descriptor.file) pos :=
    ⟨h.spans hfile, h.storage.packed _, h.storage.within _ file hfile, hstands, hsettled⟩
  have hput := h.putStream hget hfile hresting (h.spans hfile).edit_self (List.prefix_refl _)
    (Nat.le_refl _)
  -- Putting the stream back replaces the file by itself.
  have hset : store.catalog.set descriptor.file file = store.catalog := by
    rw [Catalog.set, Slab.set_get? hfile]
  unfold Store.putStream at hput
  rwa [hset] at hput

/-- A store in which a descriptor stays where it is was edited so that it goes to its own
position. -/
theorem Sound.edited_self (h : store.Sound) (hget : store.descriptors.get? fd = some descriptor)
    (hstands : (store.chainOf descriptor.file).Stands descriptor.cursor pos) :
    Edited store store descriptor.file (store.chainOf descriptor.file).contents
      fun other place => if other = fd then pos else place where
  sound := h
  config_eq := rfl
  elsewhere := ⟨fun _ _ => rfl, fun _ _ => rfl, fun _ _ _ => Iff.rfl, fun _ _ _ => Iff.rfl⟩
  file file hfile := ⟨file, hfile, rfl, rfl⟩
  contents := rfl
  file_eq _ := rfl
  moved other bound place hbound hid hplace := by
    refine ⟨bound, hbound, hid, ?_⟩
    split
    · rename_i heq
      cases (heq ▸ hget).symm.trans hbound
      exact hstands
    · exact hplace

/-- A write to an open descriptor stores the bytes that the limit admits, past its position. It is
refused where that is none of some bytes, and remembered as too large where it is not all of
them. -/
theorem Sound.write_spec (h : store.Sound) (hget : store.descriptors.get? fd = some descriptor)
    (hfile : store.file? descriptor.file = some file)
    (hstands : (store.chainOf descriptor.file).Stands descriptor.cursor pos) (data : Bytes) :
    ∃ count, count = store.config.admitted pos data.length ∧
      (store.write fd data).1 = (if count = 0 ∧ data ≠ [] then
        .error (.fileTooLarge file.name (store.config.sizeLimit.getD 0)) else .ok count) ∧
      (store.write fd data).2.lastError =
        (if count < data.length then .fileTooLarge else .noError) ∧
      Edited store (store.write fd data).2 descriptor.file
        ((store.chainOf descriptor.file).contents.splice pos (data.take count))
        fun other place => if other = fd then pos + count else place := by
  simp only [Store.write, opened_eq hget hfile]
  by_cases hdata : data = []
  · subst hdata
    refine ⟨0, (Nat.le_zero.mp (store.config.admitted_le pos 0)).symm, ?_, rfl, ?_⟩
    · simp [conclude]
    · simp only [List.take_nil, Bytes.splice_nil]
      exact (h.edited_self hget hstands).with_lastError _
  · simp only [List.isEmpty_eq_false_iff.mpr hdata, Bool.false_eq_true, if_false]
    have hresting := h.resting hget hfile hstands
    have hcomplete := hresting.write_complete hdata fd
    generalize Stream.write store.config fd data ⟨file, store.blocks, descriptor.cursor⟩ = written
      at hcomplete ⊢
    obtain ⟨chain, hedit, hids, hcontents, hrest⟩ := hcomplete.resting hresting
    have hlength : (store.chainOf descriptor.file).contents.length ≤ chain.contents.length := by
      rw [hcontents, Bytes.length_splice hstands.le_length]
      exact Nat.le_max_left _ _
    have hput := h.putStream hget hfile hrest hedit hids hlength
    rw [hcontents] at hput
    -- Whether the write complains depends on the count, and whether the complaint is the answer
    -- depends on whether the count is zero.
    have herror := hcomplete.error_eq
    refine ⟨written.count, hcomplete.count_eq, ?_⟩
    by_cases hless : written.count < data.length
    · rw [if_pos hless] at herror
      rw [herror, if_pos hless]
      by_cases hzero : written.count = 0
      · rw [if_pos ⟨hzero, hdata⟩]
        simp only [hzero, if_true]
        refine ⟨rfl, rfl, ?_⟩
        simp only [hzero] at hput
        exact hput.with_lastError _
      · rw [if_neg fun hboth => hzero hboth.1]
        simp only [hzero, if_false]
        exact ⟨trivial, rfl, hput.with_lastError _⟩
    · rw [if_neg hless] at herror
      have hsome : ¬ (written.count = 0 ∧ data ≠ []) := by
        rintro ⟨hzero, -⟩
        exact hless (hzero ▸ List.length_pos_iff.mpr hdata)
      rw [herror, if_neg hless, if_neg hsome]
      exact ⟨rfl, rfl, hput.with_lastError _⟩

/-- A read from an open descriptor gives the bytes at its position, as many as are asked for or as
there are, and goes past them. It never fails. -/
theorem Sound.read_spec (h : store.Sound) (hget : store.descriptors.get? fd = some descriptor)
    (hstands : (store.chainOf descriptor.file).Stands descriptor.cursor pos) (want : Nat) :
    ∃ bytes, bytes = ((store.chainOf descriptor.file).contents.drop pos).take want ∧
      (store.read fd want).1 = .ok bytes ∧ (store.read fd want).2.lastError = .noError ∧
      Edited store (store.read fd want).2 descriptor.file (store.chainOf descriptor.file).contents
        fun other place => if other = fd then pos + bytes.length else place := by
  obtain ⟨file, hfile⟩ := h.exists_file hget
  obtain ⟨next, hread, hnext⟩ := (h.resting hget hfile hstands).read_spec fd want
  simp only [Store.read, opened_eq hget hfile, hread]
  exact ⟨_, rfl, rfl, rfl, (h.setCursor hget hnext.stands hnext.settled).with_lastError _⟩

/-- A rewind of an open descriptor goes to the start, and leaves the other descriptors where they
are. -/
theorem Sound.rewind_spec (h : store.Sound) (hget : store.descriptors.get? fd = some descriptor) :
    (store.rewind fd).1 = .ok () ∧ (store.rewind fd).2.lastError = .noError ∧
      Edited store (store.rewind fd).2 descriptor.file (store.chainOf descriptor.file).contents
        fun other place => if other = fd then 0 else place := by
  simp only [Store.rewind, DescriptorTable.get, hget]
  exact ⟨rfl, rfl, (h.setCursor hget .unset (Chain.settled_unset _)).with_lastError _⟩

end Store

end Filestore
