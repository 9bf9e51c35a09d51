import Filestore.Proofs.Store.Reachable
import Mathlib.Algebra.GroupWithZero.Nat

/-!
# `Filestore.Proofs.Store.ReadUpTo`: a read into a buffer no longer than the file

`Store.readUpTo` never asks for more bytes than the whole file has, wherever its cursor stands.
`Reachable.readUpTo_eq_read` says that nobody can tell: what the call gives and the store it
leaves are those of `Store.read` for the number of bytes that was asked for. The stream's part of
this is `Stream.Resting.read_min_size`: a read that is asked for more bytes than the file has ends
at the end of the file, and its cursor is there whether or not it was asked for still more.

The two could differ in the cursor, as a read that has all the bytes it wants stops in the block
of the last one, and a read that wants more looks for a next block. It finds none at the end of
the file, and elsewhere it copies a byte from it.

The file is taken to be shorter than the longest buffer there can be. A longer one could not be
read into one buffer at all.
-/

set_option autoImplicit false

namespace Filestore

namespace Store

variable {config : Config} {store : Store}

/-- Reading up to a number of bytes is reading that number of bytes: the same bytes or the same
error, and the same store afterwards. -/
theorem Reachable.readUpTo_eq_read (h : Reachable config store) (fd most : Nat)
    (hsize : ∀ descriptor file, store.opened fd = .ok (descriptor, file) → file.size < 2 ^ 63) :
    store.readUpTo fd most = store.read fd most := by
  rcases h.sound.opened_cases fd with ⟨-, hopened⟩ | ⟨descriptor, file, hget, hfile, hopened⟩
  · simp only [readUpTo, read, hopened]
  · obtain ⟨pos, hstands⟩ := h.sound.exists_stands hget
    have hfits : min file.size most ≤ Block.maxBuffer := by
      have hlt := hsize descriptor file hopened
      unfold Block.maxBuffer
      omega
    have hread := (h.sound.resting hget hfile hstands).read_min_size fd most
    simp only [readUpTo, read, hopened, if_pos hfits, hread]

/-- At the end of a full block, more bytes are asked for than there are. -/
theorem readUpTo_eq_read_between_blocks :
    let config : Config := ⟨4, none, by decide, by decide⟩
    let store := ((empty config).performAll
      [.openFile "a" true, .write 0 [1, 2, 3, 4, 5, 6], .rewind 0, .readUpTo 0 4]).2
    Reachable config store ∧
      store.descriptors.get? 0 = some ⟨⟨0, 0⟩, Cursor.inBlock ⟨0, 0⟩ 4⟩ ∧
      store.readUpTo 0 (2 ^ 64 - 1) = store.read 0 (2 ^ 64 - 1) ∧
      (store.readUpTo 0 (2 ^ 64 - 1)).1.toOption = some [5, 6] := by
  intro config store
  have h : Reachable config store := reachable_iff_exists_performAll.mpr ⟨_, rfl⟩
  have hget : store.descriptors.get? 0 = some ⟨⟨0, 0⟩, Cursor.inBlock ⟨0, 0⟩ 4⟩ := by decide
  have hfile : store.file? ⟨0, 0⟩ = some ⟨"a", some ⟨0, 0⟩, some ⟨1, 0⟩, 1, false, 6, 2⟩ := by
    decide
  refine ⟨h, hget, h.readUpTo_eq_read 0 (2 ^ 64 - 1) ?_, by decide⟩
  intro descriptor file heq
  cases (opened_eq hget hfile).symm.trans heq
  decide

end Store

end Filestore
