import Filestore.Flat
import Filestore.Proofs.File.Extent
import Filestore.Proofs.Store.Edited
import Filestore.Store.Resize

/-!
# `Filestore.Proofs.Store.Resize`: what setting a size does to a store

A resize to an allowed size keeps the first bytes of the file and appends zeros, and takes every
cursor that is past the new end back to it (`Sound.resize_spec`). Where the file gets longer, no
cursor moves (`Sound.lengthen_spec`); where it gets shorter, each is found again at its position
(`Sound.shorten_spec`).

Both are stated with `FlatStore.resized`, which is what happens to a byte string, and with `min
place newSize`, which is what happens to a position; where the file gets longer the latter is the
position itself. So a caller of `Sound.resize_spec` need not know which way the size goes.

`stands_relocated` and `settled_relocated` are about the cursors of a file that gets shorter. A
position between two blocks could be found in either of them, and it is found in the earlier one,
which keeps cursors away from blocks that may be cut off next.
-/

set_option autoImplicit false

namespace Filestore

namespace Store

variable {store : Store} {fd : Nat} {descriptor : Descriptor} {file : File} {id : FileId}

/-- A size is allowed just when the settings admit it: there is no limit, or it is not past it. -/
theorem allows_iff {size : Nat} : store.allows size = true ↔ store.config.Admits size := by
  unfold allows Config.Admits
  cases store.config.sizeLimit with
  | none => simp
  | some limit => simp

/-- A file that gets longer keeps its bytes, with zeros after them, and its cursors stay. Below
the limit this does not fail. -/
theorem Sound.lengthen_spec (h : store.Sound) (hfile : store.file? id = some file) {newSize : Nat}
    (hadmits : store.config.Admits newSize) (hle : file.size ≤ newSize) :
    (store.lengthen id file (newSize - file.size)).1 = .ok () ∧
      (store.lengthen id file (newSize - file.size)).2.lastError = .noError ∧
      Edited store (store.lengthen id file (newSize - file.size)).2 id
        (FlatStore.resized (store.chainOf id).contents newSize)
        fun _ place => min place newSize := by
  have hspans := h.spans hfile
  obtain ⟨chain, hok, hedit, hcontents, hids, hpacked⟩ := hspans.extendZeros
    store.config.blockSize_pos store.config.blockSize_le_maxBuffer (h.storage.packed id)
    (newSize - file.size)
  have hbytes : chain.contents = FlatStore.resized (store.chainOf id).contents newSize := by
    rw [hcontents, FlatStore.resized, List.take_of_length_le (hspans.size_eq ▸ hle), hspans.size_eq]
  have hlength : chain.contents.length = newSize := by
    rw [hcontents, List.length_append, List.length_replicate, ← hspans.size_eq]
    omega
  rw [← hbytes]
  refine ⟨hok, congrArg resultKind hok,
    (h.edit hfile hedit hpacked ?_ h.table ?_ (fun _ _ _ _ => rfl) ?_).with_lastError _⟩
  · rwa [hedit.spans.size_eq, hlength]
  · intro other
    show store.descriptors.get? other = (store.descriptors.get? other).map fun bound => bound
    exact Option.map_id'.symm
  · -- No position is past the old end, so taking it down to the new size changes nothing.
    intro other bound place _ _ hstands hsettled
    have hplace := hstands.le_length
    rw [← hspans.size_eq] at hplace
    rw [Nat.min_eq_left (Nat.le_trans hplace hle)]
    refine ⟨hstands.extend (h.storage.packed id).toUniform hpacked.toUniform hids ?_,
      hsettled.extend hids⟩
    rw [hlength, ← hspans.size_eq]
    exact hle

/-- A cursor is found again at its position, or at the new end where it is past it. One that is
not set stays so and stands at the start. -/
theorem stands_relocated {before after : Chain} {cursor : Cursor} {place newSize : Nat}
    (hstands : before.Stands cursor place) (hnodup : before.ids.Nodup)
    (hlength : after.contents.length = newSize) :
    after.Stands (relocated before after newSize cursor) (min place newSize) := by
  have hposition := hstands.position_eq hnodup
  -- An unset cursor is not looked up again, and any other one is looked up at its position.
  cases hstands with
  | unset =>
    rw [Nat.zero_min]
    exact .unset
  | @inBlock front back id block offset hchain hoffset =>
    have hlocate := Chain.stands_locate after (min (front.contents.length + offset) newSize)
    rw [hlength, Nat.min_assoc, Nat.min_self] at hlocate
    show after.Stands (after.locate (min ((before.position _).getD 0) newSize)) _
    rw [hposition]
    exact hlocate

/-- A cursor that is found again is settled: looking for a position never gives the start of a
block other than the first. -/
theorem settled_relocated {after : Chain} (hfilled : ∀ entry ∈ after, 0 < entry.2.occupied)
    (before : Chain) (newSize : Nat) (cursor : Cursor) :
    after.Settled (relocated before after newSize cursor) := by
  unfold relocated
  split
  · exact Chain.settled_unset after
  · exact Chain.settled_locate hfilled _

/-- A file that gets shorter keeps its first bytes, and the cursors past the new end go there,
whatever descriptor they belong to. -/
theorem Sound.shorten_spec (h : store.Sound) (hfile : store.file? id = some file) {newSize : Nat}
    (hlt : newSize < file.size) :
    (store.shorten id file newSize).1 = .ok () ∧
      (store.shorten id file newSize).2.lastError = .noError ∧
      Edited store (store.shorten id file newSize).2 id
        (FlatStore.resized (store.chainOf id).contents newSize)
        fun _ place => min place newSize := by
  have hspans := h.spans hfile
  obtain ⟨chain, hok, hedit, hcontents, -, hkeeps⟩ := hspans.truncate newSize
  have hpacked := hkeeps _ (h.storage.packed id)
  have hsize := hspans.size_eq
  have hbytes : chain.contents = FlatStore.resized (store.chainOf id).contents newSize := by
    rw [hcontents, FlatStore.resized, Nat.sub_eq_zero_of_le (by omega), List.replicate_zero,
      List.append_nil]
  have hlength : chain.contents.length = newSize := by
    rw [hcontents, List.length_take]
    omega
  -- The cursors are taken from the chain before the cut to the one after it.
  have hbefore : file.chain store.blocks = store.chainOf id := (chainOf_eq hfile).symm
  have hafter := hedit.spans.chain_eq
  have hwithin : store.config.Admits (file.truncate store.blocks newSize).2.1.size := by
    rw [hedit.spans.size_eq, hlength]
    exact (h.storage.within id file hfile).of_le (Nat.le_of_lt hlt)
  have hedited : Edited store
      { store with
        blocks := (file.truncate store.blocks newSize).2.2
        catalog := store.catalog.set id (file.truncate store.blocks newSize).2.1
        descriptors := store.descriptors.mapCursors id
          (relocated (store.chainOf id) chain newSize) }
      id chain.contents fun _ place => min place newSize := by
    refine h.edit hfile hedit hpacked hwithin (h.table.mapCursors id _)
      (store.descriptors.get?_mapCursors id _) (fun _ _ _ hne => if_neg hne)
      fun other bound place _ hid hstands _ => ?_
    rw [if_pos hid]
    exact ⟨stands_relocated hstands hspans.nodup hlength, settled_relocated hpacked.filled _ _ _⟩
  rw [← hbytes]
  unfold shorten
  generalize file.truncate store.blocks newSize = truncated at hok hafter hedited ⊢
  obtain ⟨result, shorter, blocks⟩ := truncated
  cases hok
  simp only [hbefore, hafter]
  exact ⟨rfl, rfl, hedited.with_lastError _⟩

/-- A resize to an allowed size keeps the first bytes and appends zeros, and no cursor stays past
the end. A resize to any other size is refused. -/
theorem Sound.resize_spec (h : store.Sound) (hget : store.descriptors.get? fd = some descriptor)
    (hfile : store.file? descriptor.file = some file) (newSize : Nat) :
    ¬ store.config.Admits newSize ∧
        store.resize fd newSize
          = store.conclude (.error (.fileTooLarge file.name (store.config.sizeLimit.getD 0))) ∨
      store.config.Admits newSize ∧ (store.resize fd newSize).1 = .ok () ∧
        (store.resize fd newSize).2.lastError = .noError ∧
        Edited store (store.resize fd newSize).2 descriptor.file
          (FlatStore.resized (store.chainOf descriptor.file).contents newSize)
          fun _ place => min place newSize := by
  simp only [resize, opened_eq hget hfile]
  by_cases hallows : store.allows newSize = true
  · right
    have hadmits := allows_iff.mp hallows
    rw [if_pos hallows]
    split
    · rename_i hle
      exact ⟨hadmits, h.lengthen_spec hfile hadmits hle⟩
    · rename_i hlt
      exact ⟨hadmits, h.shorten_spec hfile (Nat.lt_of_not_le hlt)⟩
  · left
    exact ⟨mt allows_iff.mpr hallows, if_neg hallows⟩

end Store

end Filestore
