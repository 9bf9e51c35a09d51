import Filestore.Proofs.Store.Reachable
import Filestore.Proofs.Stream.Progress

/-!
# `Filestore.Proofs.Store.Progress`: no transfer goes on for ever

Calls leave the stream of every open descriptor at rest, wherever its cursor is, whatever the
limit is and whoever else is on the file. So the loops of a write and of a read through it get on
and end (`Reachable.transfers_end`). What the loops may do in a turn and how many turns they take
is said in `Filestore.Proofs.Stream.Progress`: every turn stores or copies a byte, or ends the
loop, or is followed at once by one that does.

The loops of the store have fuel, which is twice the number of bytes and two more. With more of it
they do just the same, so the fuel is no part of what they do; it is there because a definition
has to end for any storage whatever, also one whose links run in a circle. Here the links do not,
since the store is one that calls lead to.
-/

set_option autoImplicit false

namespace Filestore

namespace Store

variable {config : Config} {store : Store} {fd : Nat} {descriptor : Descriptor} {file : File}

/-- The loop of a write and the loop of a read through an open descriptor get on in every turn and
end, with what the write and the read give for their fuel. -/
theorem Reachable.transfers_end (h : Reachable config store)
    (hopened : store.opened fd = .ok (descriptor, file)) :
    let stream : Stream := ⟨file, store.blocks, descriptor.cursor⟩
    (∀ data started, stream.startWriting store.config = (.ok (), started) →
      Loop.Ends (Stream.Writing.turn store.config fd) (Stream.Writing.run store.config fd)
        (Stream.Writing.Progresses store.config fd) (2 * data.length + 2) ⟨0, data, started⟩
        (stream.write store.config fd data)) ∧
    (∀ want start, stream.startReading = some start →
      Loop.Ends (Stream.Reading.turn store.blocks fd) (Stream.Reading.run store.blocks fd)
        (Stream.Reading.Progresses file store.blocks fd) (2 * want + 2) ⟨want, [], start⟩
        (stream.read fd want)) := by
  intro stream
  rcases h.sound.opened_cases fd with ⟨-, hrefused⟩ | ⟨_, _, hget, hfile, hopen⟩
  · cases hopened.symm.trans hrefused
  · cases hopened.symm.trans hopen
    obtain ⟨pos, hstands⟩ := h.sound.exists_stands hget
    have hresting := h.sound.resting hget hfile hstands
    exact ⟨fun data _ hstart => hresting.write_ends fd data hstart,
      fun want _ hstart => hresting.read_ends fd want hstart⟩

/-- From the end of a full block, the write moves on, stores bytes up to the limit and is refused.
The read moves on, copies bytes and comes to the end of the file. -/
theorem transfers_end_between_blocks :
    let config : Config := ⟨4, some 8, by decide, by decide⟩
    let store := ((empty config).performAll
      [.openFile "a" true, .write 0 [1, 2, 3, 4, 5, 6], .rewind 0, .readUpTo 0 4]).2
    let file : File := ⟨"a", some ⟨0, 0⟩, some ⟨1, 0⟩, 1, false, 6, 2⟩
    let stream : Stream := ⟨file, store.blocks, Cursor.inBlock ⟨0, 0⟩ 4⟩
    Reachable config store ∧ store.opened 0 = .ok (⟨⟨0, 0⟩, stream.cursor⟩, file) ∧
      stream.startWriting store.config = (.ok (), stream) ∧
      stream.writeStep store.config 0 [7, 8, 9, 10, 11]
        = .moved { stream with cursor := Cursor.inBlock ⟨1, 0⟩ 0 } ∧
      Loop.Ends (Stream.Writing.turn store.config 0) (Stream.Writing.run store.config 0)
        (Stream.Writing.Progresses store.config 0) 12 ⟨0, [7, 8, 9, 10, 11], stream⟩
        (stream.write store.config 0 [7, 8, 9, 10, 11]) ∧
      (stream.write store.config 0 [7, 8, 9, 10, 11]).count = 4 ∧
      stream.startReading = some stream.cursor ∧
      Stream.readStep store.blocks 0 5 stream.cursor = .moved (Cursor.inBlock ⟨1, 0⟩ 0) ∧
      Loop.Ends (Stream.Reading.turn store.blocks 0) (Stream.Reading.run store.blocks 0)
        (Stream.Reading.Progresses file store.blocks 0) 12 ⟨5, [], stream.cursor⟩
        (stream.read 0 5) ∧
      (stream.read 0 5).1.toOption = some [5, 6] := by
  intro config store file stream
  have h : Reachable config store := reachable_iff_exists_performAll.mpr ⟨_, rfl⟩
  have hget : store.descriptors.get? 0 = some ⟨⟨0, 0⟩, stream.cursor⟩ := by decide
  have hfile : store.file? ⟨0, 0⟩ = some file := by decide
  have hopened := opened_eq hget hfile
  obtain ⟨hwrite, hread⟩ := h.transfers_end hopened
  exact ⟨h, hopened, rfl, by decide, hwrite [7, 8, 9, 10, 11] stream rfl, by decide, rfl,
    by decide, hread 5 stream.cursor rfl, by decide⟩

end Store

end Filestore
