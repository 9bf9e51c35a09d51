import Filestore.Proofs.Checked.Store

/-!
# `Filestore.Proofs.Store.Handles`: every handle that is kept is good

A store keeps handles of files by name and by descriptor, and handles of blocks in files, in
blocks and in cursors. Nothing but the handle itself says whether it is still good, and a slot
that is given up is used again. `Store.HandlesLive` says that all of them are good, and that every
cursor is in the file of its descriptor.

`handlesLive_performAll` is the main result. In whatever store calls lead to, all handles are
good; so no call is answered with a stale handle, and none fails in a check of what it relies on.
Those checks are the ones of `Filestore.Proofs.Checked.Store`: every difference that must not be
negative, every sum that must stay in its word, every branch that must not be reached.

That no call answers with a stale handle is shown call by call. The spec lemma of a call lists all
its answers, and each of these lemmas goes through that list; `Sound.perform_ne_staleHandle` puts
them together.
-/

set_option autoImplicit false

namespace Filestore

namespace Store

/-- Every handle that is kept is good, and every cursor is in its file.

- `named`: a name leads to a file.
- `opened`: a descriptor leads to a file.
- `head`: a file leads to its first block.
- `tail`: a file leads to its last block.
- `prev`: a block leads to the one before it.
- `next`: a block leads to the one after it.
- `cursor`: a cursor leads to a block of the descriptor's file and is within it. It is past the
  start of the block, unless that is the first one. -/
structure HandlesLive (store : Store) : Prop where
  named : ∀ entry ∈ store.catalog.directory.entries,
    ∃ file, store.catalog.files.get? entry.2 = some file
  opened : ∀ fd descriptor, store.descriptors.get? fd = some descriptor →
    ∃ file, store.catalog.files.get? descriptor.file = some file
  head : ∀ id file key, store.catalog.files.get? id = some file → file.head = some key →
    ∃ block, store.blocks.get? key = some block
  tail : ∀ id file key, store.catalog.files.get? id = some file → file.tail = some key →
    ∃ block, store.blocks.get? key = some block
  prev : ∀ key block other, store.blocks.get? key = some block → block.prev = some other →
    ∃ before, store.blocks.get? other = some before
  next : ∀ key block other, store.blocks.get? key = some block → block.next = some other →
    ∃ after, store.blocks.get? other = some after
  cursor : ∀ fd descriptor file key, store.descriptors.get? fd = some descriptor →
    store.catalog.files.get? descriptor.file = some file → descriptor.cursor.block = some key →
    ∃ block, store.blocks.get? key = some block ∧ key ∈ (file.chain store.blocks).ids ∧
      descriptor.cursor.offset ≤ block.occupied ∧
      (1 ≤ descriptor.cursor.offset ∨ file.head = some key)

variable {store : Store}

/-- The handles of a file's blocks are good, since the file spans its chain and the blocks of a
chain that is spanned are in storage. -/
theorem Sound.exists_block (h : store.Sound) {id : FileId} {key : BlockId}
    (hkey : key ∈ (store.chainOf id).ids) : ∃ block, store.blocks.get? key = some block := by
  obtain ⟨entry, hentry, rfl⟩ := List.mem_map.mp hkey
  exact ⟨entry.2, h.storage.stored id entry hentry⟩

/-- A block in storage is in the chain of a file, because the files divide all the blocks among
them. -/
theorem Sound.exists_owner (h : store.Sound) {key : BlockId} {block : Block}
    (hblock : store.blocks.get? key = some block) :
    ∃ id file, store.file? id = some file ∧ (key, block) ∈ store.chainOf id := by
  obtain ⟨id, hkey⟩ := h.storage.owned key block hblock
  obtain ⟨⟨_, stored⟩, hentry, rfl⟩ := List.mem_map.mp hkey
  cases hblock.symm.trans (h.storage.stored id _ hentry)
  cases hfile : store.file? id with
  | some file => exact ⟨id, file, hfile, hentry⟩
  | none =>
    rw [chainOf_eq_nil hfile] at hentry
    cases hentry

/-- In a sound store, every handle that is kept is good. Each part is read off the accounts of a
file or the chain that it spans. -/
theorem Sound.handlesLive (h : store.Sound) : store.HandlesLive where
  named entry hentry := by
    have hname := (lookup_eq_some_iff_mem h.ascending.nodup).mpr hentry
    obtain ⟨file, hfile, -⟩ := h.exists_file_of_lookup hname
    exact ⟨file, hfile⟩
  opened _ _ hget := h.exists_file hget
  head id file key hfile hhead := by
    rcases (h.spans hfile).joined.start_mem with hnone | ⟨first, hfirst, heq⟩
    · cases hhead.symm.trans hnone
    · cases hhead.symm.trans heq
      exact h.exists_block hfirst
  tail id file key hfile htail := by
    obtain ⟨front, block, hchain⟩ :=
      Chain.eq_concat_of_lastId ((h.spans hfile).tail_eq.symm.trans htail)
    have hkey : key ∈ (store.chainOf id).ids := by
      rw [hchain, Chain.ids_append]
      exact List.mem_append_right _ List.mem_cons_self
    exact h.exists_block hkey
  prev key block other hblock hprev := by
    obtain ⟨id, file, hfile, hentry⟩ := h.exists_owner hblock
    rcases (h.spans hfile).joined.prev_mem hentry with hnone | ⟨before, hbefore, heq⟩
    · cases hprev.symm.trans hnone
    · cases hprev.symm.trans heq
      exact h.exists_block hbefore
  next key block other hblock hnext := by
    obtain ⟨id, file, hfile, hentry⟩ := h.exists_owner hblock
    rcases (h.spans hfile).joined.next_mem hentry with hnone | ⟨after, hafter, heq⟩
    · cases hnext.symm.trans hnone
    · cases hnext.symm.trans heq
      exact h.exists_block hafter
  cursor fd descriptor file key hget hfile hkey := by
    have hspans := h.spans hfile
    obtain ⟨pos, hstands⟩ := h.exists_stands hget
    obtain ⟨block, hentry, hoffset⟩ := hstands.exists_mem hkey
    rw [hspans.chain_eq]
    refine ⟨block, h.storage.stored descriptor.file _ hentry, Chain.mem_ids hentry, hoffset, ?_⟩
    -- A cursor at the start of a block is settled, so that block is the first of the file.
    rcases Nat.eq_zero_or_pos descriptor.cursor.offset with hzero | hpos
    · right
      have hfirst := (h.accounts descriptor.file).settled fd descriptor hget rfl key hkey hzero
      have hjoined := hspans.joined
      generalize store.chainOf descriptor.file = chain at hfirst hjoined
      cases chain with
      | nil => cases hfirst
      | cons entry rest => exact hjoined.1.trans hfirst
    · exact .inl hpos

/-- An open descriptor leads to its file, so looking a number up never gives a stale handle. It is
open or it is not. -/
theorem Sound.opened_ne_staleHandle (h : store.Sound) (fd : Nat) (what : String) :
    store.opened fd ≠ .error (.staleHandle what) := by
  rcases h.opened_cases fd with ⟨-, hopened⟩ | ⟨descriptor, file, -, -, hopened⟩ <;>
    rw [hopened] <;>
    rintro ⟨⟩

-- What each call can answer is known from its spec lemma. A stale handle is never among that.

/-- Opening follows the name to its file, which is in storage, or makes a new one. -/
theorem Sound.openFile_ne_staleHandle (h : store.Sound) (name : String) (create : Bool)
    (what : String) : (store.openFile name create).1 ≠ .error (.staleHandle what) := by
  rcases h.openFile_cases name create with ⟨id, file, -, -, hopen⟩ | ⟨-, -, hopen⟩ |
    ⟨-, -, hopen⟩ <;> rw [hopen] <;> rintro ⟨⟩

/-- A write that fails was refused for its descriptor or for the size of the file. -/
theorem Sound.write_ne_staleHandle (h : store.Sound) (fd : Nat) (data : Bytes) (what : String) :
    (store.write fd data).1 ≠ .error (.staleHandle what) := by
  rcases h.opened_cases fd with ⟨-, hopened⟩ | ⟨descriptor, file, hget, hfile, -⟩
  · simp only [Store.write, hopened]
    rintro ⟨⟩
  · obtain ⟨pos, hstands⟩ := h.exists_stands hget
    obtain ⟨count, -, hwrite, -⟩ := h.write_spec hget hfile hstands data
    rw [hwrite]
    split <;> rintro ⟨⟩

/-- A read that fails was refused for its descriptor. Every block that it comes to is in storage. -/
theorem Sound.read_ne_staleHandle (h : store.Sound) (fd want : Nat) (what : String) :
    (store.read fd want).1 ≠ .error (.staleHandle what) := by
  rcases h.opened_cases fd with ⟨-, hopened⟩ | ⟨descriptor, file, hget, -, -⟩
  · simp only [Store.read, hopened]
    rintro ⟨⟩
  · obtain ⟨pos, hstands⟩ := h.exists_stands hget
    obtain ⟨bytes, -, hread, -⟩ := h.read_spec hget hstands want
    rw [hread]
    rintro ⟨⟩

/-- A read into a buffer that fails was refused for its descriptor or for the length of the
buffer. -/
theorem Sound.readUpTo_ne_staleHandle (h : store.Sound) (fd most : Nat) (what : String) :
    (store.readUpTo fd most).1 ≠ .error (.staleHandle what) := by
  rcases h.opened_cases fd with ⟨-, hopened⟩ | ⟨descriptor, file, -, -, hopened⟩ <;>
    simp only [Store.readUpTo, hopened]
  · rintro ⟨⟩
  · split
    · exact h.read_ne_staleHandle fd _ what
    · rintro ⟨⟩

/-- Closing finds the file of the descriptor in storage, and when the file goes, all its blocks. -/
theorem Sound.close_ne_staleHandle (h : store.Sound) (fd : Nat) (what : String) :
    (store.close fd).1 ≠ .error (.staleHandle what) := by
  rcases h.close_cases fd with ⟨-, hclose⟩ |
    ⟨descriptor, file, left, -, -, -, -, ⟨-, -, hclose⟩ | ⟨-, hclose⟩⟩ <;> rw [hclose] <;>
    rintro ⟨⟩

/-- Deleting finds the file of the name in storage, and when the file goes, all its blocks. -/
theorem Sound.delete_ne_staleHandle (h : store.Sound) (name what : String) :
    (store.delete name).1 ≠ .error (.staleHandle what) := by
  rcases h.delete_cases name with ⟨-, hdelete⟩ |
    ⟨id, file, -, -, ⟨-, hdelete⟩ | ⟨-, hdelete⟩⟩ <;> rw [hdelete] <;> rintro ⟨⟩

/-- A resize that fails was refused for its descriptor or for the size. Cutting and extending find
every block that the links lead to. -/
theorem Sound.resize_ne_staleHandle (h : store.Sound) (fd size : Nat) (what : String) :
    (store.resize fd size).1 ≠ .error (.staleHandle what) := by
  rcases h.opened_cases fd with ⟨-, hopened⟩ | ⟨descriptor, file, hget, hfile, -⟩
  · simp only [Store.resize, hopened]
    rintro ⟨⟩
  · rcases h.resize_spec hget hfile size with ⟨-, hresize⟩ | ⟨-, hresize, -⟩ <;> rw [hresize] <;>
      rintro ⟨⟩

/-- A rewind follows no handle. All that can be wrong is the number of the descriptor. -/
theorem rewind_ne_staleHandle (store : Store) (fd : Nat) (what : String) :
    (store.rewind fd).1 ≠ .error (.staleHandle what) := by
  unfold Store.rewind DescriptorTable.get
  cases hget : store.descriptors.get? fd <;> rintro ⟨⟩

/-- Asking about a name follows it to its file, which is in storage. -/
theorem Sound.stat_ne_staleHandle (h : store.Sound) (name what : String) :
    (store.stat name).1 ≠ .error (.staleHandle what) := by
  cases hname : store.catalog.lookup name with
  | none =>
    simp only [Store.stat, hname]
    rintro ⟨⟩
  | some id =>
    obtain ⟨file, hfile, -⟩ := h.exists_file_of_lookup hname
    rw [file?] at hfile
    simp only [Store.stat, hname, Catalog.get, hfile]
    rintro ⟨⟩

/-- What is made of a result fails as the result does, so the answer that wraps it is a stale
handle only if the result is. -/
private theorem map_ne_error {α β : Type} {result : Except Error α} {e : Error} (f : α → β)
    (h : result ≠ .error e) : result.map f ≠ .error e := by
  cases result with
  | ok value => rintro ⟨⟩
  | error other => exact fun heq => h (congrArg Except.error (Except.error.inj heq))

/-- No call is answered with a stale handle. There is one case for each call, and the calls that
only report have nothing to follow. -/
theorem Sound.perform_ne_staleHandle (h : store.Sound) (call : Call) (what : String) :
    (store.perform call).1 ≠ .error (.staleHandle what) := by
  cases call with
  | openFile name create => exact map_ne_error _ (h.openFile_ne_staleHandle name create what)
  | write fd data => exact map_ne_error _ (h.write_ne_staleHandle fd data what)
  | read fd want => exact map_ne_error _ (h.read_ne_staleHandle fd want what)
  | readUpTo fd most => exact map_ne_error _ (h.readUpTo_ne_staleHandle fd most what)
  | close fd => exact map_ne_error _ (h.close_ne_staleHandle fd what)
  | delete name => exact map_ne_error _ (h.delete_ne_staleHandle name what)
  | resize fd size => exact map_ne_error _ (h.resize_ne_staleHandle fd size what)
  | rewind fd => exact map_ne_error _ (store.rewind_ne_staleHandle fd what)
  | stat name => exact map_ne_error _ (h.stat_ne_staleHandle name what)
  | statOpen fd => exact map_ne_error _ (map_ne_error _ (h.opened_ne_staleHandle fd what))
  | digest fd => exact map_ne_error _ (map_ne_error _ (h.opened_ne_staleHandle fd what))
  | names => rintro ⟨⟩
  | destroy => rintro ⟨⟩

/-- Whatever calls are made, every handle that is kept is good. Whatever is called next, the answer
is not a stale handle, and every check of what the call relies on succeeds, where no more files and
blocks are left in storage than slots can have numbers. -/
theorem handlesLive_performAll (config : Config) (calls : List Call) :
    ((empty config).performAll calls).2.HandlesLive ∧
      ∀ call, (∀ what,
          (((empty config).performAll calls).2.perform call).1 ≠ .error (.staleHandle what)) ∧
        ((((empty config).performAll calls).2.perform call).2.fileCount ≤ Slab.maxSlots →
          (((empty config).performAll calls).2.perform call).2.blockCount ≤ Slab.maxSlots →
          ((empty config).performAll calls).2.checkedPerform call
            = .ok (((empty config).performAll calls).2.perform call)) := by
  have h := sound_performAll config calls
  refine ⟨h.handlesLive, fun call => ⟨h.perform_ne_staleHandle call, ?_⟩⟩
  exact h.checkedPerform_eq call

/-- The slot of a file that was deleted while it was open, and went with its last descriptor, is
used again without fault. -/
theorem handlesLive_performAll_reused :
    let calls : List Call := [.openFile "a" true, .write 0 [1, 2, 3], .delete "a", .close 0]
    let store := ((empty Config.standard).performAll calls).2
    (store.perform (.openFile "b" true)).2.fileCount ≤ Slab.maxSlots ∧
      (store.perform (.openFile "b" true)).2.blockCount ≤ Slab.maxSlots ∧
      store.checkedPerform (.openFile "b" true) = .ok (store.perform (.openFile "b" true)) := by
  intro calls store
  have hfiles : (store.perform (.openFile "b" true)).2.fileCount ≤ Slab.maxSlots := by decide
  have hblocks : (store.perform (.openFile "b" true)).2.blockCount ≤ Slab.maxSlots := by decide
  exact ⟨hfiles, hblocks,
    ((handlesLive_performAll Config.standard calls).2 (.openFile "b" true)).2 hfiles hblocks⟩

end Store

end Filestore
