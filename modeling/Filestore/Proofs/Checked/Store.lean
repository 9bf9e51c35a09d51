import Filestore.Proofs.Checked.Stream
import Filestore.Proofs.Store.Reachable

/-!
# `Filestore.Proofs.Checked.Store`: calls that check what they rely on

The checked twins of the calls of a store. To what the operations on files and streams check they
add that every file that a name or a descriptor leads to is there, that a descriptor that is
closed was counted by the table and by its file, and that the cursors that a cut relocates are in
the file.

A sound store answers every call without fault (`Sound.checkedPerform_eq`), as long as there is
room for the slots that the call needs: at most 2 ^ 32 files and as many blocks when it is done.
Storage gets no emptier in the course of a call that needs room, so this is room at every point of
it.

The twins are written out and not wrapped around the calls, so that what they check stands where
it is relied on. Where a call looks at something and can report a failure, as it does for a number
that is not in use, the twin has the failure too. Where a call reports a failure that ought not to
occur, the twin has a fault. Three calls rely on nothing and have no twin of their own.
-/

set_option autoImplicit false

namespace Filestore

/-- Puts a new empty file in storage and makes the name denote it. -/
def Catalog.checkedCreate (catalog : Catalog) (name : String) :
    Except Fault (FileId × Catalog) := do
  let (id, files) ← catalog.files.checkedInsert (File.named name)
  .ok (id, ⟨files, catalog.directory.insert name id⟩)

/-- Takes a file, which has to be there, and its blocks out of storage. -/
def Catalog.checkedReclaim (catalog : Catalog) (id : FileId) (blocks : Slab Block) :
    Except Fault (Option File × Catalog × Slab Block) := do
  let file ← catalog.files.demand id
  let directory :=
    if catalog.directory.get? file.name = some id then catalog.directory.erase file.name
    else catalog.directory
  let files ← catalog.files.checkedErase id
  let (_, emptied, rest) ← file.checkedRelease blocks
  .ok (some emptied, ⟨files, directory⟩, rest)

/-- Binds a new descriptor to a file. The number it takes has to be that of an empty slot. -/
def DescriptorTable.checkedAllocate (table : DescriptorTable) (file : FileId) :
    Except Fault (Nat × DescriptorTable) := do
  let (fd, taken) := table.takeLowest
  require (taken.slots[fd]? = some none) .unreachable
  .ok (fd,
    { taken with
      slots := taken.slots.setIfInBounds fd (some (Descriptor.onFile file))
      active := taken.active + 1 })

/-- Frees a number in use. The table has to count it. -/
def DescriptorTable.checkedRelease (table : DescriptorTable) (fd : Nat) :
    Except Fault (Except Error (Descriptor × DescriptorTable)) :=
  match table.get? fd with
  | none => .ok (.error (.badDescriptor fd))
  | some descriptor => do
    require (1 ≤ table.active) .underflow
    .ok (.ok (descriptor,
      { slots := table.slots.setIfInBounds fd none
        free := insertAscending fd table.free
        active := table.active - 1 }))

/-- A sound table binds a descriptor without fault: the number it takes is that of an empty slot,
also where the table had to grow. -/
theorem DescriptorTable.Sound.checkedAllocate_eq {table : DescriptorTable} (h : table.Sound)
    (file : FileId) : table.checkedAllocate file = .ok (table.allocate file) := by
  obtain ⟨hempty, -⟩ := h.takeLowest
  simp only [DescriptorTable.checkedAllocate, require_of hempty, ok_bind]
  rfl

/-- A sound table frees a number without fault: a number in use is counted. -/
theorem DescriptorTable.Sound.checkedRelease_eq {table : DescriptorTable} (h : table.Sound)
    (fd : Nat) : table.checkedRelease fd = .ok (table.release fd) := by
  unfold DescriptorTable.checkedRelease DescriptorTable.release
  cases hget : table.get? fd with
  | none => rfl
  | some descriptor =>
    have hactive : 1 ≤ table.active := by
      rw [h.active_eq]
      exact List.length_pos_of_mem (DescriptorTable.mem_numbers.mpr ⟨descriptor, hget, rfl⟩)
    simp only [require_of hactive, ok_bind]

/-- A file that spans its chain goes with its blocks without fault, whatever else the catalog
has. -/
theorem Catalog.checkedReclaim_eq (catalog : Catalog) {id : FileId} {file : File}
    {blocks : Slab Block} {chain : Chain} (hfiles : catalog.files.Sound)
    (hfile : catalog.files.get? id = some file) (hsound : blocks.Sound)
    (hspans : file.Spans blocks chain) :
    catalog.checkedReclaim id blocks = .ok (catalog.reclaim id blocks) := by
  simp only [checkedReclaim, reclaim, Slab.demand_of hfile, hfiles.checkedErase_eq hfile,
    hspans.checkedRelease_eq hsound, ok_bind, hfile]

namespace Store

/-- The descriptor of a number in use, and its file, which has to be there. -/
def checkedOpened (store : Store) (fd : Nat) : Except Fault (Except Error (Descriptor × File)) :=
  match store.descriptors.get fd with
  | .error e => .ok (.error e)
  | .ok descriptor => do
    let file ← store.catalog.files.demand descriptor.file
    .ok (.ok (descriptor, file))

/-- The file a name denotes, created where it is absent and `create` is set. -/
def checkedObtain (store : Store) (name : String) (create : Bool) :
    Except Fault (Except Error (FileId × Catalog)) :=
  match store.catalog.lookup name with
  | some id => .ok (.ok (id, store.catalog))
  | none =>
    if create then do
      let obtained ← store.catalog.checkedCreate name
      .ok (.ok obtained)
    else .ok (.error (.noSuchFile name))

/-- Opens the file of a name, which has to be there if the name denotes one. -/
def checkedOpenFile (store : Store) (name : String) (create : Bool) :
    Except Fault (Except Error Nat × Store) := do
  let result ← store.checkedObtain name create
  match result with
  | .error e => .ok (store.conclude (.error e))
  | .ok (id, catalog) => do
    let (fd, descriptors) ← store.descriptors.checkedAllocate id
    let bound := { store with catalog, descriptors }
    let file ← catalog.files.demand id
    .ok ({ bound with catalog := catalog.set id { file with refs := file.refs + 1 } }.conclude
      (.ok fd))

/-- Takes a file and its blocks out of storage. -/
def checkedReclaim (store : Store) (id : FileId) : Except Fault Store := do
  let (_, catalog, blocks) ← store.catalog.checkedReclaim id store.blocks
  .ok { store with catalog, blocks }

/-- Closes a descriptor, whose file has to be there and to count it. -/
def checkedClose (store : Store) (fd : Nat) : Except Fault (Except Error Unit × Store) := do
  let result ← store.descriptors.checkedRelease fd
  match result with
  | .error e => .ok (store.conclude (.error e))
  | .ok (descriptor, descriptors) => do
    let released := { store with descriptors }
    let file ← store.catalog.files.demand descriptor.file
    require (1 ≤ file.refs) .underflow
    let left := { file with refs := file.refs - 1 }
    let counted := { released with catalog := store.catalog.set descriptor.file left }
    if left.refs = 0 ∧ left.deleted then do
      let rest ← counted.checkedReclaim descriptor.file
      .ok (rest.conclude (.ok ()))
    else .ok (counted.conclude (.ok ()))

/-- Deletes a name, whose file has to be there. -/
def checkedDelete (store : Store) (name : String) : Except Fault (Except Error Unit × Store) :=
  match store.catalog.unlink name with
  | .error e => .ok (store.conclude (.error e))
  | .ok (id, catalog) => do
    let unlinked := { store with catalog }
    let file ← catalog.files.demand id
    if 0 < file.refs then
      .ok ({ unlinked with catalog := catalog.set id { file with deleted := true } }.conclude
        (.ok ()))
    else do
      let rest ← unlinked.checkedReclaim id
      .ok (rest.conclude (.ok ()))

/-- Writes bytes at the cursor of a descriptor. -/
def checkedWrite (store : Store) (fd : Nat) (data : Bytes) :
    Except Fault (Except Error Nat × Store) := do
  let result ← store.checkedOpened fd
  match result with
  | .error e => .ok (store.conclude (.error e))
  | .ok (descriptor, file) =>
    if data.isEmpty then .ok (store.conclude (.ok 0))
    else do
      let written ← Stream.checkedWrite store.config data ⟨file, store.blocks, descriptor.cursor⟩
      let after := store.putStream fd descriptor.file written.stream
      match written.error with
      | none => .ok (after.conclude (.ok written.count))
      | some e =>
        if written.count = 0 then .ok (after.conclude (.error e))
        else .ok (.ok written.count, { after with lastError := e.kind })

/-- Reads at most `want` bytes at the cursor of a descriptor. -/
def checkedRead (store : Store) (fd want : Nat) : Except Fault (Except Error Bytes × Store) := do
  let result ← store.checkedOpened fd
  match result with
  | .error e => .ok (store.conclude (.error e))
  | .ok (descriptor, file) => do
    let (read, cursor) ← Stream.checkedRead want ⟨file, store.blocks, descriptor.cursor⟩
    .ok ({ store with descriptors := store.descriptors.setCursor fd cursor }.conclude read)

/-- Reads at most `most` bytes, into a buffer no longer than the file. -/
def checkedReadUpTo (store : Store) (fd most : Nat) :
    Except Fault (Except Error Bytes × Store) := do
  let result ← store.checkedOpened fd
  match result with
  | .error e => .ok (store.conclude (.error e))
  | .ok (_, file) =>
    let want := min file.size most
    if want ≤ Block.maxBuffer then store.checkedRead fd want
    else .ok (store.conclude (.error .oversizedBuffer))

/-- Appends zeros to a file. -/
def checkedLengthen (store : Store) (id : FileId) (file : File) (count : Nat) :
    Except Fault (Except Error Unit × Store) := do
  let (result, longer, blocks) ←
    file.checkedExtendZeros store.blocks store.config.blockSize count
  .ok ({ store with catalog := store.catalog.set id longer, blocks }.conclude result)

/-- Cuts a file down and moves the cursors in it, all of which have to be in the file. -/
def checkedShorten (store : Store) (id : FileId) (file : File) (newSize : Nat) :
    Except Fault (Except Error Unit × Store) := do
  let before := file.chain store.blocks
  require (∀ descriptor ∈ store.descriptors.boundTo id,
    (before.position descriptor.cursor).isSome) .expired
  let (result, shorter, blocks) ← file.checkedTruncate store.blocks newSize
  match result with
  | .error e => .ok ({ store with blocks }.conclude (.error e))
  | .ok () =>
    let move := relocated before (shorter.chain blocks) newSize
    .ok ({ store with
      blocks
      catalog := store.catalog.set id shorter
      descriptors := store.descriptors.mapCursors id move }.conclude (.ok ()))

/-- Sets the size of a descriptor's file. What is appended is the new size without the old one. -/
def checkedResize (store : Store) (fd newSize : Nat) :
    Except Fault (Except Error Unit × Store) := do
  let result ← store.checkedOpened fd
  match result with
  | .error e => .ok (store.conclude (.error e))
  | .ok (descriptor, file) =>
    if store.allows newSize then
      if file.size ≤ newSize then do
        require (file.size ≤ newSize) .underflow
        store.checkedLengthen descriptor.file file (newSize - file.size)
      else store.checkedShorten descriptor.file file newSize
    else .ok (store.conclude (.error (.fileTooLarge file.name (store.config.sizeLimit.getD 0))))

/-- The statistics of the file a name denotes, which has to be there. -/
def checkedStat (store : Store) (name : String) : Except Fault (Except Error Stat × Store) :=
  match store.catalog.lookup name with
  | none => .ok (store.conclude (.error (.noSuchFile name)))
  | some id => do
    let file ← store.catalog.files.demand id
    .ok (store.conclude (.ok file.stat))

/-- What is asked of a descriptor's file, which has to be there. -/
def checkedInspect {α : Type} (store : Store) (fd : Nat) (ask : Descriptor × File → α) :
    Except Fault (Except Error α × Store) := do
  let result ← store.checkedOpened fd
  .ok (store.conclude (result.map ask))

/-- Answers a call, and checks what it relies on. -/
def checkedPerform (store : Store) : Call → Except Fault (Except Error Answer × Store)
  | .openFile name create => do
    let outcome ← store.checkedOpenFile name create
    .ok (outcome.map (·.map .descriptor) id)
  | .write fd data => do
    let outcome ← store.checkedWrite fd data
    .ok (outcome.map (·.map .count) id)
  | .read fd want => do
    let outcome ← store.checkedRead fd want
    .ok (outcome.map (·.map .data) id)
  | .readUpTo fd most => do
    let outcome ← store.checkedReadUpTo fd most
    .ok (outcome.map (·.map .data) id)
  | .close fd => do
    let outcome ← store.checkedClose fd
    .ok (outcome.map (·.map fun _ => .done) id)
  | .delete name => do
    let outcome ← store.checkedDelete name
    .ok (outcome.map (·.map fun _ => .done) id)
  | .resize fd size => do
    let outcome ← store.checkedResize fd size
    .ok (outcome.map (·.map fun _ => .done) id)
  | .rewind fd => .ok ((store.rewind fd).map (·.map fun _ => .done) id)
  | .stat name => do
    let outcome ← store.checkedStat name
    .ok (outcome.map (·.map .stat) id)
  | .statOpen fd => do
    let outcome ← store.checkedInspect fd fun entry => entry.2.stat
    .ok (outcome.map (·.map .stat) id)
  | .digest fd => do
    let outcome ← store.checkedInspect fd fun entry =>
      Digest.ofBytes (entry.2.contents store.blocks)
    .ok (outcome.map (·.map .digest) id)
  | .names => .ok (.ok (.names store.names), store)
  | .destroy => .ok (.ok .done, store.destroy)

variable {store : Store} {id : FileId} {file : File} {fd : Nat} {descriptor : Descriptor}

/-- The file of a descriptor in use is there, so a descriptor is refused only because it is not in
use. -/
theorem Sound.checkedOpened_eq (h : store.Sound) (fd : Nat) :
    store.checkedOpened fd = .ok (store.opened fd) := by
  unfold checkedOpened opened
  cases hget : store.descriptors.get? fd with
  | none => simp only [DescriptorTable.get, hget]
  | some descriptor =>
    obtain ⟨file, hfile⟩ := h.exists_file hget
    rw [file?] at hfile
    simp only [DescriptorTable.get, hget, Slab.demand_of hfile, ok_bind, Catalog.get, hfile]

/-- Opening is faultless where there is room for a file, if one has to be created. -/
theorem Sound.checkedOpenFile_eq (h : store.Sound) (name : String) (create : Bool)
    (hroom : (store.openFile name create).2.fileCount ≤ Slab.maxSlots) :
    store.checkedOpenFile name create = .ok (store.openFile name create) := by
  unfold checkedOpenFile checkedObtain
  unfold Store.openFile obtain at hroom ⊢
  cases hname : store.catalog.lookup name with
  | some id =>
    obtain ⟨file, hfile, -⟩ := h.exists_file_of_lookup hname
    rw [file?] at hfile
    simp only [ok_bind, h.table.checkedAllocate_eq, Slab.demand_of hfile, Catalog.get, hfile]
  | none =>
    cases create with
    | false => rfl
    | true =>
      have hself := (h.create hname).2.file?_eq
      replace hself : (store.catalog.create name).2.files.get? (store.catalog.create name).1
        = some (File.named name) := hself
      simp only [hname, if_true, Catalog.get, hself] at hroom
      -- The room that is asked for is that of the store afterwards, which has the new file in it.
      have hinsert := h.storage.files_sound.checkedInsert_eq (File.named name) (by
        have hlen : (store.catalog.create name).2.files.len ≤ Slab.maxSlots := by
          simpa only [fileCount, conclude, Catalog.set, Slab.len_set] using hroom
        exact hlen)
      have hcreate : store.catalog.checkedCreate name = .ok (store.catalog.create name) := by
        rw [Catalog.checkedCreate, hinsert]
        rfl
      simp only [if_true, hcreate, ok_bind, h.table.checkedAllocate_eq, Slab.demand_of hself,
        Catalog.get, hself]

/-- A deleted name leads to a file that is there, so deleting is faultless for every name. -/
theorem Sound.checkedDelete_eq (h : store.Sound) (name : String) :
    store.checkedDelete name = .ok (store.delete name) := by
  unfold checkedDelete Store.delete Catalog.unlink
  cases hname : store.catalog.lookup name with
  | none => rfl
  | some id =>
    obtain ⟨file, hfile, -⟩ := h.exists_file_of_lookup hname
    have hspans := h.spans hfile
    rw [file?] at hfile
    simp only [Slab.demand_of hfile, ok_bind, Catalog.get, hfile]
    split
    · rfl
    · have hreclaim := Catalog.checkedReclaim_eq
        { store.catalog with directory := store.catalog.directory.erase name }
        h.storage.files_sound hfile h.storage.blocks_sound hspans
      simp only [checkedReclaim, hreclaim, ok_bind, reclaim]

/-- Closing is faultless: the file of the descriptor is there and counts it. -/
theorem Sound.checkedClose_eq (h : store.Sound) (fd : Nat) :
    store.checkedClose fd = .ok (store.close fd) := by
  unfold checkedClose
  rw [h.table.checkedRelease_eq, ok_bind]
  rcases h.close_cases fd with ⟨hget, -⟩ | ⟨descriptor, file, left, -, hfile, hrelease, hrefs, -⟩
  · simp only [Store.close, DescriptorTable.release, hget]
  · have hspans := h.spans hfile
    have hpos : 1 ≤ file.refs := by omega
    rw [file?] at hfile
    simp only [Store.close, hrelease, Slab.demand_of hfile, ok_bind, require_of hpos, Catalog.get,
      hfile]
    split
    · have hself := Slab.get?_set_self hfile { file with refs := file.refs - 1 }
      have hreclaim := Catalog.checkedReclaim_eq
        (store.catalog.set descriptor.file { file with refs := file.refs - 1 })
        (h.storage.files_sound.set descriptor.file _) hself h.storage.blocks_sound
        (hspans.with_accounts _ _)
      simp only [checkedReclaim, hreclaim, ok_bind, reclaim]
    · rfl

/-- Writing is faultless where there is room for what is stored, also if it ends before the last
byte. -/
theorem Sound.checkedWrite_eq (h : store.Sound) (fd : Nat) (data : Bytes)
    (hroom : (store.write fd data).2.blockCount ≤ Slab.maxSlots) :
    store.checkedWrite fd data = .ok (store.write fd data) := by
  unfold checkedWrite
  unfold Store.write at hroom ⊢
  rw [h.checkedOpened_eq, ok_bind]
  rcases h.opened_cases fd with ⟨-, hopened⟩ | ⟨descriptor, file, hget, hfile, hopened⟩
  · rw [hopened]
  · simp only [hopened] at hroom ⊢
    split
    · rfl
    · rename_i hdata
      obtain ⟨pos, hstands⟩ := h.exists_stands hget
      have hresting := h.resting hget hfile hstands
      have hne : data ≠ [] := by simpa using hdata
      have hcomplete := hresting.write_complete hne fd
      obtain ⟨chain, hedit, -, -, hrest⟩ := hcomplete.resting hresting
      simp only [if_neg hdata] at hroom
      have hlen : (Stream.write store.config fd data
          ⟨file, store.blocks, descriptor.cursor⟩).stream.blocks.len ≤ Slab.maxSlots := by
        revert hroom
        split
        · exact id
        · split <;> exact id
      -- A file whose blocks have slots is short enough to be counted.
      have hsize := hrest.spans.size_lt (hedit.exchange.sound h.storage.blocks_sound)
        hrest.packed.toUniform store.config.blockSize_lt hlen
      rw [hresting.checkedWrite_eq h.storage.blocks_sound ⟨hlen, hsize⟩, ok_bind]
      generalize Stream.write store.config fd data ⟨file, store.blocks, descriptor.cursor⟩ = written
      obtain ⟨error, count, stream⟩ := written
      cases error with
      | none => rfl
      | some e => by_cases hcount : count = 0 <;> simp only [hcount, if_true, if_false]

/-- Reading is faultless for every number that is in use, and refused for any other. -/
theorem Sound.checkedRead_eq (h : store.Sound) (fd want : Nat) :
    store.checkedRead fd want = .ok (store.read fd want) := by
  unfold checkedRead Store.read
  rw [h.checkedOpened_eq, ok_bind]
  rcases h.opened_cases fd with ⟨-, hopened⟩ | ⟨descriptor, file, hget, hfile, hopened⟩
  · rw [hopened]
  · obtain ⟨pos, hstands⟩ := h.exists_stands hget
    simp only [hopened, (h.resting hget hfile hstands).checkedRead_eq fd want, ok_bind]

/-- Reading into a buffer of the store's choice is faultless, since it is a read or is refused. -/
theorem Sound.checkedReadUpTo_eq (h : store.Sound) (fd most : Nat) :
    store.checkedReadUpTo fd most = .ok (store.readUpTo fd most) := by
  unfold checkedReadUpTo Store.readUpTo
  rw [h.checkedOpened_eq, ok_bind]
  rcases h.opened_cases fd with ⟨-, hopened⟩ | ⟨descriptor, file, -, -, hopened⟩
  · rw [hopened]
  · simp only [hopened]
    split
    · exact h.checkedRead_eq fd _
    · rfl

/-- Zeros are appended without fault where there is room for them. -/
theorem Sound.checkedLengthen_eq (h : store.Sound) (hfile : store.file? id = some file)
    (count : Nat)
    (hroom : (store.lengthen id file count).2.blockCount ≤ Slab.maxSlots) :
    store.checkedLengthen id file count = .ok (store.lengthen id file count) := by
  have hspans := h.spans hfile
  obtain ⟨chain, -, hedit, -, -, hpacked⟩ := hspans.extendZeros store.config.blockSize_pos
    store.config.blockSize_le_maxBuffer (h.storage.packed id) count
  have hlen : (file.extendZeros store.blocks store.config.blockSize count).2.2.len
    ≤ Slab.maxSlots := hroom
  have hsize := hedit.spans.size_lt (hedit.exchange.sound h.storage.blocks_sound)
    hpacked.toUniform store.config.blockSize_lt hlen
  simp only [checkedLengthen, hspans.checkedExtendZeros_eq store.config.blockSize_pos
    h.storage.blocks_sound hlen hsize, ok_bind, lengthen]

/-- A cut is faultless: every cursor in the file has a position, and the blocks given back are
counted. -/
theorem Sound.checkedShorten_eq (h : store.Sound) (hfile : store.file? id = some file)
    (newSize : Nat) :
    store.checkedShorten id file newSize = .ok (store.shorten id file newSize) := by
  have hspans := h.spans hfile
  have hfound : ∀ descriptor ∈ store.descriptors.boundTo id,
      ((file.chain store.blocks).position descriptor.cursor).isSome := by
    intro descriptor hmem
    obtain ⟨fd, hget, hbound⟩ := DescriptorTable.exists_get?_of_mem_boundTo hmem
    obtain ⟨pos, hstands⟩ := (h.accounts id).stands fd descriptor hget hbound
    rw [hspans.chain_eq, hstands.position_eq hspans.nodup, Option.isSome_some]
  simp only [checkedShorten, require_of hfound, hspans.checkedTruncate_eq h.storage.blocks_sound,
    ok_bind, shorten]
  generalize file.truncate store.blocks newSize = truncated
  obtain ⟨result, shorter, blocks⟩ := truncated
  cases result <;> rfl

/-- Resizing is faultless where there is room for the file in its new size. -/
theorem Sound.checkedResize_eq (h : store.Sound) (fd newSize : Nat)
    (hroom : (store.resize fd newSize).2.blockCount ≤ Slab.maxSlots) :
    store.checkedResize fd newSize = .ok (store.resize fd newSize) := by
  unfold checkedResize
  unfold Store.resize at hroom ⊢
  rw [h.checkedOpened_eq, ok_bind]
  rcases h.opened_cases fd with ⟨-, hopened⟩ | ⟨descriptor, file, -, hfile, hopened⟩
  · rw [hopened]
  · simp only [hopened] at hroom ⊢
    by_cases hallows : store.allows newSize = true
    · simp only [if_pos hallows] at hroom ⊢
      by_cases hle : file.size ≤ newSize
      · simp only [if_pos hle] at hroom ⊢
        rw [require_of hle, ok_bind]
        exact h.checkedLengthen_eq hfile _ hroom
      · simp only [if_neg hle]
        exact h.checkedShorten_eq hfile newSize
    · simp only [if_neg hallows]

/-- What is asked by name is answered without fault: a name that denotes anything denotes a file
that is there. -/
theorem Sound.checkedStat_eq (h : store.Sound) (name : String) :
    store.checkedStat name = .ok (store.stat name) := by
  unfold checkedStat Store.stat
  cases hname : store.catalog.lookup name with
  | none => rfl
  | some id =>
    obtain ⟨file, hfile, -⟩ := h.exists_file_of_lookup hname
    rw [file?] at hfile
    simp only [Slab.demand_of hfile, ok_bind, Catalog.get, hfile]
    rfl

/-- What is asked of a descriptor is answered without fault, whatever is asked of it. -/
theorem Sound.checkedInspect_eq {α : Type} (h : store.Sound) (fd : Nat)
    (ask : Descriptor × File → α) :
    store.checkedInspect fd ask = .ok (store.conclude ((store.opened fd).map ask)) := by
  rw [checkedInspect, h.checkedOpened_eq, ok_bind]

/-- A sound store answers every call without fault, where there is room for the files and the
blocks that the call leaves. -/
theorem Sound.checkedPerform_eq (h : store.Sound) (call : Call)
    (hfiles : (store.perform call).2.fileCount ≤ Slab.maxSlots)
    (hblocks : (store.perform call).2.blockCount ≤ Slab.maxSlots) :
    store.checkedPerform call = .ok (store.perform call) := by
  cases call with
  | openFile name create =>
    simp only [checkedPerform, h.checkedOpenFile_eq name create hfiles, ok_bind, Store.perform]
  | write fd data =>
    simp only [checkedPerform, h.checkedWrite_eq fd data hblocks, ok_bind, Store.perform]
  | read fd want => simp only [checkedPerform, h.checkedRead_eq, ok_bind, Store.perform]
  | readUpTo fd most => simp only [checkedPerform, h.checkedReadUpTo_eq, ok_bind, Store.perform]
  | close fd => simp only [checkedPerform, h.checkedClose_eq, ok_bind, Store.perform]
  | delete name => simp only [checkedPerform, h.checkedDelete_eq, ok_bind, Store.perform]
  | resize fd size =>
    simp only [checkedPerform, h.checkedResize_eq fd size hblocks, ok_bind, Store.perform]
  | rewind fd => rfl
  | stat name => simp only [checkedPerform, h.checkedStat_eq, ok_bind, Store.perform]
  | statOpen fd => rw [checkedPerform, h.checkedInspect_eq, ok_bind]; rfl
  | digest fd => rw [checkedPerform, h.checkedInspect_eq, ok_bind]; rfl
  | names => rfl
  | destroy => rfl

end Store

end Filestore
