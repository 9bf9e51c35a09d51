import Filestore.Proofs.Checked.Slab
import Filestore.Proofs.File.Extent

/-!
# `Filestore.Proofs.Checked.File`: file operations that check what they rely on

The checked twins of the operations on one file and the storage of blocks. They check that the
last block is there when one is linked to it, that every block that is given back is there to be
given back and is counted, and that no size outgrows 64 bits.

On a file that spans its chain they are faultless, where there is room: the storage has to end
with no more blocks than slots can have numbers, and the file with no more bytes than can be
counted. A file only gets longer and the storage only fuller on the way to that end
(`grows_appendBlock`, `grows_linkCopies`), so this is room for every step.

A link, a filling and a cut can fail at an expired handle, and then give a `StaleHandle`. Their
twins have a fault in that place instead, so that the equations say more than that the same comes
out: on a file that spans its chain these failures do not occur. What can still fail is to have a
block at all, which is up to its capacity, and that failure is the same in both.
-/

set_option autoImplicit false

namespace Filestore

/-- How many bytes a file can count: a size is a 64-bit number. -/
def File.maxSize : Nat := 18446744073709551616

namespace Chain

/-- Erases the blocks along the links from `start`, all of which have to be there. Also gives their
number, on top of `count`. -/
def checkedReleaseFrom : Nat → Nat → Slab Block → Option BlockId → Except Fault (Nat × Slab Block)
  | _, count, blocks, none => .ok (count, blocks)
  | 0, _, _, some _ => .error .endless
  | fuel + 1, count, blocks, some id => do
    let block ← blocks.demand id
    let rest ← blocks.checkedErase id
    checkedReleaseFrom fuel (count + 1) rest block.next

/-- Erases the blocks along the links from `head`. -/
def checkedRelease (blocks : Slab Block) (head : Option BlockId) :
    Except Fault (Nat × Slab Block) :=
  checkedReleaseFrom (blocks.slotCount + 1) 0 blocks head

/-- The release of a stored chain is faultless: every handle on the way is good when it is
followed, and the links end before the fuel does. -/
theorem checkedReleaseFrom_eq {blocks : Slab Block} {chain : Chain} {prev start : Option BlockId}
    {fuel : Nat} (count : Nat) (hsound : blocks.Sound) (hstored : Stored blocks chain)
    (hjoined : Joined prev start chain none) (hnodup : chain.ids.Nodup)
    (hfuel : chain.length ≤ fuel) :
    checkedReleaseFrom fuel count blocks start = .ok (releaseFrom fuel count blocks start) := by
  -- An erased block is not met again, so the rest of the chain stays stored.
  induction chain generalizing blocks prev start fuel count with
  | nil =>
    rw [show start = none from hjoined]
    cases fuel <;> rfl
  | cons entry rest ih =>
    obtain ⟨id, block⟩ := entry
    obtain ⟨rfl, -, hrest⟩ := hjoined
    obtain ⟨hid, hnodup⟩ := List.nodup_cons.mp hnodup
    have hblock := hstored (id, block) List.mem_cons_self
    cases fuel with
    | zero => cases hfuel
    | succ fuel =>
      simp only [checkedReleaseFrom, releaseFrom, Slab.demand_of hblock,
        hsound.checkedErase_eq hblock, ok_bind, hblock]
      exact ih (count + 1) (hsound.erase id) (hstored.erase hid) hrest hnodup
        (Nat.le_of_succ_le_succ hfuel)

/-- From its first handle, the release of a stored chain is faultless. The slots are fuel enough
for it. -/
theorem checkedRelease_eq {blocks : Slab Block} {chain : Chain} {prev head : Option BlockId}
    (hsound : blocks.Sound) (hstored : Stored blocks chain)
    (hjoined : Joined prev head chain none) (hnodup : chain.ids.Nodup) :
    checkedRelease blocks head = .ok (release blocks head) :=
  checkedReleaseFrom_eq 0 hsound hstored hjoined hnodup
    (Nat.le_succ_of_le (hstored.length_le hnodup))

end Chain

namespace File

/-- Links a block after the last one, which has to be there. -/
def checkedLink (file : File) (blocks : Slab Block) (block : Block) :
    Except Fault (Except Error BlockId × File × Slab Block) := do
  let (id, stored) ← blocks.checkedInsert (block.linkPrev file.tail)
  let longer := { file with tail := some id, blocks := file.blocks + 1 }
  match file.tail with
  | none => .ok (.ok id, { longer with head := some id }, stored)
  | some tail => do
    let last ← stored.demand tail
    .ok (.ok id, longer, stored.set tail (last.linkNext (some id)))

/-- Links a new empty block after the last one. -/
def checkedAppendBlock (file : File) (blocks : Slab Block) (capacity : Nat) :
    Except Fault (Except Error BlockId × File × Slab Block) :=
  match Block.allocate capacity with
  | .error e => .ok (.error e, file, blocks)
  | .ok block => file.checkedLink blocks block

/-- Counts bytes. The size has to fit in its word. -/
def checkedGrow (file : File) (count : Nat) : Except Fault File := do
  require (file.size + count < maxSize) .overflow
  .ok (file.grow count)

/-- Gives every block back. -/
def checkedRelease (file : File) (blocks : Slab Block) :
    Except Fault (Nat × File × Slab Block) := do
  let (count, rest) ← Chain.checkedRelease blocks file.head
  .ok (count, { file with head := none, tail := none, size := 0, blocks := 0 }, rest)

/-- Cuts the file down. The cut has to be found in a block, and the blocks that are given back to be
counted. -/
def checkedTruncate (file : File) (blocks : Slab Block) (newSize : Nat) :
    Except Fault (Except Error Unit × File × Slab Block) :=
  if file.size ≤ newSize then .ok (.ok (), file, blocks)
  else if newSize = 0 then do
    let (_, emptied, rest) ← file.checkedRelease blocks
    .ok (.ok (), emptied, rest)
  else
    let cut := file.locate blocks newSize
    match cut.block with
    | none => .error .expired
    | some last => do
      let block ← blocks.demand last
      let kept := blocks.set last ((block.truncate cut.offset).linkNext none)
      let (count, rest) ← Chain.checkedRelease kept block.next
      require (count ≤ file.blocks) .underflow
      .ok (.ok (),
        { file with tail := some last, size := newSize, blocks := file.blocks - count }, rest)

/-- Appends zeros to a block, which has to be there, up to its capacity. -/
def checkedFillBlock (file : File) (blocks : Slab Block) (id : BlockId) (len : Nat) :
    Except Fault (Except Error Nat × File × Slab Block) := do
  let block ← blocks.demand id
  require (block.occupied ≤ block.capacity) .underflow
  let count := block.zeroCount len
  let longer ← file.checkedGrow count
  .ok (.ok count, longer, blocks.set id (block.zeroFill len))

/-- Appends zeros to the last block, if it has room. -/
def checkedFillTail (file : File) (blocks : Slab Block) (len : Nat) :
    Except Fault (Except Error Nat × File × Slab Block) :=
  match file.openTail blocks with
  | none => .ok (.ok 0, file, blocks)
  | some tail => file.checkedFillBlock blocks tail len

/-- Links a new block, which then has to be there, with the bytes of `copy`. -/
def checkedLinkCopy (file : File) (blocks : Slab Block) (copy : Block) :
    Except Fault (Except Error Unit × File × Slab Block) := do
  match ← file.checkedLink blocks (copy.truncate 0) with
  | (.error e, same, stored) => .ok (.error e, same, stored)
  | (.ok id, longer, stored) => do
    let _ ← stored.demand id
    let longer ← longer.checkedGrow copy.occupied
    .ok (.ok (), longer, stored.set id (copy.linkPrev file.tail))

/-- Appends copies of a block until there are `len` bytes. No copy may have more than are left. -/
def checkedLinkCopies (full : Block) :
    Nat → File → Slab Block → Nat → Except Fault (Except Error Unit × File × Slab Block)
  | _, file, blocks, 0 => .ok (.ok (), file, blocks)
  | 0, _, _, _ + 1 => .error .endless
  | fuel + 1, file, blocks, len + 1 => do
    let copy := full.truncate (len + 1)
    match ← file.checkedLinkCopy blocks copy with
    | (.error e, same, stored) => .ok (.error e, same, stored)
    | (.ok (), longer, stored) => do
      require (copy.occupied ≤ len + 1) .underflow
      checkedLinkCopies full fuel longer stored (len + 1 - copy.occupied)

/-- Appends zeros in new blocks. -/
def checkedAppendZeros (file : File) (blocks : Slab Block) (capacity len : Nat) :
    Except Fault (Except Error Unit × File × Slab Block) :=
  if len = 0 then .ok (.ok (), file, blocks)
  else
    match Block.allocate capacity with
    | .error e => .ok (.error e, file, blocks)
    | .ok block => checkedLinkCopies (block.zeroFill len) len file blocks len

/-- Appends zeros, filling the last block first. It may take no more than there are to append. -/
def checkedExtendZeros (file : File) (blocks : Slab Block) (capacity len : Nat) :
    Except Fault (Except Error Unit × File × Slab Block) := do
  match ← file.checkedFillTail blocks len with
  | (.error e, same, stored) => .ok (.error e, same, stored)
  | (.ok count, longer, stored) => do
    require (count ≤ len) .underflow
    longer.checkedAppendZeros stored capacity (len - count)

variable {file : File} {blocks : Slab Block} {chain : Chain} {capacity len : Nat}

/-- The bytes of a file can be counted where the blocks have slots: a block holds fewer than 2 ^
32 bytes, and there are at most as many blocks. -/
theorem Spans.size_lt (h : file.Spans blocks chain) (hsound : blocks.Sound)
    (huniform : chain.Uniform capacity) (hcapacity : capacity < 4294967296)
    (hroom : blocks.len ≤ Slab.maxSlots) : file.size < maxSize := by
  have hlength : chain.length ≤ blocks.len := by
    rw [hsound.counted]
    exact h.stored.length_le_keys h.nodup
  calc file.size = chain.contents.length := h.size_eq
    _ ≤ chain.length * capacity := huniform.length_contents_le
    _ ≤ 4294967296 * 4294967295 :=
      Nat.mul_le_mul (Nat.le_trans hlength hroom) (Nat.le_of_lt_succ hcapacity)
    _ < maxSize := by decide

/-- The block that is to be linked goes into storage, whether it can be linked or not. So the
storage is one block fuller in any case. -/
theorem len_link (file : File) (blocks : Slab Block) (block : Block) :
    (file.link blocks block).2.2.len = blocks.len + 1 := by
  unfold link
  cases file.tail with
  | none => exact Slab.len_insert _ _
  | some tail =>
    cases hlast : (blocks.insert (block.linkPrev (some tail))).2.get? tail with
    | none => simp only [hlast, Slab.len_insert]
    | some last => simp only [hlast, Slab.len_set, Slab.len_insert]

/-- A link counts no bytes: the block is counted by the one who puts bytes into it. -/
theorem size_link (file : File) (blocks : Slab Block) (block : Block) :
    (file.link blocks block).2.1.size = file.size := by
  unfold link
  cases file.tail with
  | none => rfl
  | some tail =>
    cases hlast : (blocks.insert (block.linkPrev (some tail))).2.get? tail <;> simp only [hlast]

/-- A new block leaves the storage no emptier and the file no shorter, also where there can be no
such block or no link to it. -/
theorem grows_appendBlock (file : File) (blocks : Slab Block) (capacity : Nat) :
    blocks.len ≤ (file.appendBlock blocks capacity).2.2.len ∧
      file.size ≤ (file.appendBlock blocks capacity).2.1.size := by
  unfold appendBlock
  split
  · exact ⟨Nat.le_refl _, Nat.le_refl _⟩
  · rw [len_link, size_link]
    exact ⟨Nat.le_succ _, Nat.le_refl _⟩

/-- A copy goes into storage, whether it can be linked or not, like any other block that is to be
linked. -/
theorem len_linkCopy (file : File) (blocks : Slab Block) (copy : Block) :
    (file.linkCopy blocks copy).2.2.len = blocks.len + 1 := by
  have hlen := file.len_link blocks (copy.truncate 0)
  unfold linkCopy
  generalize file.link blocks (copy.truncate 0) = linked at hlen ⊢
  obtain ⟨_ | id, longer, stored⟩ := linked
  · exact hlen
  · exact (Slab.len_set _ _ _).trans hlen

/-- A copy leaves the file no shorter: it adds its bytes, or nothing where it cannot be linked. -/
theorem size_le_linkCopy (file : File) (blocks : Slab Block) (copy : Block) :
    file.size ≤ (file.linkCopy blocks copy).2.1.size := by
  have hsize := file.size_link blocks (copy.truncate 0)
  unfold linkCopy
  generalize file.link blocks (copy.truncate 0) = linked at hsize ⊢
  obtain ⟨_ | id, longer, stored⟩ := linked
  · exact Nat.le_of_eq hsize.symm
  · exact Nat.le_trans (Nat.le_of_eq hsize.symm) (Nat.le_add_right _ _)

/-- Linked copies leave the storage no emptier and the file no shorter. So room for the last of
them is room for all. -/
theorem grows_linkCopies (full : Block) (fuel : Nat) (file : File) (blocks : Slab Block)
    (len : Nat) :
    blocks.len ≤ (linkCopies full fuel file blocks len).2.2.len ∧
      file.size ≤ (linkCopies full fuel file blocks len).2.1.size := by
  induction fuel generalizing file blocks len with
  | zero => exact ⟨Nat.le_refl _, Nat.le_refl _⟩
  | succ fuel ih =>
    cases len with
    | zero => exact ⟨Nat.le_refl _, Nat.le_refl _⟩
    | succ len =>
      have hlen := file.len_linkCopy blocks (full.truncate (len + 1))
      have hsize := file.size_le_linkCopy blocks (full.truncate (len + 1))
      simp only [linkCopies]
      generalize file.linkCopy blocks (full.truncate (len + 1)) = linked at hlen hsize ⊢
      obtain ⟨_ | ⟨⟩, longer, stored⟩ := linked
      · exact ⟨hlen ▸ Nat.le_succ _, hsize⟩
      · obtain ⟨hlen', hsize'⟩ := ih longer stored (len + 1 - (full.truncate (len + 1)).occupied)
        exact ⟨Nat.le_trans (hlen ▸ Nat.le_succ _) hlen', Nat.le_trans hsize hsize'⟩

/-- Where the sum fits in its word, bytes are counted without fault. -/
theorem checkedGrow_eq {count : Nat} (h : (file.grow count).size < maxSize) :
    file.checkedGrow count = .ok (file.grow count) := by
  rw [checkedGrow, require_of (show file.size + count < maxSize from h), ok_bind]

/-- A link is faultless where there is room for a block: the last block is there, and stays there
when the new one gets its slot. -/
theorem Spans.checkedLink_eq (h : file.Spans blocks chain) (hsound : blocks.Sound) (block : Block)
    (hroom : (file.link blocks block).2.2.len ≤ Slab.maxSlots) :
    file.checkedLink blocks block = .ok (file.link blocks block) := by
  rw [len_link, ← Slab.len_insert blocks (block.linkPrev file.tail)] at hroom
  have hinsert := hsound.checkedInsert_eq _ hroom
  cases htail : file.tail with
  | none =>
    rw [htail] at hinsert
    simp only [checkedLink, File.link, htail, hinsert, ok_bind]
  | some tail =>
    obtain ⟨front, last, rfl⟩ := Chain.eq_concat_of_lastId (h.tail_eq.symm.trans htail)
    rw [htail] at hinsert
    have hstored : (blocks.insert (block.linkPrev (some tail))).2.get? tail = some last :=
      (Slab.get?_insert_of_ne (h.fst_insert_ne htail _).symm).trans h.last_eq.2
    simp only [checkedLink, File.link, htail, hinsert, ok_bind, Slab.demand_of hstored, hstored]

/-- A new block is appended without fault where there is room for it, or where there can be no
such block and nothing is done. -/
theorem Spans.checkedAppendBlock_eq (h : file.Spans blocks chain) (hsound : blocks.Sound)
    (hroom : (file.appendBlock blocks capacity).2.2.len ≤ Slab.maxSlots) :
    file.checkedAppendBlock blocks capacity = .ok (file.appendBlock blocks capacity) := by
  unfold appendBlock at hroom ⊢
  unfold checkedAppendBlock
  cases hallocate : Block.allocate capacity with
  | error e => rfl
  | ok block =>
    rw [hallocate] at hroom
    exact h.checkedLink_eq hsound block hroom

/-- A file gives all its blocks back without fault, in whatever state the rest of the storage is. -/
theorem Spans.checkedRelease_eq (h : file.Spans blocks chain) (hsound : blocks.Sound) :
    file.checkedRelease blocks = .ok (file.release blocks) := by
  simp only [checkedRelease, File.release, Chain.checkedRelease_eq hsound h.stored h.joined h.nodup,
    ok_bind]

/-- A truncation is faultless: the cut is in a block of the chain, and the blocks behind it are
counted by the file. -/
theorem Spans.checkedTruncate_eq (h : file.Spans blocks chain) (hsound : blocks.Sound)
    (newSize : Nat) : file.checkedTruncate blocks newSize = .ok (file.truncate blocks newSize) := by
  unfold checkedTruncate File.truncate
  split
  · rfl
  split
  · simp only [h.checkedRelease_eq hsound, ok_bind]
  · rename_i hsize hzero
    obtain ⟨front, id, block, back, rfl, hblock, -, hreach, hcut⟩ :=
      h.exists_cut (Nat.pos_of_ne_zero hzero) (Nat.lt_of_not_le hsize)
    -- The blocks that are given back are some of those that the file counts.
    obtain ⟨hcount, -⟩ := h.cut hreach
    obtain ⟨hstored, hjoined, hnodup⟩ :=
      h.behind ((block.truncate (newSize - front.contents.length)).linkNext none)
    have hrelease := Chain.checkedRelease_eq (hsound.set id _) hstored hjoined hnodup
    have hfew : (Chain.release (blocks.set id ((block.truncate
        (newSize - front.contents.length)).linkNext none)) block.next).1 ≤ file.blocks := by
      rw [hcount, h.blocks_eq, List.length_append, List.length_cons]
      omega
    simp only [hcut, Cursor.inBlock, hblock, Slab.demand_of hblock, ok_bind, hrelease,
      require_of hfew]

/-- Filling the last block is faultless where the zeros can be counted. The block that is filled
is the last one of the chain, so it is there. -/
theorem Spans.checkedFillTail_eq (h : file.Spans blocks chain)
    (hsize : (file.fillTail blocks len).2.1.size < maxSize) :
    file.checkedFillTail blocks len = .ok (file.fillTail blocks len) := by
  have hopen := h.openTail_eq
  unfold File.fillTail at hsize ⊢
  unfold checkedFillTail
  cases htail : file.openTail blocks with
  | none => rfl
  | some tail =>
    -- The block that is filled is the last one of the chain.
    have hlast : file.tail = some tail := by
      rw [htail] at hopen
      split at hopen
      · exact hopen.symm
      · cases hopen
    obtain ⟨front, block, rfl⟩ := Chain.eq_concat_of_lastId (h.tail_eq.symm.trans hlast)
    have hblock := h.last_eq.2
    simp only [htail, fillBlock, hblock] at hsize
    simp only [checkedFillBlock, fillBlock, Slab.demand_of hblock, ok_bind, hblock,
      require_of (show block.occupied ≤ block.capacity from block.fits), checkedGrow_eq hsize]

/-- A copy is linked without fault where there is room for it and its bytes can be counted. The
block is there to be filled, as it was just linked. -/
theorem Spans.checkedLinkCopy_eq (h : file.Spans blocks chain) (hsound : blocks.Sound)
    {copy : Block} (hnext : copy.next = none)
    (hroom : (file.linkCopy blocks copy).2.2.len ≤ Slab.maxSlots)
    (hsize : (file.linkCopy blocks copy).2.1.size < maxSize) :
    file.checkedLinkCopy blocks copy = .ok (file.linkCopy blocks copy) := by
  rw [len_linkCopy, ← file.len_link blocks (copy.truncate 0)] at hroom
  obtain ⟨id, longer, stored, hlink, hedit⟩ :=
    h.link (show (copy.truncate 0).next = none from hnext)
  -- The block that was linked is the last one of the chain, so it is there to be filled.
  have hnew : stored.get? id = some _ :=
    hedit.spans.stored _ (List.mem_append_right _ (List.mem_singleton_self _))
  simp only [File.linkCopy, hlink] at hsize
  simp only [checkedLinkCopy, File.linkCopy, h.checkedLink_eq hsound _ hroom, hlink, ok_bind,
    Slab.demand_of hnew, checkedGrow_eq hsize]

/-- Linking copies is faultless where there is room for all of them. A copy holds at least one
byte, so the bytes asked for are fuel enough. -/
theorem Spans.checkedLinkCopies_eq {full : Block} (hnext : full.next = none)
    (hfilled : 0 < full.occupied) {fuel : Nat} (hfuel : len ≤ fuel) (h : file.Spans blocks chain)
    (hsound : blocks.Sound)
    (hroom : (linkCopies full fuel file blocks len).2.2.len ≤ Slab.maxSlots)
    (hsize : (linkCopies full fuel file blocks len).2.1.size < maxSize) :
    checkedLinkCopies full fuel file blocks len = .ok (linkCopies full fuel file blocks len) := by
  induction fuel generalizing file blocks chain len with
  | zero =>
    cases Nat.le_zero.mp hfuel
    rfl
  | succ fuel ih =>
    cases len with
    | zero => rfl
    | succ len =>
      have hoccupied : (full.truncate (len + 1)).occupied = min (len + 1) full.occupied :=
        full.occupied_truncate _
      obtain ⟨id, longer, stored, hlink, hedit⟩ :=
        h.linkCopy (show (full.truncate (len + 1)).next = none from hnext)
      simp only [linkCopies, hlink] at hroom hsize
      -- The storage only gets fuller and the file longer, so there was room for this copy too.
      obtain ⟨hlen, hless⟩ := grows_linkCopies full fuel longer stored
        (len + 1 - (full.truncate (len + 1)).occupied)
      have hcopy := h.checkedLinkCopy_eq hsound
        (show (full.truncate (len + 1)).next = none from hnext)
        (by rw [hlink]; exact Nat.le_trans hlen hroom)
        (by rw [hlink]; exact Nat.lt_of_le_of_lt hless hsize)
      simp only [checkedLinkCopies, linkCopies, hcopy, hlink, ok_bind,
        require_of (show (full.truncate (len + 1)).occupied ≤ len + 1 by omega)]
      exact ih (by omega) hedit.spans (hedit.exchange.sound hsound) hroom hsize

/-- Appending zeros in new blocks is faultless where there is room for them. A block of a capacity
above zero gets at least one of them. -/
theorem Spans.checkedAppendZeros_eq (hpos : 0 < capacity) (h : file.Spans blocks chain)
    (hsound : blocks.Sound)
    (hroom : (file.appendZeros blocks capacity len).2.2.len ≤ Slab.maxSlots)
    (hsize : (file.appendZeros blocks capacity len).2.1.size < maxSize) :
    file.checkedAppendZeros blocks capacity len = .ok (file.appendZeros blocks capacity len) := by
  unfold File.appendZeros at hroom hsize ⊢
  unfold checkedAppendZeros
  split
  · rfl
  · rename_i hlen
    rw [if_neg hlen] at hroom hsize
    cases hallocate : Block.allocate capacity with
    | error e => rfl
    | ok block =>
      rw [hallocate] at hroom hsize
      have hblock : block.next = none ∧ block.occupied = 0 ∧ block.capacity = capacity := by
        unfold Block.allocate at hallocate
        split at hallocate
        · cases hallocate
          exact ⟨rfl, rfl, rfl⟩
        · cases hallocate
      -- Without this the copies would hold nothing, and the loop over them would not end.
      have hfilled : 0 < (block.zeroFill len).occupied := by
        rw [Block.occupied_zeroFill, Block.zeroCount, Block.room]
        omega
      exact h.checkedLinkCopies_eq (show (block.zeroFill len).next = none from hblock.1)
        hfilled (Nat.le_refl len) hsound hroom hsize

/-- Zeros in new blocks leave the file no shorter, whether all of them get a block or not. -/
theorem size_le_appendZeros (file : File) (blocks : Slab Block) (capacity len : Nat) :
    file.size ≤ (file.appendZeros blocks capacity len).2.1.size := by
  unfold appendZeros
  split
  · exact Nat.le_refl _
  · split
    · exact Nat.le_refl _
    · exact (grows_linkCopies _ _ _ _ _).2

/-- An extension is faultless where there is room for the zeros, both those in the last block and
those in new ones. -/
theorem Spans.checkedExtendZeros_eq (hpos : 0 < capacity) (h : file.Spans blocks chain)
    (hsound : blocks.Sound)
    (hroom : (file.extendZeros blocks capacity len).2.2.len ≤ Slab.maxSlots)
    (hsize : (file.extendZeros blocks capacity len).2.1.size < maxSize) :
    file.checkedExtendZeros blocks capacity len = .ok (file.extendZeros blocks capacity len) := by
  obtain ⟨longer, stored, hfill, hedit⟩ := h.fillTail len
  simp only [File.extendZeros, hfill] at hroom hsize ⊢
  have hfilled : file.checkedFillTail blocks len = .ok (file.fillTail blocks len) :=
    h.checkedFillTail_eq
      (by rw [hfill]; exact Nat.lt_of_le_of_lt (size_le_appendZeros _ _ _ _) hsize)
  simp only [checkedExtendZeros, hfilled, hfill, ok_bind,
    require_of (Nat.min_le_left len chain.lastRoom)]
  exact hedit.spans.checkedAppendZeros_eq hpos (hedit.exchange.sound hsound) hroom hsize

end File

end Filestore
