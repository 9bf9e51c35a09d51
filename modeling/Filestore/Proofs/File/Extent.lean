import Filestore.Proofs.Chain.FillLast
import Filestore.Proofs.File.Spans

/-!
# `Filestore.Proofs.File.Extent`: what shrinking and growing do to a file

`Spans.truncate` says that `File.truncate` keeps the first bytes and the blocks they are in, and
`Spans.extendZeros` that `File.extendZeros` appends zeros behind the blocks that are there. Both
are edits, so nothing outside the file's chain is touched, and both keep a packed chain packed.

A truncation cuts where `Chain.locate` finds the new end, which is never at the start of a block
(`exists_split_of_locate`). So the block that is cut keeps a byte at least, and none of those that
stay is empty if none was.

An extension fills the last block first, whatever the chain looks like, and then links blocks to
it that are a packed chain of zeros of their own (`Spans.extendZeros_added`). Each step is an
equation with the result, the file and the storage that it gives, and an `Edit` of the file: the
last block is filled (`Spans.fillTail`), a copy is linked (`Spans.linkCopy`). On a file that spans
its chain none of these steps meets an expired handle, which is why they are stated with `.ok`.
The only failure left is that there can be no block of the capacity at all, and it comes before
any block is linked.
-/

set_option autoImplicit false

namespace Filestore

namespace Block

/-- The empty block of a capacity. -/
def ofCapacity (capacity : Nat) : Block := ⟨[], capacity, none, none, Nat.zero_le _⟩

/-- A block of a capacity that can be had is the empty one of that capacity. -/
theorem allocate_eq_ok {capacity : Nat} (hmax : capacity ≤ maxBuffer) :
    allocate capacity = .ok (ofCapacity capacity) := if_pos hmax

/-- A block of a larger capacity than any buffer can have is refused, as storage that cannot be
provided. -/
theorem allocate_eq_error {capacity : Nat} (hmax : maxBuffer < capacity) :
    allocate capacity = .error .oversizedBuffer := if_neg (Nat.not_le.mpr hmax)

/-- An empty block takes as many zeros as its capacity and holds nothing else. -/
theorem bytes_zeros (capacity len : Nat) :
    ((ofCapacity capacity).zeroFill len).bytes = List.replicate (min len capacity) 0 := rfl

/-- An empty block filled with zeros holds as many of them as its capacity lets it. -/
theorem occupied_zeros (capacity len : Nat) :
    ((ofCapacity capacity).zeroFill len).occupied = min len capacity := by
  rw [occupied, bytes_zeros, List.length_replicate]

/-- Zeros that are cut are fewer zeros: a full block of zeros that is cut is a block filled with
fewer. -/
theorem truncate_zeros (capacity : Nat) {total len : Nat} (hlen : len ≤ total) :
    ((ofCapacity capacity).zeroFill total).truncate len = (ofCapacity capacity).zeroFill len := by
  have hbytes : ((ofCapacity capacity).zeroFill total).bytes.take len
      = ((ofCapacity capacity).zeroFill len).bytes := by
    rw [bytes_zeros, bytes_zeros, List.take_replicate, ← Nat.min_assoc, Nat.min_eq_left hlen]
  simp only [truncate, hbytes]
  rfl

end Block

namespace Chain

/-- A position inside a chain is found in the block that first reaches it, past the start of that
block. -/
theorem exists_split_of_locate {chain : Chain} {pos : Nat} (hpos : 0 < pos)
    (hle : pos ≤ chain.contents.length) :
    ∃ (front : Chain) (id : BlockId) (block : Block) (back : Chain),
      chain = front ++ (id, block) :: back ∧
      front.contents.length < pos ∧ pos - front.contents.length ≤ block.occupied ∧
      locate pos chain = Cursor.inBlock id (pos - front.contents.length) := by
  -- Each block that does not reach the position is put in front of what is found in the rest.
  induction chain generalizing pos with
  | nil =>
    simp at hle
    omega
  | cons entry rest ih =>
    obtain ⟨id, block⟩ := entry
    rw [length_contents_cons] at hle
    by_cases hfirst : pos ≤ block.occupied
    · refine ⟨[], id, block, rest, rfl, by simpa using hpos, by simpa using hfirst, ?_⟩
      exact locate_cons_of_le hfirst rest
    · obtain ⟨front, other, last, back, rfl, hlt, hreach, hlocate⟩ :=
        ih (Nat.sub_pos_of_lt (Nat.lt_of_not_le hfirst)) (by simp only at hle; omega)
      refine ⟨(id, block) :: front, other, last, back, rfl, ?_, ?_, ?_⟩
      · rw [length_contents_cons]
        simp only
        omega
      · rw [length_contents_cons]
        simp only
        omega
      · rw [locate, if_neg hfirst, hlocate, length_contents_cons, Nat.sub_sub]
        simp

end Chain

namespace File

variable {file : File} {blocks : Slab Block} {chain : Chain}

/-- A cut inside a file is found in a block that is in storage, and leaves it a byte. -/
theorem Spans.exists_cut (h : file.Spans blocks chain) {newSize : Nat} (hpos : 0 < newSize)
    (hlt : newSize < file.size) :
    ∃ (front : Chain) (id : BlockId) (block : Block) (back : Chain),
      chain = front ++ (id, block) :: back ∧ blocks.get? id = some block ∧
      front.contents.length < newSize ∧ newSize - front.contents.length ≤ block.occupied ∧
      file.locate blocks newSize = Cursor.inBlock id (newSize - front.contents.length) := by
  obtain ⟨front, id, block, back, hchain, hfront, hreach, hlocate⟩ :=
    Chain.exists_split_of_locate hpos (Nat.le_of_lt (h.size_eq ▸ hlt))
  refine ⟨front, id, block, back, hchain, ?_, hfront, hreach, ?_⟩
  · exact h.stored (id, block) (hchain ▸ List.mem_append_right _ List.mem_cons_self)
  · rw [File.locate, h.chain_eq, hlocate]

/-- A truncation to no bytes gives every block back and succeeds. -/
theorem Spans.truncate_zero (h : file.Spans blocks chain) (hlt : 0 < file.size) :
    (file.truncate blocks 0).1 = .ok () ∧
      file.Edit blocks chain (file.truncate blocks 0).2.1 (file.truncate blocks 0).2.2 [] := by
  simp only [File.truncate, if_neg (Nat.not_le.mpr hlt), if_true]
  exact ⟨trivial, h.release.2⟩

/-- A truncation inside a file cuts the block that first reaches the new end, and keeps the blocks
before that one as they are. -/
theorem Spans.truncate_inside (h : file.Spans blocks chain) {newSize : Nat} (hpos : 0 < newSize)
    (hlt : newSize < file.size) :
    ∃ (front : Chain) (id : BlockId) (block : Block) (back : Chain),
      chain = front ++ (id, block) :: back ∧
      front.contents.length < newSize ∧ newSize - front.contents.length ≤ block.occupied ∧
      (file.truncate blocks newSize).1 = .ok () ∧
      file.Edit blocks chain (file.truncate blocks newSize).2.1 (file.truncate blocks newSize).2.2
        (front ++ [(id, (block.truncate (newSize - front.contents.length)).linkNext none)]) := by
  obtain ⟨front, id, block, back, rfl, hblock, hfront, hreach, hcut⟩ := h.exists_cut hpos hlt
  obtain ⟨-, hedit⟩ := h.cut hreach
  rw [Nat.add_sub_of_le (Nat.le_of_lt hfront)] at hedit
  simp only [File.truncate, if_neg (Nat.not_le.mpr hlt), if_neg (Nat.pos_iff_ne_zero.mp hpos), hcut,
    Cursor.inBlock, hblock]
  exact ⟨front, id, block, back, rfl, hfront, hreach, trivial, hedit⟩

/-- A truncation keeps the first bytes, in the blocks they are in, and always succeeds. A size
that the file does not reach changes nothing. -/
theorem Spans.truncate (h : file.Spans blocks chain) (newSize : Nat) :
    ∃ chain', (file.truncate blocks newSize).1 = .ok () ∧
      file.Edit blocks chain (file.truncate blocks newSize).2.1
        (file.truncate blocks newSize).2.2 chain' ∧
      chain'.contents = chain.contents.take newSize ∧ chain'.ids <+: chain.ids ∧
      ∀ capacity, chain.Packed capacity → chain'.Packed capacity := by
  -- There is nothing to cut, or nothing is left, or the cut is inside the chain.
  by_cases hsize : file.size ≤ newSize
  · simp only [File.truncate, if_pos hsize]
    refine ⟨chain, trivial, h.edit_self, ?_, List.prefix_refl _, fun _ => id⟩
    rw [List.take_of_length_le (h.size_eq ▸ hsize)]
  have hlt := Nat.lt_of_not_le hsize
  rcases Nat.eq_zero_or_pos newSize with rfl | hpos
  · obtain ⟨hok, hedit⟩ := h.truncate_zero hlt
    exact ⟨[], hok, hedit, rfl, List.nil_prefix, fun capacity _ => Chain.packed_nil capacity⟩
  · obtain ⟨front, id, block, back, rfl, hfront, hreach, hok, hedit⟩ := h.truncate_inside hpos hlt
    refine ⟨_, hok, hedit, ?_, ?_, ?_⟩
    · rw [Chain.contents_append, Chain.contents_append, Chain.contents_cons, Chain.contents_cons,
        List.take_append, List.take_of_length_le (Nat.le_of_lt hfront),
        List.take_append_of_le_length hreach]
      simp [Block.linkNext, Block.truncate]
    · rw [Chain.ids_append, Chain.ids_append]
      exact List.prefix_append_right_inj _ |>.mpr ⟨Chain.ids back, rfl⟩
    · intro capacity hpacked
      have hmem := List.mem_append_right front (List.mem_cons_self (a := (id, block)) (l := back))
      refine { toUniform := Chain.uniform_concat.mpr ⟨?_, ?_⟩, filled := ?_ }
      · intro entry hentry
        exact ⟨hpacked.capacity_eq _ (List.mem_append_left _ hentry),
          hpacked.full_of_append entry hentry⟩
      · exact hpacked.capacity_eq (id, block) hmem
      · intro entry hentry
        rcases List.mem_append.mp hentry with hentry | hentry
        · exact hpacked.filled entry (List.mem_append_left _ hentry)
        · rw [List.mem_singleton.mp hentry]
          show 0 < (block.truncate _).occupied
          rw [Block.occupied_truncate]
          omega

/-- The last block is there to be filled just if it has room for a byte. A full one is as good as
none. -/
theorem Spans.openTail_eq (h : file.Spans blocks chain) :
    file.openTail blocks = if 0 < chain.lastRoom then file.tail else none := by
  rcases List.eq_nil_or_concat' chain with rfl | ⟨front, ⟨last, block⟩, rfl⟩
  · have htail : file.tail = none := h.tail_eq
    rw [openTail, htail, ite_self]
    rfl
  · obtain ⟨htail, hblock⟩ := h.last_eq
    have hfits := block.fits
    have hroom : block.isFull = false ↔ 0 < block.room := by
      rw [Block.isFull, beq_eq_false_iff_ne]
      unfold Block.room Block.occupied
      omega
    rw [openTail, htail, Chain.lastRoom_concat]
    simp only [Option.filter, hblock, Option.any_some, Bool.not_eq_true', hroom]

/-- Filling the last block puts zeros into it, all of them or as many as fit, and says how many. -/
theorem Spans.fillTail (h : file.Spans blocks chain) (len : Nat) :
    ∃ longer stored,
      file.fillTail blocks len = (.ok (min len chain.lastRoom), longer, stored) ∧
      file.Edit blocks chain longer stored (chain.fillLast len) := by
  rw [File.fillTail, h.openTail_eq]
  by_cases hroom : 0 < chain.lastRoom
  · rw [if_pos hroom]
    rcases List.eq_nil_or_concat' chain with rfl | ⟨front, ⟨last, block⟩, rfl⟩
    · cases hroom
    · obtain ⟨htail, hblock⟩ := h.last_eq
      have hedit := h.replace (show (block.zeroFill len).prev = block.prev from rfl) rfl
        (block.occupied_zeroFill len)
      simp only [htail, fillBlock, hblock, Chain.lastRoom_concat, Chain.fillLast_concat]
      exact ⟨_, _, rfl, hedit⟩
  · have hzero := Nat.eq_zero_of_not_pos hroom
    rw [if_neg hroom, Chain.fillLast_eq_self hzero, hzero, Nat.min_zero]
    exact ⟨file, blocks, rfl, h.edit_self⟩

/-- A block that is linked empty and then gets its bytes is linked with them. The handle of the
link is good, so the bytes have a block to go to. -/
theorem Spans.linkCopy (h : file.Spans blocks chain) {copy : Block} (hnext : copy.next = none) :
    ∃ id longer stored, file.linkCopy blocks copy = (.ok (), longer, stored) ∧
      file.Edit blocks chain longer stored (chain.push id copy) := by
  obtain ⟨id, longer, stored, hlink, hedit⟩ :=
    h.link (show (copy.truncate 0).next = none from hnext)
  simp only [File.linkCopy, hlink, h.tail_eq]
  exact ⟨id, _, _, rfl, hedit.trans (hedit.spans.replace rfl rfl (Nat.zero_add _).symm)⟩

/-- A file to which no block is added stays as it was: its last block leads nowhere already. -/
theorem Spans.edit_added_nil (h : file.Spans blocks chain) :
    file.Edit blocks chain file blocks (chain.withNext none ++ []) := by
  rw [h.joined.withNext_none, List.append_nil]
  exact h.edit_self

/-- Linking copies of a block of zeros appends zeros, in blocks of their own. Each copy but the
last one is a whole block. -/
theorem linkCopies_spec {capacity : Nat} {full : Block} (hnext : full.next = none)
    (hcapacity : full.capacity = capacity) (hzeros : full.bytes = List.replicate full.occupied 0)
    (hfilled : 0 < full.occupied) {fuel len : Nat} (hfuel : len ≤ fuel)
    (hwhole : full.occupied < len → full.occupied = capacity) (h : file.Spans blocks chain) :
    ∃ added : Chain, (linkCopies full fuel file blocks len).1 = .ok () ∧
      file.Edit blocks chain (linkCopies full fuel file blocks len).2.1
        (linkCopies full fuel file blocks len).2.2 (chain.withNext added.ids.head? ++ added) ∧
      added.contents = List.replicate len 0 ∧ added.Packed capacity := by
  -- Each copy holds a byte, so as much fuel as there are zeros is enough.
  induction fuel generalizing file blocks chain len with
  | zero =>
    cases Nat.le_zero.mp hfuel
    exact ⟨[], rfl, h.edit_added_nil, rfl, Chain.packed_nil capacity⟩
  | succ fuel ih =>
    cases len with
    | zero => exact ⟨[], rfl, h.edit_added_nil, rfl, Chain.packed_nil capacity⟩
    | succ len =>
      have hoccupied : (full.truncate (len + 1)).occupied = min (len + 1) full.occupied :=
        full.occupied_truncate _
      have hbytes : (full.truncate (len + 1)).bytes
          = List.replicate (min (len + 1) full.occupied) 0 := by
        show full.bytes.take (len + 1) = _
        rw [hzeros, List.take_replicate]
      obtain ⟨id, longer, stored, hlink, hedit⟩ :=
        h.linkCopy (show (full.truncate (len + 1)).next = none from hnext)
      have hless : len + 1 - (full.truncate (len + 1)).occupied ≤ fuel := by omega
      obtain ⟨added, hok, hedit', hcontents, hpacked⟩ := ih hless (by omega) hedit.spans
      simp only [linkCopies, hlink]
      -- The block linked here leads to the first one that is linked after it.
      rw [Chain.push, Chain.withNext_concat, List.append_assoc] at hedit'
      let linked := (full.truncate (len + 1)).linkPrev (Chain.lastId none chain)
      refine ⟨(id, linked.linkNext added.ids.head?) :: added, hok, ?_, ?_, ?_⟩
      · rw [Chain.push] at hedit
        exact hedit.trans hedit'
      · rw [Chain.contents_cons, hcontents, hoccupied]
        show (full.truncate (len + 1)).bytes ++ _ = _
        rw [hbytes, List.replicate_append_replicate, Nat.add_sub_of_le (Nat.min_le_left _ _)]
      · refine (Chain.packed_singleton hcapacity ?_).append hpacked ?_
        · show 0 < (full.truncate (len + 1)).occupied
          omega
        · -- Blocks after this one hold zeros, and some are left only if it is a whole block.
          intro hne entry hentry
          have hrest := mt hpacked.eq_nil_iff.mpr hne
          rw [hcontents, List.length_replicate] at hrest
          rw [List.mem_singleton.mp hentry]
          show (full.truncate (len + 1)).occupied = capacity
          omega

/-- Appending zeros in new blocks succeeds where there can be such blocks, and takes as few as
have room. -/
theorem Spans.appendZeros {capacity : Nat} (hpos : 0 < capacity) (hmax : capacity ≤ Block.maxBuffer)
    (h : file.Spans blocks chain) (len : Nat) :
    ∃ added : Chain, (file.appendZeros blocks capacity len).1 = .ok () ∧
      file.Edit blocks chain (file.appendZeros blocks capacity len).2.1
        (file.appendZeros blocks capacity len).2.2 (chain.withNext added.ids.head? ++ added) ∧
      added.contents = List.replicate len 0 ∧ added.Packed capacity := by
  unfold File.appendZeros
  split
  · rename_i hzero
    subst hzero
    exact ⟨[], rfl, h.edit_added_nil, rfl, Chain.packed_nil capacity⟩
  · rename_i hlen
    simp only [Block.allocate_eq_ok hmax]
    -- The block of zeros that is copied is full, or holds all zeros that are left.
    have hoccupied := Block.occupied_zeros capacity len
    have hzeros : ((Block.ofCapacity capacity).zeroFill len).bytes
        = List.replicate ((Block.ofCapacity capacity).zeroFill len).occupied 0 := by
      rw [hoccupied, Block.bytes_zeros]
    have hcapacity : ((Block.ofCapacity capacity).zeroFill len).capacity = capacity := rfl
    exact linkCopies_spec rfl hcapacity hzeros (by omega) (Nat.le_refl len) (by omega) h

/-- An extension puts zeros into the last block, as many as fit, and the others into new blocks
behind it. The chain may have had blocks of other capacities. -/
theorem Spans.extendZeros_added {capacity : Nat} (hpos : 0 < capacity)
    (hmax : capacity ≤ Block.maxBuffer) (h : file.Spans blocks chain) (len : Nat) :
    ∃ added : Chain, (file.extendZeros blocks capacity len).1 = .ok () ∧
      file.Edit blocks chain (file.extendZeros blocks capacity len).2.1
        (file.extendZeros blocks capacity len).2.2
        ((chain.fillLast len).withNext added.ids.head? ++ added) ∧
      added.contents = List.replicate (len - min len chain.lastRoom) 0 ∧ added.Packed capacity := by
  obtain ⟨longer, stored, hfill, hedit⟩ := h.fillTail len
  obtain ⟨added, hok, hedit', hcontents, hpacked⟩ :=
    hedit.spans.appendZeros hpos hmax (len - min len chain.lastRoom)
  simp only [File.extendZeros, hfill]
  exact ⟨added, hok, hedit.trans hedit', hcontents, hpacked⟩

/-- An extension appends zeros behind the blocks that are there, and keeps a packed chain packed. -/
theorem Spans.extendZeros {capacity : Nat} (hpos : 0 < capacity) (hmax : capacity ≤ Block.maxBuffer)
    (h : file.Spans blocks chain) (hpacked : chain.Packed capacity) (len : Nat) :
    ∃ chain', (file.extendZeros blocks capacity len).1 = .ok () ∧
      file.Edit blocks chain (file.extendZeros blocks capacity len).2.1
        (file.extendZeros blocks capacity len).2.2 chain' ∧
      chain'.contents = chain.contents ++ List.replicate len 0 ∧ chain.ids <+: chain'.ids ∧
      chain'.Packed capacity := by
  obtain ⟨added, hok, hedit, hcontents, hadded⟩ := h.extendZeros_added hpos hmax len
  refine ⟨_, hok, hedit, ?_, ?_, ((hpacked.fillLast len).withNext _).append hadded ?_⟩
  · rw [Chain.contents_append, Chain.contents_withNext, Chain.contents_fillLast, hcontents,
      List.append_assoc, List.replicate_append_replicate, Nat.add_sub_of_le (Nat.min_le_left _ _)]
  · rw [Chain.ids_append, Chain.ids_withNext, Chain.ids_fillLast]
    exact List.prefix_append _ _
  · -- Zeros are left for new blocks only where the last one has no more room.
    intro hne entry hentry
    have hrest := mt hadded.eq_nil_iff.mpr hne
    rw [hcontents, List.length_replicate] at hrest
    have hroom := Chain.lastRoom_fillLast len chain
    obtain ⟨old, hold, -, hbytes, -⟩ := Chain.mem_withNext hentry
    have hfull := (hpacked.fillLast len).full_of_lastRoom (by omega) old hold
    rw [← hfull, Block.occupied, hbytes]
    rfl

end File

end Filestore
