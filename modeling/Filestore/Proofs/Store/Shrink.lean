import Filestore.Proofs.File.Shrink
import Filestore.Proofs.Store.Reachable

/-!
# `Filestore.Proofs.Store.Shrink`: what a store keeps when a file shrinks

A resize to fewer bytes keeps the first blocks of the file in place (`File.Shrunk`) and finds every
cursor in it again by its position, through whatever descriptor it is. A cursor within the new end
is found where it was, in the same block at the same offset, and one past it is found at the end of
the last block that is kept (`Store.Clamped`). The position between two blocks has two cursors, and
the first block after the cut may be gone: cursors are settled between calls, so they are in the
earlier block, and `Chain.locate` finds the earlier one too.

The positions can be taken down before the cut (`File.mark`) and the cursors found again after it
(`File.resume`), each for the descriptor that its position was taken from: numbers in between that
are free, or open on other files, do not get in the way (`DescriptorTable.handOut_boundTo`).

`Store.CutDown` says all that happens to the store, and `Reachable.resize_shrinks` that it does.
-/

set_option autoImplicit false

namespace Filestore

open FlatStore (blocksFor)

namespace DescriptorTable

/-- Gives cursors to the descriptors in slots that are open on a file, one after another, for as
long as there are any. -/
def handOutFrom (file : FileId) : List (Option Descriptor) → List Cursor → List (Option Descriptor)
  | [], _ => []
  | none :: slots, cursors => none :: handOutFrom file slots cursors
  | some descriptor :: slots, cursors =>
    if descriptor.file = file then
      match cursors with
      | [] => some descriptor :: slots
      | cursor :: rest => some { descriptor with cursor } :: handOutFrom file slots rest
    else some descriptor :: handOutFrom file slots cursors

/-- Gives cursors to the descriptors that are open on a file, by ascending number. -/
def handOut (table : DescriptorTable) (file : FileId) (cursors : List Cursor) : DescriptorTable :=
  { table with slots := (handOutFrom file table.slots.toList cursors).toArray }

/-- Cursors that are made of those of a file, and handed out again in the same order, are moved:
each descriptor gets the one that was made of its own. -/
theorem handOut_boundTo (table : DescriptorTable) (file : FileId) (move : Cursor → Cursor) :
    table.handOut file ((table.boundTo file).map fun descriptor => move descriptor.cursor)
      = table.mapCursors file move := by
  -- As many cursors are taken from the first slots as are handed out to them.
  have hslots : ∀ slots : List (Option Descriptor),
      handOutFrom file slots ((slots.filterMap fun slot =>
          slot.filter fun descriptor => descriptor.file = file).map fun descriptor =>
        move descriptor.cursor)
      = slots.map fun slot => slot.map fun descriptor =>
          if descriptor.file = file then { descriptor with cursor := move descriptor.cursor }
          else descriptor := by
    intro slots
    induction slots with
    | nil => rfl
    | cons slot slots ih =>
      cases slot with
      | none => simp only [List.filterMap_cons, Option.filter_none, handOutFrom, ih, List.map_cons,
          Option.map_none]
      | some descriptor =>
        by_cases hfile : descriptor.file = file
        · simp [handOutFrom, hfile, Option.filter_some, ih]
        · simp [handOutFrom, hfile, Option.filter_some, ih]
  rw [handOut, boundTo, hslots, mapCursors, ← Array.toList_map, Array.toArray_toList]

end DescriptorTable

namespace File

/-- What is taken down of a cursor before its file is cut: its position, if it is set. -/
def mark (file : File) (blocks : Slab Block) (cursor : Cursor) : Option Nat :=
  if cursor.isUnset then none else some ((file.position blocks cursor).getD 0)

/-- The cursor that what was taken down leads to, in a file of `newSize` bytes. -/
def resume (file : File) (blocks : Slab Block) (newSize : Nat) : Option Nat → Cursor
  | none => Cursor.unset
  | some pos => file.locate blocks (min pos newSize)

end File

namespace Store

/-- Where a cursor at position `pos` goes when its file is cut down to `newSize` bytes, which are in
the blocks of the chain.

- `unset`: a cursor that has not touched the file stays so.
- `emptied`: in a file without bytes, no cursor is set.
- `kept`: a set cursor within the new end stays where it is.
- `clamped`: a cursor past the new end goes to the end of the last block. -/
structure Clamped (chain : Chain) (newSize pos : Nat) (cursor cursor' : Cursor) : Prop where
  unset : cursor.block = none → cursor' = Cursor.unset
  emptied : newSize = 0 → cursor' = Cursor.unset
  kept : cursor.block ≠ none → 0 < newSize → pos ≤ newSize → cursor' = cursor
  clamped : 0 < newSize → newSize < pos → ∃ last,
    chain.getLast? = some last ∧ cursor' = Cursor.inBlock last.1 last.2.occupied

variable {config : Config} {store : Store} {fd newSize : Nat} {descriptor : Descriptor}
  {file file' : File} {id : FileId} {blocks' : Slab Block} {chain : Chain}

/-- A cursor that is found again in the blocks that are kept is clamped. Within the new end it is
where it was, as it is settled and its position is in the same block. -/
theorem relocated_clamped {capacity pos : Nat} {before after : Chain} {cursor : Cursor}
    (hbefore : before.Packed capacity) (hnodup : before.ids.Nodup) (hafter : after.Packed capacity)
    (hids : after.ids <+: before.ids) (hlength : after.contents.length = newSize)
    (hstands : before.Stands cursor pos) (hsettled : before.Settled cursor) :
    Clamped after newSize pos cursor (relocated before after newSize cursor) := by
  have hnodup' : after.ids.Nodup := hnodup.sublist hids.sublist
  have hposition := hstands.position_eq hnodup
  obtain ⟨block, offset⟩ := cursor
  cases block with
  | none =>
    have hzero : pos = 0 := (Option.some.inj hposition).symm
    exact ⟨fun _ => rfl, fun _ => rfl, fun hset => absurd rfl hset, fun _ hlt => by omega⟩
  -- A set cursor is looked for at its position, or at the new end if that comes first.
  | some id =>
    have hfound : relocated before after newSize ⟨some id, offset⟩
        = after.locate (min pos newSize) := by
      rw [relocated, hposition]
      rfl
    rw [hfound]
    refine ⟨fun hunset => absurd hunset (Option.some_ne_none id), ?_, ?_, ?_⟩
    · intro hzero
      rw [hafter.eq_nil_iff.mpr (hlength.trans hzero)]
      rfl
    · -- The block of the byte before the position is kept, in its place.
      intro _ hpos hle
      have hne : after ≠ [] := fun hnil => by
        rw [hafter.eq_nil_iff, hlength] at hnil
        omega
      obtain ⟨hid, hoffset⟩ := hbefore.toUniform.settled_eq hnodup hstands hsettled
      obtain ⟨other, hother, hlocate⟩ := hafter.locate_eq hnodup' hne (hlength ▸ hle)
      obtain rfl := Option.some.inj (hid.symm.trans (Chain.getElem?_of_prefix hids hother))
      rw [Nat.min_eq_left hle, hlocate, hoffset]
      rfl
    · -- Past the end, what is found is the end of the last block.
      intro hpos hlt
      rcases List.eq_nil_or_concat after with rfl | ⟨front, ⟨last, block⟩, rfl⟩
      · exact absurd hlength (Nat.ne_of_lt hpos)
      · rw [List.concat_eq_append] at hafter hnodup' hlength ⊢
        refine ⟨(last, block), List.getLast?_concat, ?_⟩
        have hend : newSize = (Chain.contents front).length + block.occupied := by
          rw [← hlength, Chain.contents_append, List.length_append, Chain.length_contents_cons]
          rfl
        rw [Nat.min_eq_right (Nat.le_of_lt hlt), hend, hafter.locate_length hnodup']

/-- A cursor is found again from what was taken down of it before the cut: its position, if it was
set. -/
theorem relocated_eq_resume (file file' : File) (blocks blocks' : Slab Block) (newSize : Nat)
    (cursor : Cursor) :
    relocated (file.chain blocks) (file'.chain blocks') newSize cursor
      = file'.resume blocks' newSize (file.mark blocks cursor) := by
  obtain ⟨block, offset⟩ := cursor
  cases block <;> rfl

/-- The store `after` is the store with the file `id` cut down to `newSize` bytes.

- `before`: the handle denoted the file.
- `left`: it denotes what is left of it.
- `shrunk`: the file keeps its first blocks, and only its other blocks are out of storage.
- `cursors`: every cursor in the file is clamped, and its position too.
- `handed_out`: the cursors are those for the positions taken down before.
- `unbound`: a number that is not open on the file denotes what it denoted.
- `slots`: the table has as many slots.
- `free_eq`: the same numbers are free.
- `active_eq`: and as many are in use.
- `others`: another handle denotes the file that it denoted.
- `directory_eq`: the names stay.
- `config_eq`: the settings stay.
- `kind`: nothing went wrong. -/
structure CutDown (store after : Store) (id : FileId) (file file' : File) (newSize : Nat) :
    Prop where
  before : store.file? id = some file
  left : after.file? id = some file'
  shrunk : File.Shrunk store.config.blockSize store.blocks after.blocks file file' newSize
  cursors : ∀ number bound, store.descriptors.get? number = some bound → bound.file = id →
    ∃ pos cursor', file.position store.blocks bound.cursor = some pos ∧
      after.descriptors.get? number = some { bound with cursor := cursor' } ∧
      Clamped (file'.chain after.blocks) newSize pos bound.cursor cursor' ∧
      file'.position after.blocks cursor' = some (min pos newSize)
  handed_out : after.descriptors = store.descriptors.handOut id
    ((store.descriptors.boundTo id).map fun bound =>
      file'.resume after.blocks newSize (file.mark store.blocks bound.cursor))
  unbound : ∀ number, (∀ bound, store.descriptors.get? number = some bound → bound.file ≠ id) →
    after.descriptors.get? number = store.descriptors.get? number
  slots : after.descriptors.slots.size = store.descriptors.slots.size
  free_eq : after.descriptors.free = store.descriptors.free
  active_eq : after.descriptors.active = store.descriptors.active
  others : ∀ other, other ≠ id → after.file? other = store.file? other
  directory_eq : after.catalog.directory = store.catalog.directory
  config_eq : after.config = store.config
  kind : after.lastError = .noError

/-- The store with what is left of a file after a cut, and the cursors in it found again. -/
def cutDown (store : Store) (id : FileId) (file file' : File) (blocks' : Slab Block)
    (newSize : Nat) : Store :=
  { store.edited id file' blocks' (store.descriptors.mapCursors id
      (relocated (file.chain store.blocks) (file'.chain blocks') newSize)) with
    lastError := .noError }

/-- A resize to fewer bytes cuts the file down: it succeeds, and the store is the one with what is
left of the file and the cursors in it found again. -/
theorem Sound.resize_eq_cutDown (h : store.Sound)
    (hget : store.descriptors.get? fd = some descriptor)
    (hfile : store.file? descriptor.file = some file) (hlt : newSize < file.size) :
    store.resize fd newSize = (.ok (), store.cutDown descriptor.file file
      (file.truncate store.blocks newSize).2.1 (file.truncate store.blocks newSize).2.2
      newSize) := by
  have hwithin := (h.storage.within descriptor.file file hfile).of_le (Nat.le_of_lt hlt)
  obtain ⟨-, hok, -⟩ := (h.spans hfile).truncate newSize
  simp only [resize, opened_eq hget hfile, if_pos (allows_iff.mpr hwithin),
    if_neg (Nat.not_le.mpr hlt), shorten]
  generalize file.truncate store.blocks newSize = truncated at hok ⊢
  obtain ⟨result, shorter, blocks⟩ := truncated
  cases hok
  rfl

/-- A file that was cut down leaves its cursors clamped, and the others where they were. Which
numbers are in use and which are free does not change. -/
theorem Sound.cutDown_spec (h : store.Sound) (hfile : store.file? id = some file)
    (hedit : file.Edit store.blocks (store.chainOf id) file' blocks' chain)
    (hids : chain.ids <+: (store.chainOf id).ids) (hpacked : chain.Packed store.config.blockSize)
    (hlength : chain.contents.length = newSize)
    (hshrunk : File.Shrunk store.config.blockSize store.blocks blocks' file file' newSize) :
    CutDown store (store.cutDown id file file' blocks' newSize) id file file' newSize := by
  have hspans := h.spans hfile
  have hmove : relocated (file.chain store.blocks) (file'.chain blocks') newSize
      = relocated (store.chainOf id) chain newSize := by
    rw [hspans.chain_eq, hedit.spans.chain_eq]
  have hget : ∀ number, (store.cutDown id file file' blocks' newSize).descriptors.get? number
      = (store.descriptors.get? number).map fun bound => { bound with
          cursor := if bound.file = id then relocated (store.chainOf id) chain newSize bound.cursor
            else bound.cursor } :=
    hmove ▸ store.descriptors.get?_mapCursors id _
  refine ⟨hfile, Slab.get?_set_self hfile file', hshrunk, ?_, ?_, ?_, Array.size_map, rfl, rfl,
    fun other hne => Slab.get?_set_of_ne hne file', rfl, rfl, rfl⟩
  · -- The cursors in the file: each was in its chain and is found again in what is left of it.
    intro number bound hbound hid
    obtain ⟨pos, hstands, hsettled⟩ := (h.accounts id).cursor hbound hid
    refine ⟨pos, relocated (store.chainOf id) chain newSize bound.cursor, ?_, ?_, ?_, ?_⟩
    · exact hspans.position_eq hstands
    · rw [hget, hbound, Option.map_some, if_pos hid]
    · show Clamped (file'.chain blocks') newSize pos bound.cursor _
      rw [hedit.spans.chain_eq]
      exact relocated_clamped (h.storage.packed id) hspans.nodup hpacked hids hlength hstands
        hsettled
    · exact hedit.spans.position_eq (stands_relocated hstands hspans.nodup hlength)
  · -- Moving the cursors by one function is taking positions down and handing cursors out.
    have hresume : relocated (file.chain store.blocks) (file'.chain blocks') newSize
        = fun cursor => file'.resume blocks' newSize (file.mark store.blocks cursor) :=
      funext (relocated_eq_resume file file' store.blocks blocks' newSize)
    show store.descriptors.mapCursors id _ = _
    rw [hresume]
    exact (store.descriptors.handOut_boundTo id _).symm
  · intro number hbound
    rw [hget]
    cases hnumber : store.descriptors.get? number with
    | none => rfl
    | some bound => rw [Option.map_some, if_neg (hbound bound hnumber)]

/-- What a resize to fewer bytes does to a store, whatever descriptor it is made through: it
succeeds, and the file is cut down. -/
theorem Reachable.resize_shrinks (h : Reachable config store)
    (hget : store.descriptors.get? fd = some descriptor)
    (hfile : store.file? descriptor.file = some file) (hlt : newSize < file.size) :
    (store.resize fd newSize).1 = .ok () ∧ ∃ file',
      CutDown store (store.resize fd newSize).2 descriptor.file file file' newSize := by
  have hspans := h.sound.spans hfile
  have hpacked := h.sound.storage.packed descriptor.file
  obtain ⟨chain, -, hedit, hcontents, hids, hkeeps⟩ := hspans.truncate newSize
  have hlength : chain.contents.length = newSize := by
    rw [hcontents, List.length_take, ← hspans.size_eq, Nat.min_eq_left (Nat.le_of_lt hlt)]
  rw [h.sound.resize_eq_cutDown hget hfile hlt]
  exact ⟨rfl, _, h.sound.cutDown_spec hfile hedit hids (hkeeps _ hpacked) hlength
    (hspans.shrunk h.sound.storage.blocks_sound hpacked store.config.blockSize_pos hlt)⟩

/-- The cut is at the end of a block. The cursor there stays, the one behind it comes there, and the
one that the file is cut through is not set. In between are a number of another file and a free
one. -/
theorem resize_shrinks_boundary :
    let config : Config := ⟨4, some 20, by decide, by decide⟩
    let store := ((empty config).performAll
      [.openFile "a" true, .openFile "b" true, .openFile "a" false, .openFile "a" false,
        .openFile "a" false, .write 0 [1, 2, 3, 4, 5, 6, 7, 8, 9, 10], .write 1 [11, 12],
        .read 2 8, .close 3]).2
    let file : File := ⟨"a", some ⟨0, 0⟩, some ⟨2, 0⟩, 3, false, 10, 3⟩
    let after := (store.resize 4 8).2
    Reachable config store ∧ store.descriptors.get? 4 = some (Descriptor.onFile ⟨0, 0⟩) ∧
      store.file? ⟨0, 0⟩ = some file ∧ 8 < file.size ∧
      (store.resize 4 8).1 = .ok () ∧ (∃ file', CutDown store after ⟨0, 0⟩ file file' 8) ∧
      (List.range 5).map after.descriptors.get? =
        [some ⟨⟨0, 0⟩, Cursor.inBlock ⟨1, 0⟩ 4⟩, some ⟨⟨1, 0⟩, Cursor.inBlock ⟨3, 0⟩ 2⟩,
          some ⟨⟨0, 0⟩, Cursor.inBlock ⟨1, 0⟩ 4⟩, none, some (Descriptor.onFile ⟨0, 0⟩)] := by
  intro config store file after
  have h : Reachable config store := reachable_iff_exists_performAll.mpr ⟨_, rfl⟩
  have hget : store.descriptors.get? 4 = some (Descriptor.onFile ⟨0, 0⟩) := by decide +kernel
  have hfile : store.file? ⟨0, 0⟩ = some file := by decide +kernel
  have hlt : 8 < file.size := by decide +kernel
  obtain ⟨hok, hcut⟩ := h.resize_shrinks hget hfile hlt
  exact ⟨h, hget, hfile, hlt, hok, hcut, by decide +kernel⟩

end Store

end Filestore
