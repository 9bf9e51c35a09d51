import Filestore.File.Basic

/-!
# `Filestore.Descriptor`: open files by number

A `Descriptor` is an open file and a cursor on it. The `DescriptorTable` numbers descriptors from
zero: `allocate` gives the lowest number not in use, and a table without a free slot doubles
itself. A number that was released is free again, and is given out again before any higher one.

The table keeps three views of the same thing, which every operation moves together: the slots,
the ascending list of the empty ones, and the number of the others. That they agree is the
invariant `DescriptorTable.Sound` of `Filestore.Proofs.Descriptor`; the definitions here do not
check it, and an insertion into the list of free numbers drops a number that is already there.

Two operations are about a file and not about a number: `boundTo` lists the descriptors on it, and
`mapCursors` moves the cursors of all of them at once, which truncating a file needs.
-/

set_option autoImplicit false

namespace Filestore

/-- An open file and the place of the next byte to read or write. -/
structure Descriptor where
  /-- The file. -/
  file : FileId
  /-- The place in it. -/
  cursor : Cursor
  deriving DecidableEq, Repr

/-- A descriptor that has not touched its file. -/
def Descriptor.onFile (file : FileId) : Descriptor := ⟨file, Cursor.unset⟩

/-- The descriptors in use, by number. -/
structure DescriptorTable where
  /-- The descriptor of every number, or nothing. -/
  slots : Array (Option Descriptor)
  /-- The numbers of the empty slots, ascending. -/
  free : List Nat
  /-- How many slots are in use. -/
  active : Nat
  deriving DecidableEq, Repr

namespace DescriptorTable

/-- The table without slots. -/
def empty : DescriptorTable := ⟨#[], [], 0⟩

instance : Inhabited DescriptorTable := ⟨empty⟩

/-- Inserts a number into an ascending list. -/
def insertAscending (index : Nat) : List Nat → List Nat
  | [] => [index]
  | i :: rest =>
    if index < i then index :: i :: rest
    else if index = i then i :: rest
    else i :: insertAscending index rest

/-- Takes the lowest free number out of the free list. A table without one doubles its slots, from
none to one, and the first of the new numbers is taken. -/
def takeLowest (table : DescriptorTable) : Nat × DescriptorTable :=
  match table.free with
  | fd :: rest => (fd, { table with free := rest })
  | [] =>
    let old := table.slots.size
    let added := max 1 old
    (old,
      { table with
        slots := table.slots ++ Array.replicate added none
        free := List.range' (old + 1) (added - 1) })

/-- Binds a new descriptor to a file, under the lowest number not in use. -/
def allocate (table : DescriptorTable) (file : FileId) : Nat × DescriptorTable :=
  let (fd, table) := table.takeLowest
  (fd,
    { table with
      slots := table.slots.setIfInBounds fd (some (Descriptor.onFile file))
      active := table.active + 1 })

/-- The descriptor of a number in use. -/
def get? (table : DescriptorTable) (fd : Nat) : Option Descriptor :=
  table.slots[fd]?.join

/-- The descriptor of a number, or the complaint that the number is not in use. -/
def get (table : DescriptorTable) (fd : Nat) : Except Error Descriptor :=
  match table.get? fd with
  | none => .error (.badDescriptor fd)
  | some descriptor => .ok descriptor

/-- Moves the cursor of a descriptor in use. -/
def setCursor (table : DescriptorTable) (fd : Nat) (cursor : Cursor) : DescriptorTable :=
  match table.get? fd with
  | none => table
  | some descriptor =>
    { table with slots := table.slots.setIfInBounds fd (some { descriptor with cursor }) }

/-- Frees a number in use. Also gives the descriptor it had. -/
def release (table : DescriptorTable) (fd : Nat) : Except Error (Descriptor × DescriptorTable) :=
  match table.get? fd with
  | none => .error (.badDescriptor fd)
  | some descriptor =>
    .ok (descriptor,
      { slots := table.slots.setIfInBounds fd none
        free := insertAscending fd table.free
        active := table.active - 1 })

/-- The descriptors bound to a file, by ascending number. -/
def boundTo (table : DescriptorTable) (file : FileId) : List Descriptor :=
  table.slots.toList.filterMap fun slot =>
    slot.filter fun descriptor => descriptor.file = file

/-- Moves the cursor of every descriptor bound to a file. -/
def mapCursors (table : DescriptorTable) (file : FileId) (move : Cursor → Cursor) :
    DescriptorTable :=
  { table with
    slots := table.slots.map fun slot =>
      slot.map fun descriptor =>
        if descriptor.file = file then { descriptor with cursor := move descriptor.cursor }
        else descriptor }

end DescriptorTable

end Filestore
