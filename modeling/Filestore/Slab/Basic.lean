/-!
# `Filestore.Slab.Basic`: slot storage with handles that expire

A `Slab` keeps values in numbered slots. Removing a value leaves its slot vacant; the vacant slots
form a free list threaded through the slots themselves, and the next insertion takes the slot
vacated last. Every slot counts its generations, and a `Handle` is good only for the generation it
was issued in: a handle that outlives its value finds nothing, whoever has moved in since.

Generations are 32-bit numbers and wrap around. A handle of a slot that has been vacated 2^32
times would therefore be good again; what is proved about expired handles says so, and leaves such
long histories out where it must.

The free list is part of the representation, and the operations trust it: that it lists exactly
the vacant slots is the invariant `Slab.Sound`. The one case that the invariant rules out, a free
list that leads to an occupied slot, is treated as an empty free list. Blocks and files are both
kept in slabs, so their handles are the same type and are told apart by where they are used.
-/

set_option autoImplicit false

namespace Filestore

/-- The key of a value in a slab. -/
structure Handle where
  /-- The slot the value was put in. -/
  slot : Nat
  /-- The generation of that slot the handle is good for. -/
  generation : UInt32
  deriving DecidableEq, Repr, Inhabited

namespace Slab

/-- What a slot holds. -/
inductive Entry (α : Type) where
  /-- A value, and the generation its handle carries. -/
  | occupied (generation : UInt32) (value : α)
  /-- Nothing; the generation the next occupant will have, and the vacant slot after this one. -/
  | vacant (generation : UInt32) (next : Option Nat)
  deriving DecidableEq, Repr

/-- The value an entry yields to a handle of the given generation. -/
def Entry.value? {α : Type} (generation : UInt32) : Entry α → Option α
  | .occupied g value => if g = generation then some value else none
  | .vacant _ _ => none

end Slab

/-- Slot storage for values of type `α`. -/
structure Slab (α : Type) where
  /-- The slots, vacant ones included. -/
  entries : Array (Slab.Entry α)
  /-- The vacant slot that the next insertion takes. -/
  freeHead : Option Nat
  /-- How many slots are occupied. -/
  len : Nat
  deriving DecidableEq, Repr

namespace Slab

variable {α : Type}

/-- The slab without slots. -/
def empty : Slab α := ⟨#[], none, 0⟩

instance : Inhabited (Slab α) := ⟨empty⟩

/-- Puts a value in a new slot, of generation 0. -/
def append (slab : Slab α) (value : α) : Handle × Slab α :=
  (⟨slab.entries.size, 0⟩,
    { slab with entries := slab.entries.push (.occupied 0 value), len := slab.len + 1 })

/-- Stores a value in the slot vacated last, or in a new slot where none is vacant. -/
def insert (slab : Slab α) (value : α) : Handle × Slab α :=
  match slab.freeHead with
  | none => slab.append value
  | some slot =>
    match slab.entries[slot]? with
    | some (.vacant generation next) =>
      (⟨slot, generation⟩,
        { entries := slab.entries.setIfInBounds slot (.occupied generation value)
          freeHead := next
          len := slab.len + 1 })
    -- The head of the free list is a vacant slot, so this case is for totality.
    | _ => slab.append value

/-- The value a handle denotes, if the handle is still good. -/
def get? (slab : Slab α) (handle : Handle) : Option α :=
  slab.entries[handle.slot]?.bind (Entry.value? handle.generation)

/-- Replaces the value a handle denotes; a handle that is no longer good changes nothing. -/
def set (slab : Slab α) (handle : Handle) (value : α) : Slab α :=
  match slab.get? handle with
  | none => slab
  | some _ =>
    { slab with
      entries := slab.entries.setIfInBounds handle.slot (.occupied handle.generation value) }

/-- Drops the value a handle denotes. Its slot enters the next generation and heads the free list,
so every copy of the handle has expired. A handle that is no longer good changes nothing. -/
def erase (slab : Slab α) (handle : Handle) : Slab α :=
  match slab.get? handle with
  | none => slab
  | some _ =>
    { entries := slab.entries.setIfInBounds handle.slot
        (.vacant (handle.generation + 1) slab.freeHead)
      freeHead := some handle.slot
      len := slab.len - 1 }

/-- The number of slots, vacant ones included. -/
def slotCount (slab : Slab α) : Nat := slab.entries.size

end Slab

end Filestore
