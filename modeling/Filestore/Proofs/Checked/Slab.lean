import Filestore.Proofs.Slab.Live

/-!
# `Filestore.Proofs.Checked.Slab`: slab operations that check what they rely on

The operations of a store rely on things they do not look at: that a handle they kept is still
good, that the free list leads to vacant slots, that a difference is of a smaller number from a
larger one, that a number fits in its word. A checked operation looks, and gives a `Fault` where
it does not find things so; otherwise it does the same. To say that an operation equals its
checked twin is to say that nothing it relies on ever fails.

A fault is not a failure. A failure is an answer that the caller gets and the store remembers; a
fault would be a defect of the store, and there is one kind for each way of relying on something
in vain. A checked operation that gives both has the fault on the outside, so that it hides
nothing: where a plain operation reports an expired handle as a failure, its twin has a fault.

This module has the checked insertion and erasure. Both are faultless on a sound slab
(`Sound.checkedInsert_eq`, `Sound.checkedErase_eq`). The one condition that soundness does not
give is that a new slot can have a number; it is asked for as room for the value.
-/

set_option autoImplicit false

namespace Filestore

/-- What an operation relied on in vain. -/
inductive Fault where
  /-- A handle denotes nothing. -/
  | expired
  /-- A slot is not vacant, or not occupied, that has to be. -/
  | unreachable
  /-- A difference is below zero. -/
  | underflow
  /-- A number does not fit in its word. -/
  | overflow
  /-- A loop takes more steps than it may. -/
  | endless
  deriving DecidableEq, Repr

/-- Checks a condition. -/
def require (condition : Prop) [Decidable condition] (fault : Fault) : Except Fault Unit :=
  if condition then .ok () else .error fault

/-- A condition that holds is checked without fault, whatever the fault would have been. -/
theorem require_of {condition : Prop} [Decidable condition] (h : condition) (fault : Fault) :
    require condition fault = .ok () := if_pos h

/-- What comes after a step without fault is what is done with its value. -/
@[simp] theorem ok_bind {α β : Type} (value : α) (next : α → Except Fault β) :
    ((.ok value : Except Fault α) >>= next) = next value := rfl

/-- How many slots a slab can have: the number of a slot is a 32-bit number. -/
def Slab.maxSlots : Nat := 4294967296

namespace Slab

variable {α : Type}

/-- The value of a handle that has to be good. -/
def demand (slab : Slab α) (key : Handle) : Except Fault α :=
  match slab.get? key with
  | none => .error .expired
  | some value => .ok value

/-- The value of a good handle is had without fault. -/
theorem demand_of {slab : Slab α} {key : Handle} {value : α} (h : slab.get? key = some value) :
    slab.demand key = .ok value := by
  rw [demand, h]

/-- Stores a value. A new slot has to have a number, and the head of the free list to be vacant. -/
def checkedInsert (slab : Slab α) (value : α) : Except Fault (Handle × Slab α) :=
  match slab.freeHead with
  | none => do
    require (slab.slotCount < maxSlots) .overflow
    .ok (slab.append value)
  | some slot =>
    match slab.entries[slot]? with
    | some (.vacant generation next) =>
      .ok (⟨slot, generation⟩,
        { entries := slab.entries.setIfInBounds slot (.occupied generation value)
          freeHead := next
          len := slab.len + 1 })
    | _ => .error .unreachable

/-- Drops the value of a handle that has to be good. The slot has to be occupied then, and there has
to be a value to count off. -/
def checkedErase (slab : Slab α) (key : Handle) : Except Fault (Slab α) := do
  let _ ← slab.demand key
  match slab.entries[key.slot]? with
  | some (.occupied generation _) =>
    require (1 ≤ slab.len) .underflow
    .ok
      { entries := slab.entries.setIfInBounds key.slot (.vacant (generation + 1) slab.freeHead)
        freeHead := some key.slot
        len := slab.len - 1 }
  | _ => .error .unreachable

/-- In a sound slab without vacant slots, every slot is counted. So a slab that needs a new slot
has no more slots than values. -/
theorem Sound.slotCount_eq {slab : Slab α} (h : slab.Sound) (hhead : slab.freeHead = none) :
    slab.slotCount = slab.len := by
  obtain ⟨free, hlinked, -, hvacant⟩ := h.linked
  cases free with
  | cons slot rest => cases hhead.symm.trans hlinked.1
  | nil =>
    -- The free list is empty and lists all vacant slots, so every slot has a handle.
    have hall : ∀ slot ∈ List.range slab.slotCount, (slab.keyAt? slot).isSome := by
      intro slot hslot
      have hlt : slot < slab.entries.size := List.mem_range.mp hslot
      unfold keyAt?
      cases hentry : slab.entries[slot]? with
      | none => cases (Array.getElem?_eq_getElem hlt).symm.trans hentry
      | some entry =>
        cases entry with
        | occupied generation value => rfl
        | vacant generation next => cases (hvacant slot).mpr ⟨generation, next, hentry⟩
    rw [h.counted, keys, List.length_filterMap_eq_countP, List.countP_eq_length.mpr hall,
      List.length_range]

/-- Where there is room for the value, an insertion into a sound slab is faultless: the slot it
takes is vacant, or is a new one that can have a number. -/
theorem Sound.checkedInsert_eq {slab : Slab α} (h : slab.Sound) (value : α)
    (hroom : (slab.insert value).2.len ≤ maxSlots) :
    slab.checkedInsert value = .ok (slab.insert value) := by
  rw [len_insert] at hroom
  cases hhead : slab.freeHead with
  | none =>
    have hslots := h.slotCount_eq hhead
    simp only [checkedInsert, Slab.insert, hhead,
      require_of (show slab.slotCount < maxSlots by omega), ok_bind]
  | some slot =>
    obtain ⟨generation, next, hslot⟩ := h.head_vacant hhead
    simp only [checkedInsert, Slab.insert, hhead, hslot]

/-- The erasure of a good handle from a sound slab is faultless: its slot is occupied, and at
least one value is counted. -/
theorem Sound.checkedErase_eq {slab : Slab α} (h : slab.Sound) {key : Handle} {value : α}
    (hkey : slab.get? key = some value) : slab.checkedErase key = .ok (slab.erase key) := by
  have hslot := get?_eq_some_iff.mp hkey
  have hlen : 1 ≤ slab.len := by
    rw [h.counted]
    exact List.length_pos_of_mem (mem_keys.mpr ⟨value, hkey⟩)
  simp only [checkedErase, demand_of hkey, ok_bind, hslot, require_of hlen, erase_of_get? hkey]

end Slab

end Filestore
