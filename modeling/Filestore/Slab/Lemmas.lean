import Filestore.Slab.Basic

/-!
# `Filestore.Slab.Lemmas`: a slab seen through its handles

`Slab.get?` is the view of a slab, and there is a pair of lemmas for each operation: what it does
to the value of its own handle, and that it leaves the value of every other one. They hold of any
slab, whatever its free list looks like, so proofs that are only about what handles denote need no
invariant.

An insertion is the exception that takes more work, because its handle is one that it chooses
itself. `insert_cases` says where a value may go: into a new slot, or into the vacant slot that
heads the free list. Either way the handle was not good before, which is why `get?_insert_of_ne`
needs no more than that the other handle is another one. That no value is lost or doubled, and
that the count of values is right, needs the invariant and is in `Filestore.Proofs.Slab.Live`.
-/

set_option autoImplicit false

namespace Filestore

namespace Slab

variable {α : Type}

/-- Nothing is in the empty slab: every handle, of whatever slot and generation, denotes nothing
in it. -/
@[simp] theorem get?_empty (key : Handle) : (empty : Slab α).get? key = none := by
  simp [get?, empty]

/-- A handle is good exactly while its slot holds a value of its generation. All lemmas here go
back to this one. -/
theorem get?_eq_some_iff {slab : Slab α} {key : Handle} {value : α} :
    slab.get? key = some value
      ↔ slab.entries[key.slot]? = some (.occupied key.generation value) := by
  unfold get?
  cases h : slab.entries[key.slot]? with
  | none => simp
  | some entry => cases entry <;> simp [Entry.value?]

/-- The slot of a good handle exists, so writing to it changes the entry that was read. -/
theorem slot_lt_of_get? {slab : Slab α} {key : Handle} {value : α}
    (h : slab.get? key = some value) : key.slot < slab.entries.size := by
  rw [get?_eq_some_iff] at h
  exact (Array.getElem?_eq_some_iff.mp h).1

/-- A replaced value is the one found afterwards, provided the handle was good; replacing does not
make a handle good. -/
theorem get?_set_self {slab : Slab α} {key : Handle} {old : α} (h : slab.get? key = some old)
    (value : α) : (slab.set key value).get? key = some value := by
  have hlt := slot_lt_of_get? h
  simp [set, h, get?_eq_some_iff, Array.getElem?_setIfInBounds_self_of_lt hlt]

/-- Replacing a value leaves every other one, handles of the same slot included: of those only one
generation is good. -/
theorem get?_set_of_ne {slab : Slab α} {key other : Handle} (hne : other ≠ key) (value : α) :
    (slab.set key value).get? other = slab.get? other := by
  unfold set
  cases h : slab.get? key with
  | none => rfl
  | some old =>
    have hold := get?_eq_some_iff.mp h
    by_cases hslot : other.slot = key.slot
    · have hgen : key.generation ≠ other.generation := fun hgen =>
        hne (by cases other; cases key; simp_all)
      simp [get?, hslot, Array.getElem?_setIfInBounds_self_of_lt (slot_lt_of_get? h), hold,
        Entry.value?, hgen]
    · simp [get?, Array.getElem?_setIfInBounds_ne (Ne.symm hslot)]

/-- Replacing a value adds no slot, so a walk with as many slots of fuel still has enough. -/
@[simp] theorem slotCount_set (slab : Slab α) (key : Handle) (value : α) :
    (slab.set key value).slotCount = slab.slotCount := by
  unfold set slotCount
  split <;> simp

/-- Replacing a value keeps the count of values, for good handles and for expired ones. -/
@[simp] theorem len_set (slab : Slab α) (key : Handle) (value : α) :
    (slab.set key value).len = slab.len := by
  unfold set
  split <;> rfl

/-- A slab in which the value of a handle is replaced by itself is the same slab, down to its
entries. -/
theorem set_get? {slab : Slab α} {key : Handle} {value : α} (h : slab.get? key = some value) :
    slab.set key value = slab := by
  have hold := get?_eq_some_iff.mp h
  have : slab.entries.setIfInBounds key.slot (.occupied key.generation value) = slab.entries := by
    apply Array.ext_getElem?
    intro i
    by_cases hi : key.slot = i
    · subst hi
      rw [Array.getElem?_setIfInBounds_self_of_lt (slot_lt_of_get? h), hold]
    · rw [Array.getElem?_setIfInBounds_ne hi]
  simp [set, h, this]

/-- A handle that denotes nothing replaces nothing: the slab stays as it is. -/
theorem set_of_get?_eq_none {slab : Slab α} {key : Handle} (h : slab.get? key = none) (value : α) :
    slab.set key value = slab := by
  rw [set, h]

/-- A value that is replaced twice is the last one it was replaced by; the one in between leaves
no trace. -/
theorem set_set (slab : Slab α) (key : Handle) (value last : α) :
    (slab.set key value).set key last = slab.set key last := by
  cases hkey : slab.get? key with
  | none => rw [set_of_get?_eq_none hkey]
  | some old =>
    rw [set, get?_set_self hkey]
    simp only [set, hkey, Array.setIfInBounds_setIfInBounds]

/-- Erasing through an expired handle changes nothing, so a value that is erased twice is erased
once. -/
theorem erase_of_get?_eq_none {slab : Slab α} {key : Handle} (h : slab.get? key = none) :
    slab.erase key = slab := by
  simp [erase, h]

/-- What an erasure leaves: the slot is vacant in its next generation, heads the free list, and
one value fewer is counted. -/
theorem erase_of_get? {slab : Slab α} {key : Handle} {value : α}
    (h : slab.get? key = some value) :
    slab.erase key =
      ⟨slab.entries.setIfInBounds key.slot (.vacant (key.generation + 1) slab.freeHead),
        some key.slot, slab.len - 1⟩ := by
  simp [erase, h]

/-- An erased value is gone, and its handle has expired: the slot has entered another generation. -/
theorem get?_erase_self (slab : Slab α) (key : Handle) : (slab.erase key).get? key = none := by
  cases h : slab.get? key with
  | none => rw [erase_of_get?_eq_none h, h]
  | some value =>
    rw [erase_of_get? h]
    simp [get?, Array.getElem?_setIfInBounds_self_of_lt (slot_lt_of_get? h), Entry.value?]

/-- Erasing a value leaves every other one. -/
theorem get?_erase_of_ne {key other : Handle} (hne : other ≠ key) (slab : Slab α) :
    (slab.erase key).get? other = slab.get? other := by
  cases h : slab.get? key with
  | none => rw [erase_of_get?_eq_none h]
  | some value =>
    have hold := get?_eq_some_iff.mp h
    rw [erase_of_get? h]
    by_cases hslot : other.slot = key.slot
    · have hgen : key.generation ≠ other.generation := fun hgen =>
        hne (by cases other; cases key; simp_all)
      simp [get?, hslot, Array.getElem?_setIfInBounds_self_of_lt (slot_lt_of_get? h), hold,
        Entry.value?, hgen]
    · simp [get?, Array.getElem?_setIfInBounds_ne (Ne.symm hslot)]

/-- Erasing a value removes no slot: the slot stays, vacant, for a later insertion. -/
@[simp] theorem slotCount_erase (slab : Slab α) (key : Handle) :
    (slab.erase key).slotCount = slab.slotCount := by
  unfold erase slotCount
  split <;> simp

/-- A value in a new slot is found under the handle that was given out for it. -/
theorem get?_append_self (slab : Slab α) (value : α) :
    (slab.append value).2.get? (slab.append value).1 = some value := by
  simp [append, get?, Entry.value?]

/-- A new slot leaves every other value: no handle of an old slot is affected. -/
theorem get?_append_of_ne {slab : Slab α} {value : α} {key : Handle}
    (hne : key ≠ (slab.append value).1) : (slab.append value).2.get? key = slab.get? key := by
  by_cases hslot : key.slot = slab.entries.size
  · have hgen : (0 : UInt32) ≠ key.generation := fun hgen =>
      hne (by cases key; simp_all [append])
    simp [append, get?, hslot, Entry.value?, hgen]
  · simp [append, get?, Array.getElem?_push, hslot]

/-- An insertion takes a new slot, or the vacant slot that heads the free list. In the second case
the handle has the generation that the slot was left in. -/
theorem insert_cases (slab : Slab α) (value : α) :
    slab.insert value = slab.append value ∨
      ∃ slot generation next, slab.entries[slot]? = some (.vacant generation next) ∧
        slab.insert value = (⟨slot, generation⟩,
          ⟨slab.entries.setIfInBounds slot (.occupied generation value), next, slab.len + 1⟩) := by
  unfold insert
  split
  · exact .inl rfl
  split
  · rename_i slot _ _ generation next hvacant
    exact .inr ⟨slot, generation, next, hvacant, rfl⟩
  · exact .inl rfl

/-- An inserted value is found under the handle that was given out for it, wherever it went. -/
theorem get?_insert_self (slab : Slab α) (value : α) :
    (slab.insert value).2.get? (slab.insert value).1 = some value := by
  rcases slab.insert_cases value with heq | ⟨slot, generation, next, hvacant, heq⟩
  · rw [heq]
    exact get?_append_self slab value
  · have hlt := (Array.getElem?_eq_some_iff.mp hvacant).1
    simp [heq, get?, Array.getElem?_setIfInBounds_self_of_lt hlt, Entry.value?]

/-- An insertion leaves every other value. The slot it takes was vacant, so no handle of it was
good. -/
theorem get?_insert_of_ne {slab : Slab α} {value : α} {key : Handle}
    (hne : key ≠ (slab.insert value).1) : (slab.insert value).2.get? key = slab.get? key := by
  rcases slab.insert_cases value with heq | ⟨slot, generation, next, hvacant, heq⟩
  · rw [heq] at hne ⊢
    exact get?_append_of_ne hne
  · have hlt := (Array.getElem?_eq_some_iff.mp hvacant).1
    rw [heq] at hne ⊢
    by_cases hslot : key.slot = slot
    · have hgen : generation ≠ key.generation := fun hgen =>
        hne (by cases key; simp_all)
      simp [get?, hslot, Array.getElem?_setIfInBounds_self_of_lt hlt, hvacant, Entry.value?, hgen]
    · simp [get?, Array.getElem?_setIfInBounds_ne (Ne.symm hslot)]

end Slab

end Filestore
