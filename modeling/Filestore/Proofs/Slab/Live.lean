import Mathlib.Data.List.Basic
import Filestore.Slab.Lemmas

/-!
# `Filestore.Proofs.Slab.Live`: which slots of a slab are in use

`Slab.keys` lists the handles that are good, and `Slab.FreeFrom` follows the free list from its
head. `Slab.FreeList` says which slots it meets: the vacant ones, each once, in the order in which
insertions take them. An insertion takes the first one, and an erasure puts its slot before them.

A slab is `Slab.Sound` when its counter counts the good handles and it has a free list. The empty
slab is sound, and every operation leaves a sound slab sound (`Sound.insert`, `Sound.set`,
`Sound.erase`). In a sound slab the head of the free list is a vacant slot (`Sound.head_vacant`).
The last case of `Slab.insert` is therefore never taken.

What the operations do to the good handles needs no soundness (`keys_insert_perm`,
`keys_set_perm`, `keys_perm_erase`): an insertion makes one more handle good and an erasure one
less, whatever the free list is. These are stated up to order, since handles are listed by slot
and a new one may be anywhere among them. Counts of values are lengths of these lists.
-/

set_option autoImplicit false

namespace Filestore

/-- A list without repetitions that has one more member than another is that member before the
other, up to order. -/
theorem perm_cons_of_mem_iff {β : Type} {a : β} {l l' : List β} (hl : l.Nodup) (hl' : l'.Nodup)
    (ha : a ∉ l) (h : ∀ x, x ∈ l' ↔ x = a ∨ x ∈ l) : l'.Perm (a :: l) := by
  rw [List.perm_ext_iff_of_nodup hl' (List.nodup_cons.mpr ⟨ha, hl⟩)]
  intro x
  rw [h, List.mem_cons]

/-- A list without repetitions that has the members of two others apart is these two, up to
order. -/
theorem perm_append_of_mem_iff {β : Type} {l l' l'' : List β} (hl : l.Nodup) (hl' : l'.Nodup)
    (hl'' : l''.Nodup) (hapart : ∀ x ∈ l, x ∉ l') (h : ∀ x, x ∈ l'' ↔ x ∈ l ∨ x ∈ l') :
    l''.Perm (l ++ l') := by
  refine (List.perm_ext_iff_of_nodup hl'' (List.nodup_append.mpr ⟨hl, hl', ?_⟩)).mpr ?_
  · rintro x hx _ hx' rfl
    exact hapart x hx hx'
  · intro x
    rw [h, List.mem_append]

namespace Slab

variable {α : Type}

/-- The handle of the value in a slot, if there is one. -/
def keyAt? (slab : Slab α) (slot : Nat) : Option Handle :=
  match slab.entries[slot]? with
  | some (.occupied generation _) => some ⟨slot, generation⟩
  | _ => none

/-- The handles that are good, by ascending slot. -/
def keys (slab : Slab α) : List Handle :=
  (List.range slab.slotCount).filterMap slab.keyAt?

/-- The handle of a slot is the one its value is found under, so a slot has one good handle or
none. -/
theorem keyAt?_eq_some_iff {slab : Slab α} {slot : Nat} {key : Handle} :
    slab.keyAt? slot = some key ↔ key.slot = slot ∧ ∃ value, slab.get? key = some value := by
  unfold keyAt?
  constructor
  · intro h
    split at h
    · rename_i generation value hslot
      cases h
      exact ⟨rfl, value, get?_eq_some_iff.mpr hslot⟩
    · cases h
  · rintro ⟨rfl, value, h⟩
    rw [get?_eq_some_iff.mp h]

/-- The listed handles are the good ones, and no others. -/
theorem mem_keys {slab : Slab α} {key : Handle} :
    key ∈ slab.keys ↔ ∃ value, slab.get? key = some value := by
  unfold keys
  rw [List.mem_filterMap]
  constructor
  · rintro ⟨slot, -, h⟩
    exact (keyAt?_eq_some_iff.mp h).2
  · rintro ⟨value, h⟩
    exact ⟨key.slot, List.mem_range.mpr (slot_lt_of_get? h), keyAt?_eq_some_iff.mpr ⟨rfl, value, h⟩⟩

/-- A handle that is not listed denotes nothing. -/
theorem not_mem_keys {slab : Slab α} {key : Handle} : key ∉ slab.keys ↔ slab.get? key = none := by
  rw [mem_keys, Option.eq_none_iff_forall_ne_some]
  exact not_exists

/-- No handle is listed twice, as each slot has at most one. -/
theorem nodup_keys (slab : Slab α) : slab.keys.Nodup := by
  unfold keys
  refine List.Pairwise.filterMap _ ?_ List.nodup_range
  -- A handle says its slot, so two slots have two handles.
  rintro i j hne key hi key' hj rfl
  exact hne ((keyAt?_eq_some_iff.mp hi).1.symm.trans (keyAt?_eq_some_iff.mp hj).1)

/-- The values in a slab, by ascending slot. -/
def values (slab : Slab α) : List α := slab.keys.filterMap slab.get?

/-- What is said of the values in a slab is said of its handles, each of which denotes one. -/
theorem map_values {β : Type} {slab : Slab α} {f : α → β} {g : Handle → β}
    (h : ∀ key value, slab.get? key = some value → g key = f value) :
    slab.values.map f = slab.keys.map g := by
  rw [values, List.map_filterMap, ← List.filterMap_eq_map]
  refine List.filterMap_congr ?_
  intro key hkey
  obtain ⟨value, hvalue⟩ := mem_keys.mp hkey
  rw [hvalue, Option.map_some, Function.comp_apply, h key value hvalue]

/-- There are at most as many good handles as slots, so storage that has slots has numbers for its
handles. -/
theorem length_keys_le (slab : Slab α) : slab.keys.length ≤ slab.slotCount := by
  have h := List.length_filterMap_le slab.keyAt? (List.range slab.slotCount)
  rwa [List.length_range] at h

/-- A slot that holds nothing. -/
def Vacant (slab : Slab α) (slot : Nat) : Prop :=
  ∃ generation next, slab.entries[slot]? = some (.vacant generation next)

/-- A slot that holds a value is not vacant, so the free list does not lead to it. -/
theorem not_vacant_of_get? {slab : Slab α} {key : Handle} {value : α}
    (h : slab.get? key = some value) : ¬ slab.Vacant key.slot := by
  rintro ⟨generation, next, hslot⟩
  cases (get?_eq_some_iff.mp h).symm.trans hslot

/-- The links of vacant slots lead from `head` through the slots `free` and then nowhere. -/
def FreeFrom (entries : Array (Entry α)) : Option Nat → List Nat → Prop
  | head, [] => head = none
  | head, slot :: rest =>
    head = some slot ∧
      ∃ generation next, entries[slot]? = some (.vacant generation next) ∧
        FreeFrom entries next rest

/-- The links are read from the slots they lead through and from no other, so changes elsewhere do
not matter. -/
theorem FreeFrom.congr {entries entries' : Array (Entry α)} {head : Option Nat} {free : List Nat}
    (hsame : ∀ slot ∈ free, entries'[slot]? = entries[slot]?) (h : FreeFrom entries head free) :
    FreeFrom entries' head free := by
  -- The induction is on the slots met, each of which says where the rest starts.
  induction free generalizing head with
  | nil => exact h
  | cons slot rest ih =>
    obtain ⟨hhead, generation, next, hslot, hrest⟩ := h
    refine ⟨hhead, generation, next, ?_, ih (fun i hi => hsame i (List.mem_cons_of_mem _ hi)) hrest⟩
    rw [hsame slot List.mem_cons_self, hslot]

/-- It does not matter what a value is replaced by before it is erased. -/
theorem erase_set (slab : Slab α) (key : Handle) (value : α) :
    (slab.set key value).erase key = slab.erase key := by
  cases hkey : slab.get? key with
  | none => rw [set, hkey]
  | some old =>
    rw [erase_of_get? (get?_set_self hkey value), erase_of_get? hkey, set, hkey]
    simp

/-- The free list leads through these slots, which are the vacant ones, and meets none twice. -/
def FreeList (slab : Slab α) (free : List Nat) : Prop :=
  FreeFrom slab.entries slab.freeHead free ∧ free.Nodup ∧ ∀ slot, slot ∈ free ↔ slab.Vacant slot

/-- A slab whose counter and free list tell the truth about its slots.

- `counted`: the counter counts the values.
- `linked`: the free list is finite, without repetition, and meets exactly the vacant slots. -/
structure Sound (slab : Slab α) : Prop where
  counted : slab.len = slab.keys.length
  linked : ∃ free, FreeFrom slab.entries slab.freeHead free ∧ free.Nodup ∧
    ∀ slot, slot ∈ free ↔ slab.Vacant slot

/-- The slab without slots is sound: it counts nothing and its free list is empty. -/
theorem sound_empty : (empty : Slab α).Sound where
  counted := rfl
  linked := ⟨[], rfl, List.nodup_nil, by simp [Vacant, empty]⟩

/-- The slot at the head of the free list of a sound slab is vacant, so an insertion may take it. -/
theorem Sound.head_vacant {slab : Slab α} (h : slab.Sound) {slot : Nat}
    (hhead : slab.freeHead = some slot) : slab.Vacant slot := by
  obtain ⟨free, hlinked, -, hvacant⟩ := h.linked
  cases free with
  | nil => cases hhead.symm.trans hlinked
  | cons first rest =>
    cases hhead.symm.trans hlinked.1
    exact (hvacant slot).mp List.mem_cons_self

/-- The handle that an insertion gives denoted nothing before, in any slab. -/
theorem get?_fst_insert (slab : Slab α) (value : α) :
    slab.get? (slab.insert value).1 = none := by
  have happend : slab.get? (slab.append value).1 = none := by
    simp [append, get?]
  unfold insert
  split
  · exact happend
  split
  · rename_i hvacant
    simp [get?, hvacant, Entry.value?]
  · exact happend

/-- An insertion makes one more handle good, which is its own, and keeps the others good. -/
theorem mem_keys_insert {slab : Slab α} {value : α} {key : Handle} :
    key ∈ (slab.insert value).2.keys ↔ key = (slab.insert value).1 ∨ key ∈ slab.keys := by
  by_cases hkey : key = (slab.insert value).1
  · subst hkey
    exact ⟨fun _ => .inl rfl, fun _ => mem_keys.mpr ⟨value, get?_insert_self slab value⟩⟩
  · rw [mem_keys, mem_keys, get?_insert_of_ne hkey]
    exact ⟨.inr, fun h => h.resolve_left hkey⟩

/-- An insertion adds its handle to the good ones, up to order. -/
theorem keys_insert_perm (slab : Slab α) (value : α) :
    (slab.insert value).2.keys.Perm ((slab.insert value).1 :: slab.keys) :=
  perm_cons_of_mem_iff (nodup_keys _) (nodup_keys _) (not_mem_keys.mpr (get?_fst_insert slab value))
    fun _ => mem_keys_insert

/-- An erasure takes its handle from the good ones, up to order. -/
theorem keys_perm_erase {slab : Slab α} {key : Handle} {value : α}
    (h : slab.get? key = some value) : slab.keys.Perm (key :: (slab.erase key).keys) := by
  refine perm_cons_of_mem_iff (nodup_keys _) (nodup_keys _)
    (not_mem_keys.mpr (get?_erase_self slab key)) fun other => ?_
  by_cases hother : other = key
  · subst hother
    exact ⟨fun _ => .inl rfl, fun _ => mem_keys.mpr ⟨value, h⟩⟩
  · rw [mem_keys, mem_keys, get?_erase_of_ne hother]
    exact ⟨.inr, fun h => h.resolve_left hother⟩

/-- A replacement leaves the good handles good and makes none good that was not. -/
theorem keys_set_perm (slab : Slab α) (key : Handle) (value : α) :
    (slab.set key value).keys.Perm slab.keys := by
  rw [List.perm_ext_iff_of_nodup (nodup_keys _) (nodup_keys _)]
  intro other
  rw [mem_keys, mem_keys]
  by_cases hother : other = key
  · subst hother
    cases h : slab.get? other with
    | none => simp [set, h]
    | some old => simp [get?_set_self h]
  · rw [get?_set_of_ne hother]

/-- An insertion counts its value, in a new slot or in one that was vacant. -/
theorem len_insert (slab : Slab α) (value : α) : (slab.insert value).2.len = slab.len + 1 := by
  unfold insert
  split
  · rfl
  split <;> rfl

/-- A new slot is not vacant, and the others are as they were. -/
theorem vacant_append {slab : Slab α} {value : α} {slot : Nat} :
    (slab.append value).2.Vacant slot ↔ slab.Vacant slot := by
  unfold Vacant append
  simp only [Array.getElem?_push]
  split
  · rename_i hslot
    subst hslot
    simp
  · rfl

/-- An insertion takes the first of the vacant slots, or a new one where there is none. So the
slot left last is taken first. -/
theorem FreeList.slot_insert {slab : Slab α} {free : List Nat} (h : slab.FreeList free)
    (value : α) : (slab.insert value).1.slot = free.head?.getD slab.slotCount := by
  obtain ⟨hlinked, -, -⟩ := h
  unfold Slab.insert
  cases free with
  | nil =>
    have hhead : slab.freeHead = none := hlinked
    simp only [hhead]
    rfl
  | cons slot rest =>
    obtain ⟨hhead, generation, next, hslot, -⟩ := hlinked
    simp only [hhead, hslot]
    rfl

/-- Where a slot is vacant, an insertion adds none; slots are added one at a time. -/
theorem FreeList.slotCount_insert {slab : Slab α} {free : List Nat} (h : slab.FreeList free)
    (value : α) :
    (slab.insert value).2.slotCount = if free = [] then slab.slotCount + 1 else slab.slotCount := by
  obtain ⟨hlinked, -, -⟩ := h
  unfold Slab.insert
  cases free with
  | nil =>
    have hhead : slab.freeHead = none := hlinked
    simp only [hhead]
    exact Array.size_push _
  | cons slot rest =>
    obtain ⟨hhead, generation, next, hslot, -⟩ := hlinked
    simp only [hhead, hslot, slotCount, Array.size_setIfInBounds]
    rfl

/-- An insertion leaves the other vacant slots, in their order. -/
theorem FreeList.insert {slab : Slab α} {free : List Nat} (h : slab.FreeList free) (value : α) :
    (slab.insert value).2.FreeList free.tail := by
  obtain ⟨hlinked, hnodup, hvacant⟩ := h
  unfold Slab.insert
  cases free with
  | nil =>
    -- Nothing is vacant, so the value goes into a slot of its own and nothing is vacant still.
    have hhead : slab.freeHead = none := hlinked
    simp only [hhead]
    refine ⟨hhead, List.nodup_nil, ?_⟩
    intro slot
    rw [vacant_append, ← hvacant]
    rfl
  | cons slot rest =>
    -- The value goes into the first vacant slot. The others are linked from the second one on.
    obtain ⟨hhead, generation, next, hslot, hrest⟩ := hlinked
    obtain ⟨hfirst, hnodup⟩ := List.nodup_cons.mp hnodup
    have hlt := (Array.getElem?_eq_some_iff.mp hslot).1
    simp only [hhead, hslot]
    refine ⟨hrest.congr ?_, hnodup, ?_⟩
    · intro i hi
      refine Array.getElem?_setIfInBounds_ne ?_
      rintro rfl
      exact hfirst hi
    · intro i
      by_cases hi : slot = i
      · subst hi
        simp [Vacant, Array.getElem?_setIfInBounds_self_of_lt hlt, hfirst]
      · have := hvacant i
        rw [List.mem_cons, or_iff_right (Ne.symm hi)] at this
        rw [List.tail_cons, this]
        simp [Vacant, Array.getElem?_setIfInBounds_ne hi]

/-- A replacement leaves the vacant slots, in their order, as it changes the value of an occupied
one. -/
theorem FreeList.set {slab : Slab α} {free : List Nat} (h : slab.FreeList free) (key : Handle)
    (value : α) : (slab.set key value).FreeList free := by
  obtain ⟨hlinked, hnodup, hvacant⟩ := h
  unfold Slab.set
  cases hkey : slab.get? key with
  | none => exact ⟨hlinked, hnodup, hvacant⟩
  | some old =>
    have hold := get?_eq_some_iff.mp hkey
    have hlt := slot_lt_of_get? hkey
    -- The slot is occupied before and after, so it is on no free list.
    have hsame : ∀ i, i ∈ free → key.slot ≠ i := by
      rintro i hi rfl
      exact not_vacant_of_get? hkey ((hvacant _).mp hi)
    refine ⟨hlinked.congr ?_, hnodup, ?_⟩
    · intro i hi
      exact Array.getElem?_setIfInBounds_ne (hsame i hi)
    · intro i
      rw [hvacant]
      by_cases hi : key.slot = i
      · subst hi
        simp [Vacant, Array.getElem?_setIfInBounds_self_of_lt hlt, hold]
      · simp [Vacant, Array.getElem?_setIfInBounds_ne hi]

/-- An erasure puts its slot before the vacant ones, so that it is the next one taken. -/
theorem FreeList.erase {slab : Slab α} {free : List Nat} (h : slab.FreeList free) {key : Handle}
    {value : α} (hkey : slab.get? key = some value) :
    (slab.erase key).FreeList (key.slot :: free) := by
  obtain ⟨hlinked, hnodup, hvacant⟩ := h
  have hlt := slot_lt_of_get? hkey
  have hfresh : key.slot ∉ free := fun hi => not_vacant_of_get? hkey ((hvacant _).mp hi)
  rw [erase_of_get? hkey]
  -- The slot links to the first of those that were vacant.
  refine ⟨⟨rfl, key.generation + 1, slab.freeHead, ?_, hlinked.congr ?_⟩,
    List.nodup_cons.mpr ⟨hfresh, hnodup⟩, ?_⟩
  · exact Array.getElem?_setIfInBounds_self_of_lt hlt
  · intro i hi
    refine Array.getElem?_setIfInBounds_ne ?_
    rintro rfl
    exact hfresh hi
  · intro i
    rw [List.mem_cons, hvacant]
    by_cases hi : key.slot = i
    · subst hi
      simp [Vacant, Array.getElem?_setIfInBounds_self_of_lt hlt]
    · simp [Vacant, Array.getElem?_setIfInBounds_ne hi, Ne.symm hi]

/-- An insertion leaves a sound slab sound: one more is counted, and one less is vacant if one
was. -/
theorem Sound.insert {slab : Slab α} (h : slab.Sound) (value : α) :
    (slab.insert value).2.Sound where
  counted := by
    rw [len_insert, h.counted, (keys_insert_perm slab value).length_eq, List.length_cons]
  linked := by
    obtain ⟨free, hfree⟩ := h.linked
    exact ⟨free.tail, FreeList.insert hfree value⟩

/-- A replacement leaves a sound slab sound, for a good handle and for any other. -/
theorem Sound.set {slab : Slab α} (h : slab.Sound) (key : Handle) (value : α) :
    (slab.set key value).Sound where
  counted := by
    rw [len_set, h.counted, (keys_set_perm slab key value).length_eq]
  linked := by
    obtain ⟨free, hfree⟩ := h.linked
    exact ⟨free, FreeList.set hfree key value⟩

/-- An erasure leaves a sound slab sound: one less is counted, and one more is vacant. -/
theorem Sound.erase {slab : Slab α} (h : slab.Sound) (key : Handle) : (slab.erase key).Sound := by
  cases hkey : slab.get? key with
  | none => rwa [erase_of_get?_eq_none hkey]
  | some value =>
    have hcount := (keys_perm_erase hkey).length_eq
    obtain ⟨free, hfree⟩ := h.linked
    refine ⟨?_, key.slot :: free, FreeList.erase hfree hkey⟩
    rw [erase_of_get? hkey] at hcount ⊢
    exact Nat.sub_eq_of_eq_add (h.counted.trans hcount)

end Slab

end Filestore
