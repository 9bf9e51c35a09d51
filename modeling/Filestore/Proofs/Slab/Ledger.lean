import Mathlib.Data.List.Induction
import Filestore.Proofs.Checked.Slab
import Filestore.Proofs.Lookup

/-!
# `Filestore.Proofs.Slab.Ledger`: a slab and what its user knows

Whoever makes all uses of a slab can keep a ledger of them: the handles given out, what was stored
under each, the handles removed, the slots that were left and not taken again, and how many values
there were at most. A `Slab.Ledger` has these and nothing else. It knows no generations and no
links between vacant slots, and it starts afresh when the slab is cleared.

`honors_recordAll` is the main result. After any uses with fewer than 2 ^ 32 insertions since the
slab was last cleared, the slab honors the ledger (`Slab.Honors`): it answers every further use as
the ledger has it, all handles given out are distinct, one that was removed is never good again, and
the slots are those that the ledger says.

That handles are distinct rests on one count. Every slot has been taken as often as a handle was
given out for it (`Slab.timesTaken`), and its generation is that number. An erasure counts the
generation up, which is where the bound on the insertions is used.
-/

set_option autoImplicit false

namespace Filestore

/-- What a run keeps up while a count is below a bound holds at its end, if the count is below the
bound there. A step may lower the count only where it starts afresh. -/
theorem foldl_of_count_lt {σ γ : Type} {step : σ → γ → σ} (holds : σ → Prop) (count : σ → Nat)
    {bound : Nat} {start : σ} (hstart : holds start)
    (hcount : ∀ state call, count state ≤ count (step state call) ∨ holds (step state call))
    (hstep : ∀ state call, holds state → count state < bound → holds (step state call))
    (calls : List γ) (hlt : count (calls.foldl step start) < bound) :
    holds (calls.foldl step start) := by
  induction calls using List.reverseRecOn with
  | nil => exact hstart
  | append_singleton calls call ih =>
    rw [List.foldl_append] at hlt ⊢
    rcases hcount (calls.foldl step start) call with hle | hfresh
    · have hbefore := Nat.lt_of_le_of_lt hle hlt
      exact hstep _ call (ih hbefore) hbefore
    · exact hfresh

namespace Slab

variable {α : Type}

/-- A use of a slab. -/
inductive Call (α : Type) where
  /-- Stores a value. -/
  | insert (value : α)
  /-- Looks a value up. -/
  | get (key : Handle)
  /-- Looks a value up and puts another one in its place. -/
  | replace (key : Handle) (value : α)
  /-- Takes a value out. -/
  | remove (key : Handle)
  /-- Gives up everything. -/
  | clear
  deriving Repr

/-- What a use gives back. -/
inductive Answer (α : Type) where
  /-- The handle of a value stored. -/
  | handle (key : Handle)
  /-- The value found, if there is one. -/
  | value (value : Option α)
  /-- Nothing. -/
  | done
  deriving Repr

/-- Answers a use. -/
def perform (slab : Slab α) : Call α → Answer α × Slab α
  | .insert value => (.handle (slab.insert value).1, (slab.insert value).2)
  | .get key => (.value (slab.get? key), slab)
  | .replace key value => (.value (slab.get? key), slab.set key value)
  | .remove key => (.value (slab.get? key), slab.erase key)
  | .clear => (.done, empty)

/-- What a user knows of a slab who has made all uses of it since it was last cleared. -/
structure Ledger (α : Type) where
  /-- The handles given out, the latest first. -/
  issued : List Handle
  /-- What was stored under which handle, the latest first. -/
  stored : List (Handle × α)
  /-- The handles whose values were taken out, the latest first. -/
  removed : List Handle
  /-- The slots that were left and have not been taken again, the one left last first. -/
  vacated : List Nat
  /-- How many values there were at most. -/
  most : Nat

namespace Ledger

/-- The ledger of a slab that has just been cleared. -/
def empty : Ledger α := ⟨[], [], [], [], 0⟩

/-- The handles given out and not removed. -/
def live (ledger : Ledger α) : List Handle := ledger.issued.filter (· ∉ ledger.removed)

/-- What was stored last under a handle given out and not removed. -/
def value? (ledger : Ledger α) (key : Handle) : Option α :=
  if key ∈ ledger.live then ledger.stored.lookup key else none

/-- Records a use. The answer matters for an insertion only, which says the handle there. -/
def note (ledger : Ledger α) : Call α → Answer α → Ledger α
  | .insert value, .handle key =>
    { issued := key :: ledger.issued
      stored := (key, value) :: ledger.stored
      removed := ledger.removed
      vacated := ledger.vacated.erase key.slot
      most := max ledger.most (ledger.live.length + 1) }
  | .replace key value, _ =>
    if key ∈ ledger.live then { ledger with stored := (key, value) :: ledger.stored } else ledger
  | .remove key, _ =>
    if key ∈ ledger.live then
      { ledger with
        removed := key :: ledger.removed
        vacated := key.slot :: ledger.vacated }
    else ledger
  | .clear, _ => empty
  | _, _ => ledger

/-- The answers that a user expects. A value is stored under a new handle, in the slot left last or,
where none was left, in a new one. Any other use finds what was stored last. -/
def Expects (ledger : Ledger α) : Call α → Answer α → Prop
  | .insert _, .handle key =>
    key ∉ ledger.issued ∧ key.slot = ledger.vacated.head?.getD ledger.most
  | .get key, .value found | .replace key _, .value found | .remove key, .value found =>
    found = ledger.value? key
  | .clear, .done => True
  | _, _ => False

variable {ledger : Ledger α} {key : Handle}

/-- The live handles are those given out and not removed. -/
@[simp] theorem mem_live : key ∈ ledger.live ↔ key ∈ ledger.issued ∧ key ∉ ledger.removed := by
  rw [live, List.mem_filter, decide_eq_true_iff]

/-- What a handle is expected to denote is what was stored last under it, as long as it is live. -/
theorem value?_eq_some_iff {value : α} :
    ledger.value? key = some value ↔ key ∈ ledger.live ∧ ledger.stored.lookup key = some value := by
  rw [value?]
  split <;> simp [*]

end Ledger

/-- Makes a use of a slab and records it. -/
def record (state : Ledger α × Slab α) (call : Call α) : Ledger α × Slab α :=
  (state.1.note call (state.2.perform call).1, (state.2.perform call).2)

/-- Makes uses of an empty slab one after another and records them. -/
def recordAll (calls : List (Call α)) : Ledger α × Slab α :=
  calls.foldl record (Ledger.empty, empty)

/-- The slab is as the ledger says.

- `answers`: every use is answered as expected.
- `distinct`: no handle was given out twice.
- `gone`: a handle that was removed is no longer good.
- `idle`: taking out what is not there changes nothing.
- `len_eq`: the values are counted.
- `freeList`: the free list leads through the slots that were left, which are the vacant ones, and
  meets none twice.
- `insert_faultless`: an insertion finds a vacant slot at the head of the free list, and a new slot
  has a number.
- `erase_faultless`: an erasure finds its slot occupied.
- `slotCount_eq`: there are as many slots as there were values at most. -/
structure Honors (slab : Slab α) (ledger : Ledger α) : Prop where
  answers : ∀ call, ledger.Expects call (slab.perform call).1
  distinct : ledger.issued.Nodup
  gone : ∀ key ∈ ledger.removed, slab.get? key = none
  idle : ∀ key, ledger.value? key = none → slab.erase key = slab
  len_eq : slab.len = ledger.live.length
  freeList : slab.FreeList ledger.vacated
  insert_faultless : ∀ value, slab.checkedInsert value = .ok (slab.insert value)
  erase_faultless : ∀ key ∈ ledger.live, slab.checkedErase key = .ok (slab.erase key)
  slotCount_eq : slab.slotCount = ledger.most

section TimesTaken

variable {slab : Slab α} {key : Handle}

/-- How often a slot has been taken, as its generation tells. -/
def timesTaken (slab : Slab α) (slot : Nat) : Nat :=
  match slab.entries[slot]? with
  | none => 0
  | some (.occupied generation _) => generation.toNat + 1
  | some (.vacant generation _) => generation.toNat

/-- An insertion takes a slot once more, in the generation that counts the times before. No other
slot is taken. -/
theorem timesTaken_insert (slab : Slab α) (value : α) :
    (slab.insert value).1.generation.toNat = slab.timesTaken (slab.insert value).1.slot ∧
      ∀ slot, (slab.insert value).2.timesTaken slot
        = slab.timesTaken slot + if slot = (slab.insert value).1.slot then 1 else 0 := by
  have happend : (slab.append value).1.generation.toNat
        = slab.timesTaken (slab.append value).1.slot ∧
      ∀ slot, (slab.append value).2.timesTaken slot
        = slab.timesTaken slot + if slot = (slab.append value).1.slot then 1 else 0 := by
    refine ⟨by simp [append, timesTaken], fun slot => ?_⟩
    by_cases hslot : slot = slab.entries.size
    · simp [append, timesTaken, hslot]
    · simp [append, timesTaken, Array.getElem?_push, hslot]
  rcases slab.insert_cases value with heq | ⟨first, generation, next, hvacant, heq⟩
  · rwa [heq]
  · have hlt := (Array.getElem?_eq_some_iff.mp hvacant).1
    rw [heq]
    refine ⟨by simp [timesTaken, hvacant], fun slot => ?_⟩
    by_cases hslot : slot = first
    · simp [timesTaken, hslot, hvacant, Array.getElem?_setIfInBounds_self_of_lt hlt]
    · simp [timesTaken, hslot, Array.getElem?_setIfInBounds_ne (Ne.symm hslot)]

/-- The slot of a good handle was taken once more than the generation of the handle says: the
first time has generation 0. -/
theorem timesTaken_of_get? {value : α} (h : slab.get? key = some value) :
    slab.timesTaken key.slot = key.generation.toNat + 1 := by
  rw [timesTaken, get?_eq_some_iff.mp h]

/-- A replacement takes no slot and leaves every count as it was. -/
theorem timesTaken_set (slab : Slab α) (key : Handle) (value : α) (slot : Nat) :
    (slab.set key value).timesTaken slot = slab.timesTaken slot := by
  cases hkey : slab.get? key with
  | none => rw [set_of_get?_eq_none hkey]
  | some old =>
    by_cases hslot : slot = key.slot
    · rw [hslot, timesTaken_of_get? (get?_set_self hkey value), timesTaken_of_get? hkey]
    · simp [set, hkey, timesTaken, Array.getElem?_setIfInBounds_ne (Ne.symm hslot)]

/-- An erasure takes no slot. Its slot does not lose count as long as that has 32 bits, since the
next generation is then one higher. -/
theorem timesTaken_erase (h : slab.timesTaken key.slot < maxSlots) (slot : Nat) :
    (slab.erase key).timesTaken slot = slab.timesTaken slot := by
  cases hkey : slab.get? key with
  | none => rw [erase_of_get?_eq_none hkey]
  | some value =>
    have htimes := timesTaken_of_get? hkey
    rw [erase_of_get? hkey]
    by_cases hslot : slot = key.slot
    · have hnext : (key.generation + 1).toNat = key.generation.toNat + 1 := by
        rw [UInt32.toNat_add]
        exact Nat.mod_eq_of_lt (htimes ▸ h)
      rw [hslot, htimes, ← hnext]
      simp [timesTaken, Array.getElem?_setIfInBounds_self_of_lt (slot_lt_of_get? hkey)]
    · simp [timesTaken, Array.getElem?_setIfInBounds_ne (Ne.symm hslot)]

end TimesTaken

/-- What the slab and its ledger keep in common from use to use.

- `sound`: the counter and the free list of the slab are right.
- `freeList`: the free list leads through the slots that were left.
- `timesTaken_eq`: a slot was taken as often as a handle was given out for it.
- `generation_lt`: the generations given out are those before.
- `distinct`: no handle was given out twice.
- `get?_eq`: a handle denotes what was stored last under it.
- `stored`: under every handle given out something was stored.
- `issued_of_removed`: only handles given out were removed.
- `slotCount_eq`: there are as many slots as there were values at most. -/
structure Tracks (slab : Slab α) (ledger : Ledger α) : Prop where
  sound : slab.Sound
  freeList : slab.FreeList ledger.vacated
  timesTaken_eq : ∀ slot, slab.timesTaken slot = ledger.issued.countP (·.slot = slot)
  generation_lt : ∀ key ∈ ledger.issued, key.generation.toNat < slab.timesTaken key.slot
  distinct : ledger.issued.Nodup
  get?_eq : ∀ key, slab.get? key = ledger.value? key
  stored : ∀ key ∈ ledger.issued, (ledger.stored.lookup key).isSome
  issued_of_removed : ∀ key ∈ ledger.removed, key ∈ ledger.issued
  slotCount_eq : slab.slotCount = ledger.most

variable {slab : Slab α} {ledger : Ledger α}

/-- A slab without slots and a ledger without entries go together. -/
theorem tracks_empty : (empty : Slab α).Tracks Ledger.empty where
  sound := sound_empty
  freeList := ⟨rfl, List.nodup_nil, by simp [Vacant, empty, Ledger.empty]⟩
  timesTaken_eq _ := rfl
  generation_lt _ h := nomatch h
  distinct := List.nodup_nil
  get?_eq _ := get?_empty _
  stored _ h := nomatch h
  issued_of_removed _ h := nomatch h
  slotCount_eq := rfl

/-- The live handles are the good ones, whatever slots they have. -/
theorem Tracks.mem_live_iff (h : slab.Tracks ledger) {key : Handle} :
    key ∈ ledger.live ↔ ∃ value, slab.get? key = some value := by
  simp only [h.get?_eq, Ledger.value?_eq_some_iff]
  constructor
  · intro hlive
    obtain ⟨value, hvalue⟩ := Option.isSome_iff_exists.mp
      (h.stored key (Ledger.mem_live.mp hlive).1)
    exact ⟨value, hlive, hvalue⟩
  · exact fun ⟨_, hlive, _⟩ => hlive

/-- As many handles are live as the slab counts values. -/
theorem Tracks.len_eq (h : slab.Tracks ledger) : slab.len = ledger.live.length := by
  rw [h.sound.counted]
  have hlive : ledger.live.Nodup := h.distinct.filter _
  refine List.Perm.length_eq ?_
  rw [List.perm_ext_iff_of_nodup (nodup_keys slab) hlive]
  intro key
  rw [mem_keys]
  exact h.mem_live_iff.symm

/-- The handle that an insertion gives has not been given out before: its slot was taken as often
as its generation says, and all handles of that slot have lower ones. -/
theorem Tracks.fst_insert_not_mem (h : slab.Tracks ledger) (value : α) :
    (slab.insert value).1 ∉ ledger.issued := by
  intro hmem
  have hlt := h.generation_lt _ hmem
  rw [← (timesTaken_insert slab value).1] at hlt
  exact Nat.lt_irrefl _ hlt

/-- A slot is vacated where one was left, and else all slots are occupied. So slots are added only
when there are more values than ever. -/
theorem Tracks.most_insert (h : slab.Tracks ledger) (value : α) :
    (slab.insert value).2.slotCount = max ledger.most (ledger.live.length + 1) := by
  have hlen : ledger.live.length + 1 ≤ (slab.insert value).2.slotCount := by
    rw [← h.len_eq, ← len_insert slab value, (h.sound.insert value).counted]
    exact length_keys_le _
  have hslots := h.freeList.slotCount_insert value
  rw [h.slotCount_eq] at hslots
  split at hslots
  · rename_i hnone
    have hhead : slab.freeHead = none := (hnone ▸ h.freeList).1
    have hfull := h.sound.slotCount_eq hhead
    rw [h.slotCount_eq, h.len_eq] at hfull
    omega
  · omega

/-- The slot of an insertion is no longer among those that were left. It was the first of them, if
there were any. -/
theorem FreeList.erase_slot_insert {free : List Nat} (h : slab.FreeList free) (value : α) :
    free.erase (slab.insert value).1.slot = free.tail := by
  rw [h.slot_insert]
  cases free <;> simp

/-- An insertion is recorded under a handle that was not given out before, with its value. -/
theorem Tracks.insert (h : slab.Tracks ledger) (value : α) :
    (slab.insert value).2.Tracks (ledger.note (.insert value) (.handle (slab.insert value).1)) := by
  have hfresh := h.fst_insert_not_mem value
  have hslots := h.most_insert value
  have hfree := h.freeList.insert value
  rw [← h.freeList.erase_slot_insert value] at hfree
  have hfound := get?_insert_self slab value
  have hother : ∀ key ≠ (slab.insert value).1,
      (slab.insert value).2.get? key = slab.get? key := fun key => get?_insert_of_ne
  obtain ⟨hgeneration, htimes⟩ := timesTaken_insert slab value
  have hsound := h.sound.insert value
  -- All that is needed of an insertion is known now, so its two branches do not matter any more.
  generalize (slab.insert value).1 = key at *
  generalize (slab.insert value).2 = after at *
  -- A handle that was never given out was not taken back either.
  have hlive : key ∉ ledger.removed := mt (h.issued_of_removed key) hfresh
  refine ⟨hsound, hfree, ?_, ?_, List.nodup_cons.mpr ⟨hfresh, h.distinct⟩, ?_, ?_, ?_, hslots⟩
  · intro slot
    show _ = (key :: ledger.issued).countP _
    rw [htimes, h.timesTaken_eq, List.countP_cons]
    by_cases hslot : slot = key.slot
    · simp [hslot]
    · simp [hslot, Ne.symm hslot]
  · intro other hmem
    rw [htimes]
    rcases List.mem_cons.mp hmem with rfl | hmem
    · rw [if_pos rfl]
      omega
    · exact Nat.lt_add_right _ (h.generation_lt other hmem)
  · intro other
    by_cases heq : other = key
    · rw [heq, hfound, eq_comm, Ledger.value?_eq_some_iff]
      exact ⟨Ledger.mem_live.mpr ⟨List.mem_cons_self, hlive⟩, List.lookup_cons_self⟩
    · rw [hother other heq, h.get?_eq]
      simp [Ledger.value?, Ledger.note, heq, lookup_cons_of_ne heq]
  · intro other hmem
    show (((key, value) :: ledger.stored).lookup other).isSome
    by_cases heq : other = key
    · rw [heq, List.lookup_cons_self]
      rfl
    · rw [lookup_cons_of_ne heq]
      exact h.stored other ((List.mem_cons.mp hmem).resolve_left heq)
  · exact fun other hmem => List.mem_cons_of_mem _ (h.issued_of_removed other hmem)

/-- A replacement is recorded under the handle that it was made under, before what was stored
earlier. -/
theorem Tracks.replace (h : slab.Tracks ledger) {key : Handle} (hlive : key ∈ ledger.live)
    (value : α) :
    (slab.set key value).Tracks { ledger with stored := (key, value) :: ledger.stored } := by
  -- The handle is good, so there is a value to be replaced.
  obtain ⟨old, hold⟩ := h.mem_live_iff.mp hlive
  refine ⟨h.sound.set key value, h.freeList.set key value, ?_, ?_, h.distinct, ?_, ?_,
    h.issued_of_removed, ?_⟩
  · exact fun slot => (timesTaken_set slab key value slot).trans (h.timesTaken_eq slot)
  · intro other hmem
    rw [timesTaken_set]
    exact h.generation_lt other hmem
  · intro other
    by_cases heq : other = key
    · rw [heq, get?_set_self hold, eq_comm, Ledger.value?_eq_some_iff]
      exact ⟨hlive, List.lookup_cons_self⟩
    · rw [get?_set_of_ne heq, h.get?_eq]
      simp [Ledger.value?, lookup_cons_of_ne heq]
  · intro other hmem
    show (((key, value) :: ledger.stored).lookup other).isSome
    by_cases heq : other = key
    · rw [heq, List.lookup_cons_self]
      rfl
    · rw [lookup_cons_of_ne heq]
      exact h.stored other hmem
  · rw [slotCount_set, h.slotCount_eq]

/-- A removal is recorded, and its slot before those that were left. This is where the bound is
used. -/
theorem Tracks.remove (h : slab.Tracks ledger) (hfew : ledger.issued.length < maxSlots)
    {key : Handle} (hlive : key ∈ ledger.live) :
    (slab.erase key).Tracks
      { ledger with
        removed := key :: ledger.removed
        vacated := key.slot :: ledger.vacated } := by
  obtain ⟨old, hold⟩ := h.mem_live_iff.mp hlive
  -- How often a slot was taken is read off its generation, which must not wrap around here.
  have htimes : ∀ slot, (slab.erase key).timesTaken slot = slab.timesTaken slot := by
    refine timesTaken_erase ?_
    rw [h.timesTaken_eq]
    exact Nat.lt_of_le_of_lt List.countP_le_length hfew
  refine ⟨h.sound.erase key, h.freeList.erase hold, ?_, ?_, h.distinct, ?_, h.stored, ?_, ?_⟩
  · exact fun slot => (htimes slot).trans (h.timesTaken_eq slot)
  · intro other hmem
    rw [htimes]
    exact h.generation_lt other hmem
  · intro other
    by_cases heq : other = key
    · rw [heq, get?_erase_self]
      simp [Ledger.value?]
    · rw [get?_erase_of_ne heq, h.get?_eq]
      simp [Ledger.value?, heq]
  · intro other hmem
    rcases List.mem_cons.mp hmem with rfl | hmem
    · exact (Ledger.mem_live.mp hlive).1
    · exact h.issued_of_removed other hmem
  · rw [slotCount_erase, h.slotCount_eq]

/-- A use of a slab and its record go together. This is the step of the induction, one case for
each kind of use. -/
theorem Tracks.record (h : slab.Tracks ledger) (hfew : ledger.issued.length < maxSlots)
    (call : Call α) :
    (record (ledger, slab) call).2.Tracks (record (ledger, slab) call).1 := by
  have hnone : ∀ key ∉ ledger.live, slab.get? key = none := by
    intro key hlive
    rw [h.get?_eq, Ledger.value?, if_neg hlive]
  cases call with
  | insert value => exact h.insert value
  | get key => exact h
  | replace key value =>
    show (slab.set key value).Tracks (if _ then _ else _)
    split
    · rename_i hlive
      exact h.replace hlive value
    · rename_i hlive
      rwa [set_of_get?_eq_none (hnone key hlive)]
  | remove key =>
    show (slab.erase key).Tracks (if _ then _ else _)
    split
    · rename_i hlive
      exact h.remove hfew hlive
    · rename_i hlive
      rwa [erase_of_get?_eq_none (hnone key hlive)]
  | clear => exact tracks_empty

/-- Handles are forgotten only when the slab is cleared, and then there are none to keep track of.
So the bound holds before a use if it holds after it, or is not needed. -/
theorem length_issued_le_record (state : Ledger α × Slab α) (call : Call α) :
    state.1.issued.length ≤ (record state call).1.issued.length ∨
      (record state call).2.Tracks (record state call).1 := by
  cases call with
  | insert value => exact .inl (Nat.le_succ _)
  | get key => exact .inl (Nat.le_refl _)
  | replace key value | remove key =>
    left
    simp only [Slab.record, perform, Ledger.note]
    split <;> exact Nat.le_refl _
  | clear => exact .inr tracks_empty

/-- All uses of a slab and their records go together, provided the bound holds at their end. -/
theorem tracks_recordAll (calls : List (Call α))
    (hfew : (recordAll calls).1.issued.length < maxSlots) :
    (recordAll calls).2.Tracks (recordAll calls).1 :=
  foldl_of_count_lt (fun state : Ledger α × Slab α => state.2.Tracks state.1)
    (fun state => state.1.issued.length) tracks_empty length_issued_le_record
    (fun _ call h hbefore => h.record hbefore call) calls hfew

/-- A slab that keeps track of its ledger honors it: what is said of generations and links becomes
what a user sees. -/
theorem Tracks.honors (h : slab.Tracks ledger) (hfew : ledger.issued.length < maxSlots) :
    slab.Honors ledger where
  answers call := by
    cases call with
    | insert value =>
      refine ⟨h.fst_insert_not_mem value, ?_⟩
      rw [h.freeList.slot_insert, h.slotCount_eq]
    | get key | replace key value | remove key => exact h.get?_eq key
    | clear => trivial
  distinct := h.distinct
  gone key hkey := by
    have hlive : key ∉ ledger.live := fun hlive => (Ledger.mem_live.mp hlive).2 hkey
    rw [h.get?_eq, Ledger.value?, if_neg hlive]
  idle key hkey := erase_of_get?_eq_none ((h.get?_eq key).trans hkey)
  len_eq := h.len_eq
  freeList := h.freeList
  -- There are no more values than handles were given out, and of these there are few.
  insert_faultless value := by
    refine h.sound.checkedInsert_eq value ?_
    rw [len_insert, h.len_eq]
    exact Nat.lt_of_le_of_lt (List.length_filter_le _ _) hfew
  erase_faultless key hkey := by
    obtain ⟨value, hvalue⟩ := h.mem_live_iff.mp hkey
    exact h.sound.checkedErase_eq hvalue
  slotCount_eq := h.slotCount_eq

/-- Whatever uses are made of a slab, it honors its ledger, as long as fewer than 2 ^ 32 handles
were given out since it was last cleared. -/
theorem honors_recordAll (calls : List (Call α))
    (hfew : (recordAll calls).1.issued.length < maxSlots) :
    (recordAll calls).2.Honors (recordAll calls).1 :=
  (tracks_recordAll calls hfew).honors hfew

/-- Two slots are left and taken again, the one left last first. The old handles stay expired. -/
theorem honors_recordAll_reused :
    let calls : List (Call Nat) :=
      [.insert 9, .clear, .insert 10, .insert 20, .insert 30, .remove ⟨0, 0⟩, .remove ⟨2, 0⟩,
        .insert 40, .replace ⟨1, 0⟩ 21, .replace ⟨2, 0⟩ 31, .remove ⟨0, 0⟩, .insert 50]
    (recordAll calls).1.issued.length < maxSlots ∧
      (recordAll calls).2.Honors (recordAll calls).1 ∧
      (recordAll calls).1.issued = [⟨0, 1⟩, ⟨2, 1⟩, ⟨2, 0⟩, ⟨1, 0⟩, ⟨0, 0⟩] ∧
      (recordAll calls).1.removed = [⟨2, 0⟩, ⟨0, 0⟩] ∧
      (recordAll calls).2.get? ⟨1, 0⟩ = some 21 ∧ (recordAll calls).2.slotCount = 3 := by
  intro calls
  have hfew : (recordAll calls).1.issued.length < maxSlots := by decide
  exact ⟨hfew, honors_recordAll calls hfew, by decide, by decide, by decide, by decide⟩

end Slab

end Filestore
