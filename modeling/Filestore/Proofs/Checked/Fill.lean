import Filestore.Proofs.Checked.File
import Filestore.Proofs.Store.Fill

/-!
# `Filestore.Proofs.Checked.Fill`: a fill that checks its sums

The loop of a fill counts the bytes stored up to the number that was asked for, in a 64-bit word,
and what is left to be stored is the difference of the two. The checked twin looks whether the
difference is above zero and whether the sum fits in its word, and faults where the loop would go on
for longer than its fuel.

A fill of a sound store is faultless (`Sound.checkedFill_eq`). A write stores no more than it is
given, so the sum stays at most the number asked for, and a write after which the loop goes on has
stored a byte.
-/

set_option autoImplicit false

namespace Filestore

namespace Store

/-- Writes the bytes `chunk` over and over until there are `len` of them, after `written` bytes
stored before. -/
def checkedFillFrom (fd : Nat) (chunk : Bytes) (len : Nat) :
    Nat → Nat → Store → Except Fault (Except Error Nat × Store)
  | 0, _, _ => .error .endless
  | fuel + 1, written, store => do
    require (written ≤ len) .underflow
    let want := min (len - written) chunk.length
    match store.write fd (chunk.take want) with
    | (.error e, next) => .ok (if written = 0 then .error e else .ok written, next)
    | (.ok count, next) => do
      require (written + count < File.maxSize) .overflow
      if count = want ∧ written + count < len then
        checkedFillFrom fd chunk len fuel (written + count) next
      else .ok (.ok (written + count), next)

/-- Writes `byte` `len` times at the cursor of a descriptor. -/
def checkedFill (store : Store) (fd len : Nat) (byte : UInt8) :
    Except Fault (Except Error Nat × Store) :=
  checkedFillFrom fd (List.replicate (min len store.config.blockSize) byte) len (len + 1) 0 store

variable {store : Store} {fd len fuel written : Nat} {chunk : Bytes}

/-- A write stores no more than it is given, in full or as a short one. -/
theorem Sound.le_of_write_eq_ok (h : store.Sound) {data : Bytes} {count : Nat}
    (hwrite : (store.write fd data).1 = .ok count) : count ≤ data.length := by
  obtain ⟨hall, hsome⟩ := h.write_accounted hwrite
  by_cases hkind : (store.write fd data).2.lastError = .noError
  · exact Nat.le_of_eq (hall.mp hkind)
  · exact Nat.le_of_lt (hsome hkind).2.2

/-- The loop is faultless where the number asked for fits in its word. What is written so far and
what is left add up to that number all along. -/
theorem Sound.checkedFillFrom_eq (h : store.Sound) (hchunk : chunk = [] → len = 0)
    (hwritten : written ≤ len) (hfuel : len - written < fuel) (hlen : len < File.maxSize) :
    checkedFillFrom fd chunk len fuel written store
      = .ok (fillFrom fd chunk fuel written (len - written) store) := by
  induction fuel generalizing written store with
  | zero => exact absurd hfuel (Nat.not_lt_zero _)
  | succ fuel ih =>
    rw [checkedFillFrom, fillFrom, require_of hwritten, ok_bind]
    simp only
    have hnext := (h.continues_write fd (chunk.take (min (len - written) chunk.length))).sound
    have hle : ∀ count,
        (store.write fd (chunk.take (min (len - written) chunk.length))).1 = .ok count →
        count ≤ (chunk.take (min (len - written) chunk.length)).length :=
      fun _ => h.le_of_write_eq_ok
    generalize store.write fd (chunk.take (min (len - written) chunk.length)) = outcome at hnext hle
    obtain ⟨result, next⟩ := outcome
    cases result with
    | error e => rfl
    | ok count =>
      have hcount : count ≤ min (len - written) chunk.length := by
        have hcount := hle count rfl
        rw [List.length_take] at hcount
        omega
      simp only [require_of (show written + count < File.maxSize by omega), ok_bind]
      by_cases hmore : count = min (len - written) chunk.length ∧ count < len - written
      · -- The loop goes on after a full write of a chunk that is not empty.
        have hpos : 0 < chunk.length := List.length_pos_iff.mpr fun hnil =>
          absurd (hchunk hnil) (by omega)
        rw [if_pos hmore, if_pos ⟨hmore.1, by omega⟩,
          ih hnext (by omega) (by omega), Nat.sub_add_eq]
      · rw [if_neg hmore, if_neg fun hboth => hmore ⟨hboth.1, by omega⟩]

/-- A fill is faultless where the number asked for fits in its word. An empty chunk is possible
only where nothing is asked for. -/
theorem Sound.checkedFill_eq (h : store.Sound) (fd : Nat) (byte : UInt8)
    (hlen : len < File.maxSize) :
    store.checkedFill fd len byte = .ok (store.fill fd len byte) := by
  have hchunk : List.replicate (min len store.config.blockSize) byte = [] → len = 0 := by
    have hpos := store.config.blockSize_pos
    rw [List.replicate_eq_nil_iff]
    omega
  exact h.checkedFillFrom_eq hchunk (Nat.zero_le len) (Nat.lt_succ_self len) hlen

end Store

end Filestore
