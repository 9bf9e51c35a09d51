import Filestore.Proofs.Checked.Fill
import Filestore.Proofs.Store.Split

/-!
# `Filestore.Proofs.Store.FillAtOnce`: a fill is one write

A fill holds no more than a block's worth of bytes and writes them over and over, and it has the
result of one write of all of them and leaves the store that one leaves, to the last detail. This
rests on `Sound.write_append_of_full` and `Sound.write_append_of_short`: a full write of a chunk is
a part of the write of all bytes, and one that is not full is that write. A failure after the first
chunk is where the one write would have been short.

The induction is on the turns of the loop (`Sound.fillFrom_eq`). `Reachable.fill_eq_write_replicate`
is the main result.
-/

set_option autoImplicit false

namespace Filestore

namespace Store

/-- The result of a write after `done` bytes stored before. -/
def carried (done : Nat) : Except Error Nat → Except Error Nat
  | .error e => if done = 0 then .error e else .ok done
  | .ok count => .ok (done + count)

/-- With nothing stored before, the result is that of the write. -/
theorem carried_zero (result : Except Error Nat) : carried 0 result = result := by
  cases result with
  | error e => rfl
  | ok count => rw [carried, Nat.zero_add]

/-- After some bytes, what a write stores is added to them, whether or not it is refused. So the
answer is a number of bytes in any case. -/
theorem carried_of_pos {done : Nat} (hdone : 0 < done) (result : Except Error Nat) :
    carried done result = .ok (done + stored result) := by
  cases result with
  | error e => exact if_neg (Nat.pos_iff_ne_zero.mp hdone)
  | ok count => rfl

variable {config : Config} {store : Store} {fd fuel done len size : Nat} {byte : UInt8}
  {chunk : Bytes}

/-- A turn of the loop that is the last one has the result of its write. It is the last one if its
write did not store the whole chunk, or if the chunk was all that was left. -/
theorem fillFrom_of_not_full
    (hlast : (store.write fd (chunk.take (min len chunk.length))).1 ≠ .ok (min len chunk.length) ∨
      min len chunk.length = len) :
    fillFrom fd chunk (fuel + 1) done len store =
      (carried done (store.write fd (chunk.take (min len chunk.length))).1,
        (store.write fd (chunk.take (min len chunk.length))).2) := by
  cases hwrite : (store.write fd (chunk.take (min len chunk.length))).1 with
  | error e => rw [fillFrom_of_error hwrite, carried]
  | ok count =>
    rw [fillFrom_of_last hwrite, carried]
    rintro ⟨rfl, hless⟩
    rcases hlast with hshort | hall
    · exact hshort hwrite
    · omega

/-- The loop has the result of one write of all its bytes and leaves the store that one leaves.
The induction is on the fuel: a full turn is split off the one write, and a turn that is short is
that write. -/
theorem Sound.fillFrom_eq (h : store.Sound) (hsize : size = 0 → len = 0) (hfuel : len < fuel) :
    fillFrom fd (List.replicate size byte) fuel done len store =
      (carried done (store.write fd (List.replicate len byte)).1,
        (store.write fd (List.replicate len byte)).2) := by
  induction fuel generalizing done len store with
  | zero => exact absurd hfuel (Nat.not_lt_zero len)
  | succ fuel ih =>
    have hlength : (List.replicate size byte).length = size := List.length_replicate
    have htake : (List.replicate size byte).take (min len size)
        = List.replicate (min len size) byte := by
      rw [List.take_replicate, Nat.min_assoc, Nat.min_self]
    by_cases hall : min len size = len
    · rw [fillFrom_of_not_full (.inr (by rw [hlength, hall])), hlength, htake, hall]
    · -- The chunk is not empty, and it is the first part of all bytes.
      have hne : List.replicate (min len size) byte ≠ [] := by
        rw [ne_eq, List.replicate_eq_nil_iff]
        omega
      have hwhole : List.replicate len byte = List.replicate (min len size) byte
          ++ List.replicate (len - min len size) byte := by
        rw [List.replicate_append_replicate]
        congr 1
        omega
      have hcount : (List.replicate (min len size) byte).length = min len size :=
        List.length_replicate
      by_cases hfull : (store.write fd (List.replicate (min len size) byte)).1 = .ok (min len size)
      · have hwrite : (store.write fd ((List.replicate size byte).take
            (min len (List.replicate size byte).length))).1 = .ok (min len size) := by
          rw [hlength, htake, hfull]
        have hsound := (h.continues_write fd (List.replicate (min len size) byte)).sound
        rw [fillFrom_of_full hwrite (by rw [hlength]) (by omega), hlength, htake,
          ih hsound (by omega) (by omega), hwhole,
          h.write_append_of_full hne (hcount.symm ▸ hfull), carried_of_pos (by omega), carried,
          hcount, Nat.add_assoc]
      · rw [fillFrom_of_not_full (.inl (by rwa [hlength, htake])), hlength, htake, hwhole,
          h.write_append_of_short hne (hcount.symm ▸ hfull)]

/-- The loop writes the whole chunk some number of times, and then a part of it. -/
theorem exists_fillFrom_eq_performAll (hchunk : chunk = [] → len = 0) (hfuel : len < fuel) :
    ∃ (full : Nat) (last : Bytes), last <+: chunk ∧
      (fillFrom fd chunk fuel done len store).2 =
        (store.performAll ((List.replicate full chunk ++ [last]).map (Call.write fd))).2 := by
  induction fuel generalizing done len store with
  | zero => exact absurd hfuel (Nat.not_lt_zero len)
  | succ fuel ih =>
    by_cases hmore : (store.write fd (chunk.take (min len chunk.length))).1
        ≠ .ok (min len chunk.length) ∨ min len chunk.length = len
    · rw [fillFrom_of_not_full hmore]
      exact ⟨0, chunk.take (min len chunk.length), List.take_prefix _ _, rfl⟩
    · obtain ⟨hfull, hless⟩ := not_or.mp hmore
      have hpos : 0 < chunk.length := List.length_pos_iff.mpr fun hnil =>
        absurd (hchunk hnil) (by omega)
      have hmin : min len chunk.length = chunk.length := by omega
      rw [fillFrom_of_full (not_not.mp hfull) rfl (by omega), hmin, List.take_length]
      have hempty : chunk = [] → len - chunk.length = 0 := fun hnil => by
        rw [hchunk hnil, Nat.zero_sub]
      obtain ⟨full, last, hlast, hcalls⟩ := ih hempty (by omega)
      exact ⟨full + 1, last, hlast, hcalls⟩

/-- A fill is one write of all its bytes.

It has the same result and leaves the same store, to the last detail. Its loop ends, and where the
number of bytes fits in its word none of its sums and differences leaves it. The loop writes a
chunk, which is no longer than a block, some number of times, and then a part of it. -/
theorem Reachable.fill_eq_write_replicate (h : Reachable config store) (fd len : Nat)
    (byte : UInt8) :
    store.fill fd len byte = store.write fd (List.replicate len byte) ∧
    (len < File.maxSize → store.checkedFill fd len byte = .ok (store.fill fd len byte)) ∧
    ∃ (full : Nat) (last : Bytes), last <+: List.replicate (min len store.config.blockSize) byte ∧
      (store.fill fd len byte).2 = (store.performAll
        ((List.replicate full (List.replicate (min len store.config.blockSize) byte)
          ++ [last]).map (Call.write fd))).2 := by
  have hpos := store.config.blockSize_pos
  have hsize : min len store.config.blockSize = 0 → len = 0 := by omega
  refine ⟨?_, h.sound.checkedFill_eq fd byte, ?_⟩
  · rw [fill, h.sound.fillFrom_eq hsize (Nat.lt_succ_self len), carried_zero]
  · refine exists_fillFrom_eq_performAll (fun hnil => hsize ?_) (Nat.lt_succ_self len)
    exact (List.replicate_eq_nil_iff byte).mp hnil

/-- The first chunk goes over the end of a block, and the limit cuts the second one. The number of
bytes asked for is far more than there is room for. -/
theorem fill_eq_write_replicate_huge :
    let config : Config := ⟨4, some 8, by decide, by decide⟩
    let store := ((empty config).performAll [.openFile "a" true, .write 0 [1, 2, 3]]).2
    let len := 18446744073709551615
    Reachable config store ∧
      (store.fill 0 len 7).1 = .ok 5 ∧ (store.fill 0 len 7).2.lastError = .fileTooLarge ∧
      store.fill 0 len 7 = store.write 0 (List.replicate len 7) ∧
      store.checkedFill 0 len 7 = .ok (store.fill 0 len 7) := by
  intro config store len
  have h : Reachable config store := reachable_iff_exists_performAll.mpr ⟨_, rfl⟩
  obtain ⟨hwrite, hchecked, -⟩ := h.fill_eq_write_replicate 0 len 7
  exact ⟨h, by decide, by decide, hwrite, hchecked (by decide)⟩

end Store

end Filestore
