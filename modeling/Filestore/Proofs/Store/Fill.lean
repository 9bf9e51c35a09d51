import Filestore.Proofs.Store.Atomic
import Filestore.Store.Fill

/-!
# `Filestore.Proofs.Store.Fill`: what a fill does

A fill writes a chunk again and again, and it ends like one write of all the bytes. What is
remembered of a write and of a fill alike is whether all the bytes are in (`Accounted`): either
all of them are and nothing went wrong, or some are and the limit kept the others out.

For a fill that rests on its last write. Every write before it stored all that it was given, so
the last one decides (`Sound.fill_accounted`). A fill that fails has failed in its first write and
leaves no trace (`Sound.fill_atomic`), for a later failure is answered with the number of bytes
that are already in.

The proofs are by induction on the fuel of the loop, in the three cases that one turn has:
`fillFrom_of_error`, `fillFrom_of_full` and `fillFrom_of_last`. The fuel is more than the bytes
left, and every full turn stores at least one, so it is never used up; this is where an empty
chunk has to be excluded.
-/

set_option autoImplicit false

namespace Filestore

/-- What a store remembers of a write that stored `count` bytes: that they are all the bytes that
were asked for, or that they are some and the limit kept the others out. -/
def Accounted (count requested : Nat) (kind : ErrorKind) : Prop :=
  (kind = .noError ↔ count = requested) ∧
    (kind ≠ .noError → kind = .fileTooLarge ∧ 0 < count ∧ count < requested)

/-- A write that stored all the bytes and remembers no error is right about it. -/
theorem accounted_self (count : Nat) : Accounted count count .noError :=
  ⟨iff_of_true rfl rfl, fun hne => absurd rfl hne⟩

/-- A write that stored some bytes but not all, and remembers the limit, is right about it. -/
theorem accounted_of_lt {count requested : Nat} (hpos : 0 < count) (hlt : count < requested) :
    Accounted count requested .fileTooLarge :=
  ⟨iff_of_false (by decide) (Nat.ne_of_lt hlt), fun _ => ⟨rfl, hpos, hlt⟩⟩

/-- What is remembered of the last part of the bytes is so of all, if the parts before are in: all
are stored just when the last part is, and some are in any case. -/
theorem Accounted.last {count part requested : Nat} {kind : ErrorKind}
    (h : Accounted count part kind) (hle : part ≤ requested)
    (hend : count = part → part = requested) (done : Nat) :
    Accounted (done + count) (done + requested) kind := by
  by_cases hall : count = part
  · rw [h.1.mpr hall, hall, hend hall]
    exact accounted_self _
  · obtain ⟨rfl, hpos, hlt⟩ := h.2 (mt h.1.mp hall)
    exact accounted_of_lt (by omega) (by omega)

namespace Store

variable {store : Store} {fd fuel done len count : Nat} {data chunk : Bytes} {e : Error}

/-- A write that succeeds is remembered for what it stored: no error just when all the bytes are
in, and otherwise the limit, with at least one byte stored. -/
theorem Sound.write_accounted (h : store.Sound) (hwrite : (store.write fd data).1 = .ok count) :
    Accounted count data.length (store.write fd data).2.lastError := by
  rcases h.opened_cases fd with ⟨-, hopened⟩ | ⟨descriptor, file, hget, hfile, -⟩
  · simp only [Store.write, hopened] at hwrite
    cases hwrite
  · obtain ⟨pos, hstands⟩ := h.exists_stands hget
    obtain ⟨stored, hstored, hresult, hkind, -⟩ := h.write_spec hget hfile hstands data
    have hle := hstored ▸ store.config.admitted_le pos data.length
    rw [hwrite] at hresult
    rw [hkind]
    split at hresult
    · cases hresult
    · rename_i hsome
      cases hresult
      split
      · rename_i hlt
        -- A write of some bytes that stored none of them would have failed.
        refine accounted_of_lt (Nat.pos_of_ne_zero fun hzero => hsome ⟨hzero, ?_⟩) hlt
        exact List.length_pos_iff.mp (Nat.zero_lt_of_lt hlt)
      · rename_i hge
        rw [Nat.le_antisymm hle (Nat.le_of_not_lt hge)]
        exact accounted_self _

/-- A write through an open descriptor is refused for its size, if it is, and only if there was
something to write. -/
theorem Sound.kind_of_write_eq_error (h : store.Sound) (hopen : store.descriptors.get? fd ≠ none)
    (hwrite : (store.write fd data).1 = .error e) : e.kind = .fileTooLarge ∧ 0 < data.length := by
  obtain ⟨descriptor, hget⟩ := Option.ne_none_iff_exists'.mp hopen
  obtain ⟨file, hfile⟩ := h.exists_file hget
  obtain ⟨pos, hstands⟩ := h.exists_stands hget
  obtain ⟨stored, -, hresult, -⟩ := h.write_spec hget hfile hstands data
  rw [hwrite] at hresult
  split at hresult
  · rename_i hnone
    cases hresult
    exact ⟨rfl, List.length_pos_iff.mpr hnone.2⟩
  · cases hresult

/-- A write leaves its descriptor open, so the next turn of a loop goes through the same one. -/
theorem Sound.get?_write_ne_none (h : store.Sound) (hopen : store.descriptors.get? fd ≠ none)
    (data : Bytes) : (store.write fd data).2.descriptors.get? fd ≠ none := by
  obtain ⟨descriptor, hget⟩ := Option.ne_none_iff_exists'.mp hopen
  obtain ⟨file, hfile⟩ := h.exists_file hget
  obtain ⟨pos, hstands⟩ := h.exists_stands hget
  obtain ⟨stored, -, -, -, hedited⟩ := h.write_spec hget hfile hstands data
  obtain ⟨descriptor', hget', -⟩ := hedited.moved fd descriptor pos hget rfl hstands
  exact Option.ne_none_iff_exists'.mpr ⟨descriptor', hget'⟩

section Loop

-- The three ways in which one turn of the loop may go.

/-- A turn whose write is refused ends the loop: with that error if nothing was stored so far, and
with the number of bytes stored otherwise. -/
theorem fillFrom_of_error
    (hwrite : (store.write fd (chunk.take (min len chunk.length))).1 = .error e) :
    fillFrom fd chunk (fuel + 1) done len store =
      (if done = 0 then .error e else .ok done,
        (store.write fd (chunk.take (min len chunk.length))).2) := by
  rw [fillFrom]
  generalize store.write fd (chunk.take (min len chunk.length)) = outcome at hwrite
  obtain ⟨result, next⟩ := outcome
  cases hwrite
  rfl

/-- A turn that stored its whole chunk with bytes left goes on with one turn less and the bytes
that are still to be stored. -/
theorem fillFrom_of_full
    (hwrite : (store.write fd (chunk.take (min len chunk.length))).1 = .ok count)
    (hfull : count = min len chunk.length) (hless : count < len) :
    fillFrom fd chunk (fuel + 1) done len store =
      fillFrom fd chunk fuel (done + count) (len - count)
        (store.write fd (chunk.take (min len chunk.length))).2 := by
  rw [fillFrom]
  generalize store.write fd (chunk.take (min len chunk.length)) = outcome at hwrite
  obtain ⟨result, next⟩ := outcome
  cases hwrite
  exact if_pos ⟨hfull, hless⟩

/-- A turn that was short, or had no more bytes to come, ends the loop with what is stored by
then. -/
theorem fillFrom_of_last
    (hwrite : (store.write fd (chunk.take (min len chunk.length))).1 = .ok count)
    (hlast : ¬ (count = min len chunk.length ∧ count < len)) :
    fillFrom fd chunk (fuel + 1) done len store =
      (.ok (done + count), (store.write fd (chunk.take (min len chunk.length))).2) := by
  rw [fillFrom]
  generalize store.write fd (chunk.take (min len chunk.length)) = outcome at hwrite
  obtain ⟨result, next⟩ := outcome
  cases hwrite
  exact if_neg hlast

/-- A loop that has stored something does not fail, whatever its fuel and whatever comes after. It
answers with a number of bytes. -/
theorem exists_fillFrom_eq_ok (hdone : 0 < done) :
    ∃ total, (fillFrom fd chunk fuel done len store).1 = .ok total := by
  induction fuel generalizing done len store with
  | zero => exact ⟨done, rfl⟩
  | succ fuel ih =>
    cases hwrite : (store.write fd (chunk.take (min len chunk.length))).1 with
    | error e =>
      rw [fillFrom_of_error hwrite, if_neg (Nat.pos_iff_ne_zero.mp hdone)]
      exact ⟨done, rfl⟩
    | ok count =>
      by_cases hmore : count = min len chunk.length ∧ count < len
      · rw [fillFrom_of_full hwrite hmore.1 hmore.2]
        exact ih (Nat.add_pos_left hdone count)
      · rw [fillFrom_of_last hwrite hmore]
        exact ⟨done + count, rfl⟩

/-- A loop of writes leads to a sound store with the same settings, as each of its writes does,
and with no fuel the store is not touched. -/
theorem Sound.continues_fillFrom (h : store.Sound) (fd : Nat) (chunk : Bytes)
    (fuel done len : Nat) : Continues store (fillFrom fd chunk fuel done len store).2 := by
  induction fuel generalizing done len store with
  | zero => exact ⟨h, rfl⟩
  | succ fuel ih =>
    have hnext := h.continues_write fd (chunk.take (min len chunk.length))
    cases hwrite : (store.write fd (chunk.take (min len chunk.length))).1 with
    | error e =>
      rw [fillFrom_of_error hwrite]
      exact hnext
    | ok count =>
      by_cases hmore : count = min len chunk.length ∧ count < len
      · rw [fillFrom_of_full hwrite hmore.1 hmore.2]
        have hrest := ih hnext.sound (done + count) (len - count)
        exact ⟨hrest.sound, hrest.config_eq.trans hnext.config_eq⟩
      · rw [fillFrom_of_last hwrite hmore]
        exact hnext

/-- A loop that succeeds is remembered for what it stored, with the bytes stored before it, if its
fuel is more than the bytes left and its chunk is not empty. -/
theorem Sound.fillFrom_accounted (h : store.Sound) (hopen : store.descriptors.get? fd ≠ none)
    (hchunk : chunk = [] → len = 0) (hfuel : len < fuel) {total : Nat}
    (hfill : (fillFrom fd chunk fuel done len store).1 = .ok total) :
    Accounted total (done + len) (fillFrom fd chunk fuel done len store).2.lastError := by
  induction fuel generalizing done len store with
  | zero => exact absurd hfuel (Nat.not_lt_zero len)
  | succ fuel ih =>
    have hwant : (chunk.take (min len chunk.length)).length = min len chunk.length := by
      rw [List.length_take, Nat.min_assoc, Nat.min_self]
    cases hwrite : (store.write fd (chunk.take (min len chunk.length))).1 with
    | error e =>
      -- The bytes of the writes before are in, and the limit keeps out the rest.
      obtain ⟨hkind, hsome⟩ := h.kind_of_write_eq_error hopen hwrite
      rw [fillFrom_of_error hwrite] at hfill ⊢
      rw [h.write_atomic fd _ e hwrite, hkind]
      split at hfill
      · cases hfill
      · rename_i hdone
        cases hfill
        exact accounted_of_lt (Nat.pos_of_ne_zero hdone) (by omega)
    | ok count =>
      have haccounted := h.write_accounted hwrite
      rw [hwant] at haccounted
      by_cases hmore : count = min len chunk.length ∧ count < len
      · obtain ⟨hfull, hless⟩ := hmore
        have hchunk' : 0 < chunk.length := List.length_pos_iff.mpr fun hnil =>
          absurd (hchunk hnil) (by omega)
        rw [fillFrom_of_full hwrite hfull hless] at hfill ⊢
        have hrest := ih (h.continues_write fd _).sound (h.get?_write_ne_none hopen _)
          (fun hnil => by rw [hnil] at hchunk'; cases hchunk') (by omega) hfill
        rwa [show done + count + (len - count) = done + len by omega] at hrest
      · rw [fillFrom_of_last hwrite hmore] at hfill ⊢
        cases hfill
        exact haccounted.last (Nat.min_le_left _ _) (by omega) done

end Loop

/-- The chunk of a fill is empty only if there is nothing to fill, because a block has room for at
least one byte. -/
private theorem eq_zero_of_chunk_eq_nil {byte : UInt8}
    (hnil : List.replicate (min len store.config.blockSize) byte = []) : len = 0 := by
  have hpos := store.config.blockSize_pos
  have hlength := congrArg List.length hnil
  rw [List.length_replicate, List.length_nil] at hlength
  omega

/-- A fill leaves a store that continues a sound one: it is nothing but writes. -/
theorem Sound.continues_fill (h : store.Sound) (fd len : Nat) (byte : UInt8) :
    Continues store (store.fill fd len byte).2 :=
  h.continues_fillFrom fd _ _ _ _

/-- A fill that succeeds is remembered for what it stored, as one write of all its bytes would
be. -/
theorem Sound.fill_accounted (h : store.Sound) {byte : UInt8}
    (hfill : (store.fill fd len byte).1 = .ok count) :
    Accounted count len (store.fill fd len byte).2.lastError := by
  have hopen : store.descriptors.get? fd ≠ none := by
    intro hget
    have hwrite : ∀ data, (store.write fd data).1 = .error (.badDescriptor fd) := fun data => by
      simp only [Store.write, opened_eq_error hget]
      rfl
    rw [fill, fillFrom_of_error (hwrite _)] at hfill
    cases hfill
  have haccounted := h.fillFrom_accounted hopen eq_zero_of_chunk_eq_nil (Nat.lt_succ_self len) hfill
  rwa [Nat.zero_add] at haccounted

/-- A fill that fails leaves the store as it was, but for the outcome that the store remembers. It
is the first write that failed, and a write is atomic. -/
theorem Sound.fill_atomic (h : store.Sound) (fd len : Nat) (byte : UInt8) :
    Atomic store (store.fill fd len byte) := by
  intro e hfill
  rw [fill] at hfill ⊢
  generalize hchunk : List.replicate (min len store.config.blockSize) byte = chunk at hfill ⊢
  cases hwrite : (store.write fd (chunk.take (min len chunk.length))).1 with
  | error cause =>
    rw [fillFrom_of_error hwrite] at hfill ⊢
    cases hfill
    exact h.write_atomic fd _ _ hwrite
  | ok count =>
    by_cases hmore : count = min len chunk.length ∧ count < len
    · -- The first write stored a byte, so the rest of the loop does not fail.
      obtain ⟨hfull, hless⟩ := hmore
      have hsome : 0 < chunk.length := List.length_pos_iff.mpr fun hnil =>
        absurd (eq_zero_of_chunk_eq_nil (hchunk.trans hnil)) (by omega)
      rw [fillFrom_of_full hwrite hfull hless] at hfill
      obtain ⟨total, htotal⟩ := exists_fillFrom_eq_ok (show 0 < 0 + count by omega)
      cases htotal.symm.trans hfill
    · rw [fillFrom_of_last hwrite hmore] at hfill
      cases hfill

end Store

end Filestore
