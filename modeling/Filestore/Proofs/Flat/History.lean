import Filestore.Proofs.Flat.Step
import Filestore.Proofs.Store.Reachable

/-!
# `Filestore.Proofs.Flat.History`: all that a caller sees of a store

After every call a caller sees the answer, the outcome that is remembered, and the counts of open
descriptors, files and blocks. The `history` of a list of calls is what is seen after each of
them. A store and its reference have the same history (`history_eq_history`): blocks, links,
cursors, handles and free lists never show.

The one condition is that no call asks for a buffer that cannot be had (`Call.Affordable`). A read
into a buffer of the store's choice fails where that would be longer than any buffer can be, and
the reference has no buffers. Every other call may be anything: any name, any number, whether it
is in use or not, any size, also one past the limit.

The proof is an induction over the calls with the relation `Represents` as invariant, and one case
for a call, which is `Represents.perform`. The numbering that goes with the relation changes as
files are created, so the induction leaves it open.
-/

set_option autoImplicit false

namespace Filestore

/-- What a caller sees after a call. -/
structure Observation where
  /-- The answer. -/
  answer : Except Error Answer
  /-- The outcome that is remembered. -/
  lastError : ErrorKind
  /-- How many descriptors are open. -/
  openCount : Nat
  /-- How many files are in storage. -/
  fileCount : Nat
  /-- How many blocks are in storage. -/
  blockCount : Nat
  deriving DecidableEq, Repr

/-- What is seen of a store that gave an answer. -/
def Store.observe (store : Store) (answer : Except Error Answer) : Observation :=
  ⟨answer, store.lastError, store.openCount, store.fileCount, store.blockCount⟩

/-- What is seen after each of the calls. -/
def Store.history (store : Store) : List Call → List Observation
  | [] => []
  | call :: calls =>
    let outcome := store.perform call
    outcome.2.observe outcome.1 :: outcome.2.history calls

namespace FlatStore

/-- What is seen of a reference store that gave an answer. -/
def observe (flat : FlatStore) (answer : Except Error Answer) : Observation :=
  ⟨answer, flat.lastError, flat.openCount, flat.fileCount, flat.blockCount⟩

/-- What is seen after each of the calls. -/
def history (flat : FlatStore) : List Call → List Observation
  | [] => []
  | call :: calls =>
    let outcome := flat.perform call
    outcome.2.observe outcome.1 :: outcome.2.history calls

variable {num : FileId → Nat} {flat : FlatStore} {store : Store}

/-- As much is seen of a store as of its reference: what is remembered, and the three counts. -/
theorem Represents.observe_eq (h : flat.Represents num store) (hsound : store.Sound)
    (answer : Except Error Answer) : flat.observe answer = store.observe answer := by
  rw [observe, Store.observe, h.lastError_eq, h.openCount_eq hsound, h.fileCount_eq hsound,
    h.blockCount_eq hsound]

/-- From a store and its reference on, the same is seen after each of any number of calls. -/
theorem Represents.history_eq (h : flat.Represents num store) (hsound : store.Sound)
    {calls : List Call} (hcalls : ∀ call ∈ calls, call.Affordable) :
    flat.history calls = store.history calls := by
  -- The numbering goes along with the stores: a call may number a new file.
  induction calls generalizing num flat store with
  | nil => rfl
  | cons call calls ih =>
    obtain ⟨hanswer, num', hnext⟩ := h.perform hsound call (hcalls call List.mem_cons_self)
    have hsound' := (hsound.continues call).sound
    have hrest := ih hnext hsound' fun call hcall => hcalls call (List.mem_cons_of_mem _ hcall)
    simp only [history, Store.history, hanswer, hnext.observe_eq hsound', hrest]

/-- A store and its reference have the same history, from the empty store on: every answer, every
outcome that is remembered and every count, after each of the calls. -/
theorem history_eq_history (config : Config) (calls : List Call)
    (hcalls : ∀ call ∈ calls, call.Affordable) :
    (Store.empty config).history calls = (FlatStore.empty config).history calls :=
  ((represents_empty config fun _ => 0).history_eq (Store.sound_empty config) hcalls).symm

/-- Six bytes are allowed. Of eight that are written six are stored, and what is remembered is that
the file would be too large; the next byte is refused. The file is deleted and still read through a
second descriptor, and its two blocks go when that one is closed. -/
theorem history_eq_history_deleted :
    let config : Config := ⟨4, some 6, by decide, by decide⟩
    let calls : List Call := [.openFile "a" true, .openFile "a" false,
      .write 0 [1, 2, 3, 4, 5, 6, 7, 8], .write 0 [9], .delete "a", .readUpTo 1 5, .close 0,
      .close 1]
    (∀ call ∈ calls, call.Affordable) ∧
      (Store.empty config).history calls = (FlatStore.empty config).history calls ∧
      (Store.empty config).history calls =
        [⟨.ok (.descriptor 0), .noError, 1, 1, 0⟩,
          ⟨.ok (.descriptor 1), .noError, 2, 1, 0⟩,
          ⟨.ok (.count 6), .fileTooLarge, 2, 1, 2⟩,
          ⟨.error (.fileTooLarge "a" 6), .fileTooLarge, 2, 1, 2⟩,
          ⟨.ok .done, .noError, 2, 1, 2⟩,
          ⟨.ok (.data [1, 2, 3, 4, 5]), .noError, 2, 1, 2⟩,
          ⟨.ok .done, .noError, 1, 1, 2⟩,
          ⟨.ok .done, .noError, 0, 0, 0⟩] := by
  intro config calls
  have hcalls : ∀ call ∈ calls, call.Affordable := by
    simp [calls, Call.Affordable, Block.maxBuffer]
  exact ⟨hcalls, history_eq_history config calls hcalls, by decide +kernel⟩

end FlatStore

end Filestore
