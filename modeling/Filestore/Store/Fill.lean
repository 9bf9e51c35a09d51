import Filestore.Store.Transfer

/-!
# `Filestore.Store.Fill`: writing one byte many times

A fill asks for more bytes than may be worth holding at once, so it writes at most a block's worth
of them at a time. It ends like one write of all the bytes: a failure after the first write makes
it a short one, and so does a write that stores only part of what it was given. Only a failure of
the very first write is the failure of the fill.

Each write that goes on stores a full chunk, so `len + 1` writes are enough for `len` bytes: one
for each byte at worst, and the last one that finds nothing left. That the whole is one write of
`len` equal bytes, in its result and in the store it leaves, is proved in
`Filestore.Proofs.Store.FillAtOnce`; it is not obvious, because the later writes start wherever
the one before them left the cursor, which may be the end of a full block.
-/

set_option autoImplicit false

namespace Filestore

namespace Store

/-- Writes the bytes `chunk` over and over until there are `len` of them, in at most `fuel` writes,
after `done` bytes stored before. A failure after those is a short write. -/
def fillFrom (fd : Nat) (chunk : Bytes) : Nat → Nat → Nat → Store → Except Error Nat × Store
  | 0, done, _, store => (.ok done, store)
  | fuel + 1, done, len, store =>
    let want := min len chunk.length
    match store.write fd (chunk.take want) with
    | (.error e, next) => (if done = 0 then .error e else .ok done, next)
    | (.ok count, next) =>
      if count = want ∧ count < len then
        fillFrom fd chunk fuel (done + count) (len - count) next
      else (.ok (done + count), next)

/-- Writes `byte` `len` times at the cursor of a descriptor and gives the number of bytes stored.
A full write stores at least one byte and there is always a last one, so one write more than bytes
is enough. -/
def fill (store : Store) (fd len : Nat) (byte : UInt8) : Except Error Nat × Store :=
  fillFrom fd (List.replicate (min len store.config.blockSize) byte) (len + 1) 0 len store

end Store

end Filestore
