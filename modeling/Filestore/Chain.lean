import Filestore.Cursor

/-!
# `Filestore.Chain`: the blocks of a file, one after another

A file's blocks are linked from its first one on. `Chain.walk` lists them, and everything that
only looks at a file is a function of that list: its contents (`Chain.contents`), the cursor of a
stream position (`Chain.locate`) and the position of a cursor (`Chain.position`). `Chain.release`
takes a chain out of storage, following each link out of the block just erased.

The links of a chain may not form a cycle, so a walk meets each slot at most once: the number of
slots is enough fuel for it. A release meets at most one handle that has expired, hence the one
more step it is given. On a chain that lies in storage as it should, neither runs out of fuel;
both facts are proved of every reachable store, and the versions that would report an exhausted
fuel agree with these.

A chain may be long, so what goes along one carries what it has found so far with it, and a lemma
beside it (`walkFrom_eq_append`, `startFrom_eq_map`, `releaseFrom_eq_add`) takes that out again.
Proofs rewrite with these once, at the start, and then follow the recursion without an
accumulator.
-/

set_option autoImplicit false

namespace Filestore

/-- The blocks of a file from first to last, each with its handle. -/
abbrev Chain := List (BlockId × Block)

namespace Chain

/-- The blocks `seen`, the latest first, and then at most `fuel` blocks along the links from
`start`. -/
def walkFrom (blocks : Slab Block) : Nat → Chain → Option BlockId → Chain
  | 0, seen, _ => seen.reverse
  | _ + 1, seen, none => seen.reverse
  | fuel + 1, seen, some id =>
    match blocks.get? id with
    | none => seen.reverse
    | some block => walkFrom blocks fuel ((id, block) :: seen) block.next

/-- A walk lists what it has seen, the earliest first, and then what it would have listed on its
own. This takes the accumulator out of a walk, once and for all. -/
theorem walkFrom_eq_append (blocks : Slab Block) (fuel : Nat) (seen : Chain)
    (start : Option BlockId) :
    walkFrom blocks fuel seen start = seen.reverse ++ walkFrom blocks fuel [] start := by
  induction fuel generalizing seen start with
  | zero => simp [walkFrom]
  | succ fuel ih =>
    cases start with
    | none => simp [walkFrom]
    | some id =>
      cases h : blocks.get? id with
      | none => simp [walkFrom, h]
      | some block =>
        simp only [walkFrom, h]
        rw [ih, ih [(id, block)]]
        simp

/-- A walk from a block lists it and then what its link leads to. It lists nothing where the
handle has expired, so a chain whose links are broken is listed up to the break. -/
theorem walkFrom_some (blocks : Slab Block) (fuel : Nat) (id : BlockId) :
    walkFrom blocks (fuel + 1) [] (some id) =
      match blocks.get? id with
      | none => []
      | some block => (id, block) :: walkFrom blocks fuel [] block.next := by
  rw [walkFrom]
  cases h : blocks.get? id with
  | none => rfl
  | some block =>
    simp only
    rw [walkFrom_eq_append]
    rfl

/-- The blocks along the links from `head`. -/
def walk (blocks : Slab Block) (head : Option BlockId) : Chain :=
  walkFrom blocks blocks.slotCount [] head

/-- The byte string a chain holds. -/
def contents (chain : Chain) : Bytes :=
  chain.flatMap fun entry => entry.2.bytes

/-- The cursor of stream position `pos`, clamped to the end. A position between two blocks is the
end of the earlier one. -/
def locate (pos : Nat) : Chain → Cursor
  | [] => Cursor.unset
  | [(id, block)] => Cursor.inBlock id (min pos block.occupied)
  | (id, block) :: rest =>
    if pos ≤ block.occupied then Cursor.inBlock id pos
    else locate (pos - block.occupied) rest

/-- The stream position at which a block starts, if it is in a chain that starts at `start`. -/
def startFrom (target : BlockId) (start : Nat) : Chain → Option Nat
  | [] => none
  | (id, block) :: rest =>
    if id = target then some start else startFrom target (start + block.occupied) rest

/-- The stream position at which a block starts, if it is in the chain. -/
def startOf (target : BlockId) (chain : Chain) : Option Nat := startFrom target 0 chain

/-- A chain that starts later has all its blocks as much later. With this, the starts of blocks
are computed in a chain that starts at 0. -/
theorem startFrom_eq_map (target : BlockId) (start : Nat) (chain : Chain) :
    startFrom target start chain = (startOf target chain).map (start + ·) := by
  unfold startOf
  induction chain generalizing start with
  | nil => rfl
  | cons entry rest ih =>
    simp only [startFrom]
    split
    · simp
    · rw [ih, ih (0 + _), Option.map_map]
      congr 1
      funext n
      simp [Nat.add_assoc]

/-- The first block starts at 0, and every other one as much after the bytes of the first block as
it starts into the rest. -/
theorem startOf_cons (target id : BlockId) (block : Block) (rest : Chain) :
    startOf target ((id, block) :: rest) =
      if id = target then some 0 else (startOf target rest).map (block.occupied + ·) := by
  rw [startOf, startFrom, startFrom_eq_map, Nat.zero_add]

/-- The stream position of a cursor, if its block is in the chain. -/
def position (chain : Chain) (cursor : Cursor) : Option Nat :=
  match cursor.block with
  | none => some 0
  | some id => (startOf id chain).map (· + cursor.offset)

/-- Erases at most `fuel` blocks along the links from `start`. Also gives the number of handles
followed, on top of the `count` followed before. -/
def releaseFrom : Nat → Nat → Slab Block → Option BlockId → Nat × Slab Block
  | 0, count, blocks, _ => (count, blocks)
  | _ + 1, count, blocks, none => (count, blocks)
  | fuel + 1, count, blocks, some id =>
    match blocks.get? id with
    | none => (count + 1, blocks)
    | some block => releaseFrom fuel (count + 1) (blocks.erase id) block.next

/-- What was counted before is added to the count, and the storage does not depend on it. This
takes the accumulator out of a release. -/
theorem releaseFrom_eq_add (fuel count : Nat) (blocks : Slab Block) (start : Option BlockId) :
    releaseFrom fuel count blocks start =
      (count + (releaseFrom fuel 0 blocks start).1, (releaseFrom fuel 0 blocks start).2) := by
  induction fuel generalizing count blocks start with
  | zero => rfl
  | succ fuel ih =>
    cases start with
    | none => rfl
    | some id =>
      simp only [releaseFrom]
      cases blocks.get? id with
      | none => simp
      | some block =>
        simp only
        rw [ih, ih (0 + 1)]
        simp [Nat.add_assoc]

/-- Erases the blocks along the links from `head`. Also gives the number of handles followed. -/
def release (blocks : Slab Block) (head : Option BlockId) : Nat × Slab Block :=
  releaseFrom (blocks.slotCount + 1) 0 blocks head

end Chain

end Filestore
