import Filestore.Proofs.Stream.WriteStep

/-!
# `Filestore.Proofs.Stream.Write`: what a write does

`Resting.write_complete` says what a whole write does: it stores as many bytes as the limit
admits, at the cursor, and complains just when that is not all of them. A write that stores
nothing leaves the stream as it was, and any write leaves it at rest (`Written.Complete.resting`).

The loop is followed by induction on its fuel. A move starts at the end of a block and ends at the
start of another, so no move follows a move: at most two steps store a byte, and the fuel of
`Stream.write` does not run out. A step is known from `Ready.writeStep_lawful`, and
`Written.Complete.after` puts what a step stored before what the rest of the loop stores.

Before the loop, an unset cursor is given the first block, which an empty file gets then. That may
be refused, and where it is not the limit has room for a byte in the new block
(`Resting.startWriting_spec`); this is why no empty block is left behind.
-/

set_option autoImplicit false

namespace Filestore

namespace Stream

variable {config : Config} {stream next : Stream} {chain chain' : Chain} {pos fd : Nat}
  {data : Bytes}

/-- What a write of `data` to a ready stream did.

- `count_eq`: as many bytes were stored as the limit admits.
- `error_eq`: the write was refused just when that is not all of them.
- `advance`: they are in place.
- `offset_pos`: where something was stored, the cursor is past the start of a block.
- `unchanged`: where nothing was stored, nothing changed. -/
structure Written.Complete (config : Config) (stream : Stream) (chain : Chain) (pos : Nat)
    (data : Bytes) (written : Written) : Prop where
  count_eq : written.count = config.admitted pos data.length
  error_eq : written.error =
    if written.count < data.length then some (tooLarge config stream.file) else none
  advance : ∃ chain',
    Advance config stream chain pos (data.take written.count) written.stream chain'
  offset_pos : 0 < written.count → 0 < written.stream.cursor.offset
  unchanged : written.count = 0 → written.stream = stream

/-- A complaint about the limit names the file, which an edit does not rename, so it is the same
before and after some bytes were stored. -/
theorem tooLarge_eq_of_edit {file file' : File} {blocks blocks' : Slab Block}
    (h : file.Edit blocks chain file' blocks' chain') :
    tooLarge config file' = tooLarge config file := by
  rw [tooLarge, tooLarge, h.name_eq]

/-- A write of the rest after its first bytes is a write of all. What is admitted of all is what
was stored and what is admitted of the rest. -/
theorem Written.Complete.after {count : Nat} {written : Written} (h : stream.Ready config chain pos)
    (hadvance : Advance config stream chain pos (data.take count) next chain')
    (hcount : count ≤ config.admitted pos data.length)
    (hrest : written.Complete config next chain' (pos + count) (data.drop count))
    (hsome : 0 < count + written.count) (hoffset : written.count = 0 → 0 < next.cursor.offset) :
    Written.Complete config stream chain pos data
      { written with count := count + written.count } where
  count_eq := by
    rw [config.admitted_split hcount, hrest.count_eq, List.length_drop]
  error_eq := by
    have hle := config.admitted_le pos data.length
    show written.error = _
    rw [hrest.error_eq, tooLarge_eq_of_edit hadvance.edit, List.length_drop]
    congr 1
    exact propext (by show _ ↔ count + written.count < _; omega)
  advance := by
    have hle := config.admitted_le pos data.length
    obtain ⟨chain'', hadvance'⟩ := hrest.advance
    -- The first bytes are as many as were counted, since the limit admits no more than there are.
    have htake : (data.take count).length = count := by
      rw [List.length_take]
      omega
    refine ⟨chain'', ?_⟩
    rw [List.take_add]
    exact hadvance.trans h (htake.symm ▸ hadvance')
  offset_pos _ := by
    -- Where the rest stored nothing it left the stream alone, so the cursor is where the first
    -- bytes left it.
    rcases Nat.eq_zero_or_pos written.count with hzero | hpos
    · show 0 < written.stream.cursor.offset
      rw [hrest.unchanged hzero]
      exact hoffset hzero
    · exact hrest.offset_pos hpos
  unchanged hzero := absurd hzero (Nat.pos_iff_ne_zero.mp hsome)

/-- A write of nothing does nothing, and complains about nothing. -/
theorem Ready.complete_nil (h : stream.Ready config chain pos) :
    (⟨none, 0, stream⟩ : Written).Complete config stream chain pos [] where
  count_eq := (Nat.le_zero.mp (config.admitted_le pos 0)).symm
  error_eq := rfl
  advance := ⟨chain, h.advance_self⟩
  offset_pos hpos := absurd hpos (Nat.lt_irrefl 0)
  unchanged _ := rfl

/-- The loop of a write stores what the limit admits. One step stores a byte, or moves from the
end of a block to the start of the next one, where the step after it stores a byte. -/
theorem writeFrom_spec {fuel : Nat} (h : stream.Ready config chain pos)
    (hset : stream.cursor.block ≠ none)
    (hfuel : 2 * data.length + (if stream.cursor.offset = config.blockSize then 1 else 0) ≤ fuel) :
    (writeFrom config fd fuel 0 data stream).Complete config stream chain pos data := by
  induction fuel generalizing data stream chain pos with
  | zero =>
    cases data with
    | nil => exact h.complete_nil
    | cons byte rest => simp at hfuel
  | succ fuel ih =>
    cases data with
    | nil => exact h.complete_nil
    | cons byte rest =>
      have hstep := h.writeStep_lawful fd hset (List.cons_ne_nil byte rest)
      simp only [writeFrom]
      generalize stream.writeStep config fd (byte :: rest) = step at hstep
      cases step with
      | stored count next =>
        obtain ⟨hinside, hcount, hle, hset', hoffset, chain', hadvance⟩ := hstep
        have hlen := Nat.le_trans hle (config.admitted_le _ _)
        -- Some bytes are stored, so the fuel for the rest is enough even if a move comes next.
        rw [if_neg hinside] at hfuel
        simp only
        rw [writeFrom_eq_add, Nat.zero_add]
        refine Written.Complete.after h hadvance hle (ih (hadvance.ready_of_admitted hle) hset' ?_)
          (by omega) fun _ => hoffset
        rw [List.length_drop]
        split <;> omega
      | moved next =>
        obtain ⟨hend, hpos, hset', hstart, chain', hadvance⟩ := hstep
        -- At the start of a block there is room, so the next step is not a move again.
        have hne : ¬ 0 = config.blockSize := Nat.ne_of_lt config.blockSize_pos
        rw [if_pos hend] at hfuel
        have hrest : (writeFrom config fd fuel 0 (byte :: rest) next).Complete config next chain'
            pos (byte :: rest) := by
          refine ih hadvance.ready hset' ?_
          rw [hstart, if_neg hne]
          omega
        have hcount := hrest.count_eq
        have hnone : Advance config stream chain pos ((byte :: rest).take 0) next chain' := hadvance
        have hafter := Written.Complete.after h hnone
          (Nat.zero_le _) hrest (by rw [Nat.zero_add, hcount]; exact hpos)
          fun hzero => absurd (hcount.symm.trans hzero) (Nat.pos_iff_ne_zero.mp hpos)
        simpa only [Nat.zero_add] using hafter
      | refused error count next =>
        obtain ⟨herror, hcount, hless, hsame, hoffset, chain', hadvance⟩ := hstep
        simp only [Nat.zero_add]
        exact ⟨hcount, by rw [if_pos hless, herror], ⟨chain', hadvance⟩, hoffset, hsame⟩

/-- From rest, a write starts at once, or in the first block of the file, or is refused because an
empty file may not have one. -/
theorem Resting.startWriting_spec (h : stream.Resting config chain pos) :
    (stream.startWriting config = (.error (tooLarge config stream.file), stream) ∧
        ∀ len, config.admitted pos len = 0) ∨
      ∃ started chain', stream.startWriting config = (.ok (), started) ∧
        Advance config stream chain pos [] started chain' ∧ started.cursor.block ≠ none ∧
        (started = stream ∧ chain' = chain ∨ ∀ len, 0 < len → 0 < config.admitted pos len) := by
  obtain ⟨file, blocks, cursor⟩ := stream
  have hready := h.ready
  have hstands := h.stands
  simp only at hstands
  -- A set cursor stays. An unset one gets the first block, which is there or has to be appended.
  cases hstands with
  | inBlock hchain hoffset =>
    exact .inr ⟨_, chain, rfl, hready.advance_self, Option.some_ne_none _, .inl ⟨rfl, rfl⟩⟩
  | unset =>
    cases chain with
    | cons entry rest =>
      obtain ⟨id, block⟩ := entry
      obtain ⟨hhead, -, -⟩ := h.spans.joined
      have hstands := Chain.stands_start (List.nil_append ((id, block) :: rest)).symm
      refine .inr ⟨⟨file, blocks, Cursor.inBlock id 0⟩, (id, block) :: rest, ?_, ?_,
        Option.some_ne_none _, .inr ?_⟩
      · simp only [startWriting, Cursor.unset, show file.head = some id from hhead]
      · exact { hready.advance_self with
          ready := Ready.of_packed h.spans h.packed h.within hstands }
      · -- The first block holds a byte, so position 0 is before the end of the file.
        intro len hlen
        refine h.within.admitted_pos ?_ hlen
        have hfilled := h.packed.filled (id, block) List.mem_cons_self
        rw [h.spans.size_eq, Chain.length_contents_cons]
        omega
    -- An empty file gets its first block now, if the limit is not zero.
    | nil =>
      have hhead : file.head = none := h.spans.joined
      have hsize : file.size = 0 := h.spans.size_eq
      have hstart : startWriting config ⟨file, blocks, Cursor.unset⟩
          = enterNewBlock config ⟨file, blocks, Cursor.unset⟩ := by
        simp only [startWriting, Cursor.unset, hhead]
      rw [hstart]
      cases hlimit : config.atLimit file.size with
      | true =>
        left
        exact ⟨enterNewBlock_of_atLimit hlimit, hsize ▸ Config.admitted_of_atLimit hlimit⟩
      | false =>
        obtain ⟨next, chain', hentered, hedit, hids, hcontents, hnext, hset, -⟩ :=
          enterNewBlock_spec h.spans h.packed (fun _ hentry => nomatch hentry) h.within hlimit
        refine .inr ⟨next, chain', hentered, ⟨hedit, hids, ?_, hnext⟩, hset,
          .inr ?_⟩
        · rw [hcontents, Bytes.splice_nil]
        · intro len hlen
          have hadmitted := Config.admitted_pos hlen (Config.atLimit_eq_false_iff.mp hlimit)
          rwa [hsize] at hadmitted

/-- A write of some bytes to a resting stream stores as many as the limit admits, and no empty
block is left behind. -/
theorem Resting.write_complete (h : stream.Resting config chain pos) (hdata : data ≠ [])
    (fd : Nat) :
    (stream.write config fd data).Complete config stream chain pos data := by
  have hlength := List.length_pos_iff.mpr hdata
  unfold Stream.write
  rcases h.startWriting_spec with ⟨hstart, hzero⟩ | ⟨started, chain', hstart, hadvance, hset, hcase⟩
  · rw [hstart]
    refine ⟨(hzero _).symm, (if_pos hlength).symm, ⟨chain, ?_⟩, fun hlt => absurd hlt (by simp),
      fun _ => rfl⟩
    simp only [List.take_zero]
    exact h.ready.advance_self
  · rw [hstart]
    simp only
    have hloop : (writeFrom config fd (2 * data.length + 2) 0 data started).Complete config started
        chain' pos data := writeFrom_spec hadvance.ready hset (by split <;> omega)
    rcases hcase with ⟨rfl, rfl⟩ | hpos
    · exact hloop
    · -- The loop starts from another cursor or another file, so it has to store something for the
      -- whole write to be as described. It does, since the limit admits a byte.
      have hcount := hloop.count_eq
      have hsome := hpos data.length hlength
      have hnone : Advance config stream chain pos (data.take 0) started chain' := by
        rwa [List.take_zero]
      have hafter := Written.Complete.after h.ready hnone
        (Nat.zero_le _) hloop (by omega) fun hzero => by omega
      simpa only [Nat.zero_add] using hafter

/-- A write leaves a resting stream at rest, with the bytes in place. -/
theorem Written.Complete.resting {written : Written} (h : stream.Resting config chain pos)
    (hcomplete : written.Complete config stream chain pos data) :
    ∃ chain', stream.file.Edit stream.blocks chain
        written.stream.file written.stream.blocks chain' ∧
      chain.ids <+: chain'.ids ∧
      chain'.contents = chain.contents.splice pos (data.take written.count) ∧
      written.stream.Resting config chain' (pos + written.count) := by
  rcases Nat.eq_zero_or_pos written.count with hzero | hpos
  · rw [hcomplete.unchanged hzero, hzero, List.take_zero, Bytes.splice_nil]
    exact ⟨chain, h.spans.edit_self, List.prefix_refl _, rfl, h⟩
  · obtain ⟨chain', hadvance⟩ := hcomplete.advance
    have hready := hadvance.ready_of_admitted (Nat.le_of_eq hcomplete.count_eq)
    exact ⟨chain', hadvance.edit, hadvance.ids, hadvance.contents,
      hready.resting (hcomplete.offset_pos hpos)⟩

end Stream

end Filestore
