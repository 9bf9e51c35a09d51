import Filestore.Proofs.File.Spans
import Mathlib.Logic.Function.Basic

/-!
# `Filestore.Proofs.File.Sharing`: files that share one storage

`File.Sharing blocks files chains` says that any number of files lie in one storage of blocks,
each as its chain, and that no block is in two chains. What the chains look like is left open:
their blocks may have any capacities, and any of them may be empty. The storage may hold other
blocks too.

An edit of one file gives it another chain and leaves the other files theirs (`Sharing.edit`). So
whatever is an edit of a file that is alone is one of a file that shares its storage. The files
are a family over any type, and after an edit the family differs at one place.

This is what an operation on a file can count on when it does not know the store it is used in:
neither that all blocks have one capacity nor that every block is some file's. Two files whose
blocks lie by turns in one storage (`Interleaved`) are there for the statements to be tried on.
-/

set_option autoImplicit false

namespace Filestore

namespace File

/-- The files share the storage, each with a chain of its own.

- `sound`: the storage knows its vacant slots.
- `spans`: every file lies in storage as its chain.
- `apart`: no two files share a block. -/
structure Sharing {ι : Type} (blocks : Slab Block) (files : ι → File) (chains : ι → Chain) :
    Prop where
  sound : blocks.Sound
  spans : ∀ i, (files i).Spans blocks (chains i)
  apart : ∀ i j, i ≠ j → ∀ key ∈ (chains i).ids, key ∉ (chains j).ids

section Edit

variable {ι : Type} [DecidableEq ι] {blocks blocks' : Slab Block} {files : ι → File}
  {chains : ι → Chain} {i : ι} {file' : File} {chain' : Chain}

/-- An edit of one file leaves the others as they were, apart from it and from each other. -/
theorem Sharing.edit (h : Sharing blocks files chains)
    (hedit : (files i).Edit blocks (chains i) file' blocks' chain') :
    Sharing blocks' (Function.update files i file') (Function.update chains i chain') where
  sound := hedit.exchange.sound h.sound
  spans j := by
    by_cases heq : j = i
    · subst heq
      rw [Function.update_self, Function.update_self]
      exact hedit.spans
    · rw [Function.update_of_ne heq, Function.update_of_ne heq]
      exact (h.spans j).exchange hedit.exchange (h.apart j i heq)
  apart first second hne key hfirst := by
    -- A block of the new chain is of no other file: it was the file's own, or its handle was fresh.
    have hother : ∀ j, j ≠ i → ∀ key ∈ chain'.ids, key ∉ (chains j).ids := fun j hj _ =>
      (h.spans j).stored.not_mem_of_exchange hedit.exchange (h.apart j i hj)
    by_cases heq : first = i
    · subst heq
      rw [Function.update_self] at hfirst
      rw [Function.update_of_ne hne.symm]
      exact hother second hne.symm key hfirst
    · rw [Function.update_of_ne heq] at hfirst
      by_cases heq' : second = i
      · subst heq'
        rw [Function.update_self]
        exact fun hkey => hother first heq key hkey hfirst
      · rw [Function.update_of_ne heq']
        exact h.apart first second hne key hfirst

end Edit

namespace Interleaved

/-- The blocks of two files, of several capacities. The first file has an empty one in the middle,
the second one at the end. -/
def blocks : Slab Block :=
  [⟨[1, 2], 3, none, some ⟨2, 0⟩, by decide⟩, ⟨[7], 1, none, some ⟨3, 0⟩, by decide⟩,
    ⟨[], 1, some ⟨0, 0⟩, some ⟨4, 0⟩, by decide⟩, ⟨[], 2, some ⟨1, 0⟩, none, by decide⟩,
    ⟨[3, 4], 2, some ⟨2, 0⟩, some ⟨5, 0⟩, by decide⟩,
    ⟨[5], 4, some ⟨4, 0⟩, none, by decide⟩].foldl (fun slab block => (slab.insert block).2)
      Slab.empty

/-- The two files. -/
def files (second : Bool) : File :=
  if second then ⟨"b", some ⟨1, 0⟩, some ⟨3, 0⟩, 0, false, 1, 2⟩
  else ⟨"a", some ⟨0, 0⟩, some ⟨5, 0⟩, 0, false, 5, 4⟩

/-- Their chains. -/
def chains (second : Bool) : Chain := (files second).chain blocks

/-- Two files lie in one storage, their blocks by turns. -/
theorem sharing : Sharing blocks files chains where
  sound := by
    unfold blocks
    simp only [List.foldl_cons, List.foldl_nil]
    repeat apply Slab.Sound.insert
    exact Slab.sound_empty
  spans second := by
    have hstored : ∀ entry ∈ chains second, blocks.get? entry.1 = some entry.2 := by
      revert second
      decide
    refine ⟨hstored, ?_, ?_, ?_, ?_, ?_⟩
    · cases second
      · exact ⟨rfl, rfl, rfl, rfl, rfl, rfl, rfl, rfl, rfl⟩
      · exact ⟨rfl, rfl, rfl, rfl, rfl⟩
    all_goals
      revert second
      decide
  apart := by decide

end Interleaved

end File

end Filestore
