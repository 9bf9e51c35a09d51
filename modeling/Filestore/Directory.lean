import Filestore.File.Basic

/-!
# `Filestore.Directory`: from names to files

A `Directory` lists each name once with the file it denotes, in ascending order of the names.
Names compare by code point, which for UTF-8 is the order of their bytes, so the list of names
never has to be sorted: an insertion puts a name in its place, and reading the names off gives
them in order.

The lemmas are the laws of a finite map, one pair for each operation: what it does to its own name
(`get?_insert_self`, `get?_erase_self`), and that it leaves every other one (`get?_insert_of_ne`,
`get?_erase_of_ne`). They hold of any list of entries, ordered or not, since a look-up takes the
first entry that matches. That the order is kept, and that with it no name is listed twice, is
proved in `Filestore.Proofs.Directory`.
-/

set_option autoImplicit false

namespace Filestore

/-- The files by name. -/
structure Directory where
  /-- Each name with its file, in ascending order of the names. -/
  entries : List (String × FileId)
  deriving DecidableEq, Repr

namespace Directory

/-- The directory without names. -/
def empty : Directory := ⟨[]⟩

instance : Inhabited Directory := ⟨empty⟩

/-- The file a name denotes. -/
def get? (directory : Directory) (name : String) : Option FileId :=
  directory.entries.lookup name

/-- Puts a name in its place in ascending entries, instead of an entry of the same name. -/
def insertEntry (name : String) (id : FileId) : List (String × FileId) → List (String × FileId)
  | [] => [(name, id)]
  | entry :: rest =>
    if name < entry.1 then (name, id) :: entry :: rest
    else if name = entry.1 then (name, id) :: rest
    else entry :: insertEntry name id rest

/-- Makes a name denote a file. -/
def insert (directory : Directory) (name : String) (id : FileId) : Directory :=
  ⟨insertEntry name id directory.entries⟩

/-- Makes a name denote nothing. -/
def erase (directory : Directory) (name : String) : Directory :=
  ⟨directory.entries.filter fun entry => entry.1 != name⟩

/-- Looking up a name compares it with the first one listed, and goes on in the rest where they
differ. -/
theorem lookup_cons_eq_ite (name key : String) (id : FileId) (rest : List (String × FileId)) :
    ((key, id) :: rest).lookup name = if name = key then some id else rest.lookup name := by
  rw [List.lookup_cons]
  by_cases h : name = key
  · simp [h]
  · rw [beq_eq_false_iff_ne.mpr h, if_neg h]

/-- A name denotes the file it was made to denote, whether it was listed before or not. -/
theorem get?_insert_self (directory : Directory) (name : String) (id : FileId) :
    (directory.insert name id).get? name = some id := by
  obtain ⟨entries⟩ := directory
  show (insertEntry name id entries).lookup name = some id
  induction entries with
  | nil => rw [insertEntry, lookup_cons_eq_ite, if_pos rfl]
  | cons entry rest ih =>
    rw [insertEntry]
    split
    · rw [lookup_cons_eq_ite, if_pos rfl]
    split
    · rw [lookup_cons_eq_ite, if_pos rfl]
    · rename_i hne
      rw [lookup_cons_eq_ite, if_neg hne, ih]

/-- Inserting a name leaves every other one its file, and one that denoted nothing still denotes
nothing. -/
theorem get?_insert_of_ne {name other : String} (hne : other ≠ name) (directory : Directory)
    (id : FileId) : (directory.insert name id).get? other = directory.get? other := by
  obtain ⟨entries⟩ := directory
  show (insertEntry name id entries).lookup other = entries.lookup other
  induction entries with
  | nil => rw [insertEntry, lookup_cons_eq_ite, if_neg hne]
  | cons entry rest ih =>
    rw [insertEntry]
    split
    · rw [lookup_cons_eq_ite, if_neg hne]
    split
    · rename_i heq
      rw [lookup_cons_eq_ite, lookup_cons_eq_ite, if_neg hne, if_neg (heq ▸ hne)]
    · rw [lookup_cons_eq_ite, lookup_cons_eq_ite, ih]

/-- An erased name denotes nothing, also in a list that has it more than once: all its entries go.
-/
theorem get?_erase_self (directory : Directory) (name : String) :
    (directory.erase name).get? name = none := by
  obtain ⟨entries⟩ := directory
  show (entries.filter fun entry => entry.1 != name).lookup name = none
  induction entries with
  | nil => rfl
  | cons entry rest ih =>
    rw [List.filter_cons]
    split
    · rename_i hne
      rw [lookup_cons_eq_ite, if_neg (Ne.symm (bne_iff_ne.mp hne)), ih]
    · exact ih

/-- Erasing a name leaves every other one its file. -/
theorem get?_erase_of_ne {name other : String} (hne : other ≠ name) (directory : Directory) :
    (directory.erase name).get? other = directory.get? other := by
  obtain ⟨entries⟩ := directory
  show (entries.filter fun entry => entry.1 != name).lookup other = entries.lookup other
  induction entries with
  | nil => rfl
  | cons entry rest ih =>
    rw [List.filter_cons]
    split
    · rw [lookup_cons_eq_ite, lookup_cons_eq_ite, ih]
    · rename_i hkey
      have hkey : entry.1 = name := by simpa using hkey
      rw [lookup_cons_eq_ite, if_neg (hkey ▸ hne), ih]

/-- The names, ascending. -/
def names (directory : Directory) : List String := directory.entries.map Prod.fst

end Directory

end Filestore
