import Filestore.Store.Basic

/-!
# `Filestore.Store.Naming`: opening, closing, deleting

A name reaches a file from its creation to its deletion. A file that is deleted while descriptors
are open on it loses its name at once and its storage when the last of them closes. Opening a
deleted name therefore creates another file, and the two do not share anything.

A file counts the descriptors bound to it. `openFile` adds one to the count and `close` takes one
away, and the count decides who takes the file out of storage: `delete` where it is zero, and
otherwise the `close` that brings it to zero, which it knows from the mark that `delete` left. The
steps of each operation are taken in an order that shows where one of them fails; none does in a
store that calls lead to. `destroy` gives up everything at once and keeps only the settings.
-/

set_option autoImplicit false

namespace Filestore

namespace Store

/-- The file a name denotes, created where it is absent and `create` is set. -/
def obtain (store : Store) (name : String) (create : Bool) : Except Error (FileId × Catalog) :=
  match store.catalog.lookup name with
  | some id => .ok (id, store.catalog)
  | none => if create then .ok (store.catalog.create name) else .error (.noSuchFile name)

/-- Opens the file of a name and gives the descriptor's number. An absent file is created if
`create` is set. -/
def openFile (store : Store) (name : String) (create : Bool) : Except Error Nat × Store :=
  match store.obtain name create with
  | .error e => store.conclude (.error e)
  | .ok (id, catalog) =>
    -- The descriptor is there before the file counts it.
    let (fd, descriptors) := store.descriptors.allocate id
    let bound := { store with catalog, descriptors }
    match catalog.get id with
    | .error e => bound.conclude (.error e)
    | .ok file =>
      { bound with catalog := catalog.set id { file with refs := file.refs + 1 } }.conclude (.ok fd)

/-- Takes a file and its blocks out of storage. -/
def reclaim (store : Store) (id : FileId) : Store :=
  let (_, catalog, blocks) := store.catalog.reclaim id store.blocks
  { store with catalog, blocks }

/-- Closes a descriptor. A deleted file goes with its last one. -/
def close (store : Store) (fd : Nat) : Except Error Unit × Store :=
  match store.descriptors.release fd with
  | .error e => store.conclude (.error e)
  | .ok (descriptor, descriptors) =>
    let released := { store with descriptors }
    match store.catalog.get descriptor.file with
    | .error e => released.conclude (.error e)
    | .ok file =>
      let left := { file with refs := file.refs - 1 }
      let counted := { released with catalog := store.catalog.set descriptor.file left }
      if left.refs = 0 ∧ left.deleted then (counted.reclaim descriptor.file).conclude (.ok ())
      else counted.conclude (.ok ())

/-- Deletes a name. Its file goes now if no descriptor is open on it, else with the last one. -/
def delete (store : Store) (name : String) : Except Error Unit × Store :=
  match store.catalog.unlink name with
  | .error e => store.conclude (.error e)
  | .ok (id, catalog) =>
    let unlinked := { store with catalog }
    match catalog.get id with
    | .error e => unlinked.conclude (.error e)
    | .ok file =>
      if 0 < file.refs then
        { unlinked with catalog := catalog.set id { file with deleted := true } }.conclude (.ok ())
      else (unlinked.reclaim id).conclude (.ok ())

/-- Gives up every file, block and descriptor. -/
def destroy (store : Store) : Store := empty store.config

end Store

end Filestore
