import Filestore.Digest
import Filestore.Store.Basic

/-!
# `Filestore.Store.Inspect`: looking at files

The statistics and the digest of a file, and the names. Only the remembered outcome changes, and
by listing the names not even that.

Statistics can be asked for by name and by descriptor. The two differ for a file that was deleted
while descriptors are open on it: its name no longer leads to it, or leads to another file, and
its descriptor still does. The digest is only to be had by descriptor, and is of the whole
contents, wherever the cursor stands. The names are those that lead to a file, in ascending order
of their bytes; files that have lost their names are not among them.
-/

set_option autoImplicit false

namespace Filestore

namespace Store

/-- The statistics of the file a name denotes. -/
def stat (store : Store) (name : String) : Except Error Stat × Store :=
  match store.catalog.lookup name with
  | none => store.conclude (.error (.noSuchFile name))
  | some id => store.conclude ((store.catalog.get id).map File.stat)

/-- The statistics of a descriptor's file, named or not. -/
def statOpen (store : Store) (fd : Nat) : Except Error Stat × Store :=
  store.conclude ((store.opened fd).map fun entry => entry.2.stat)

/-- The digest of the contents of a descriptor's file. -/
def digest (store : Store) (fd : Nat) : Except Error Digest × Store :=
  store.conclude
    ((store.opened fd).map fun entry => Digest.ofBytes (entry.2.contents store.blocks))

/-- The names, ascending. -/
def names (store : Store) : List String := store.catalog.names

end Store

end Filestore
