import Filestore.Directory
import Filestore.File.Extent

/-!
# `Filestore.Catalog`: the files, and which of them have names

A file stays in storage until it is reclaimed, but a name reaches it only while the directory says
so. Unlinking a name leaves the file to the descriptors open on it, and the name is free for
another file meanwhile. So two files may bear the same name in their records; at most one of them
is reached by it.

The catalog joins the two halves: `Catalog.files` holds every file, and `Catalog.directory` leads
from names to handles. `create` changes both, `unlink` only the directory, and `reclaim` takes a
file and its blocks out of storage, and its name only if that still leads to this very file. A
handle of a file that was reclaimed has expired, and `get` refuses it by naming its slot. When a
file is to be reclaimed is not decided here: the store does it once nothing refers to the file.
-/

set_option autoImplicit false

namespace Filestore

/-- The files in storage, and the names that reach them. -/
structure Catalog where
  /-- Every file in storage. -/
  files : Slab File
  /-- The names. -/
  directory : Directory
  deriving DecidableEq, Repr

namespace Catalog

/-- The catalog without files. -/
def empty : Catalog := ⟨Slab.empty, Directory.empty⟩

instance : Inhabited Catalog := ⟨empty⟩

/-- The file a name denotes. -/
def lookup (catalog : Catalog) (name : String) : Option FileId := catalog.directory.get? name

/-- Puts a new empty file in storage and makes the name denote it. -/
def create (catalog : Catalog) (name : String) : FileId × Catalog :=
  let (id, files) := catalog.files.insert (File.named name)
  (id, ⟨files, catalog.directory.insert name id⟩)

/-- The complaint that a handle denotes no file in storage. -/
def expired (id : FileId) : Error := .staleHandle ("file slot " ++ toString id.slot)

/-- The file of a handle. -/
def get (catalog : Catalog) (id : FileId) : Except Error File :=
  match catalog.files.get? id with
  | none => .error (expired id)
  | some file => .ok file

/-- Replaces the file of a handle. -/
def set (catalog : Catalog) (id : FileId) (file : File) : Catalog :=
  { catalog with files := catalog.files.set id file }

/-- Makes a name denote nothing, and gives the file it denoted, which stays in storage. -/
def unlink (catalog : Catalog) (name : String) : Except Error (FileId × Catalog) :=
  match catalog.lookup name with
  | none => .error (.noSuchFile name)
  | some id => .ok (id, { catalog with directory := catalog.directory.erase name })

/-- Takes a file and its blocks out of storage, if the file is there. Its name goes too, unless it
denotes another file by now. -/
def reclaim (catalog : Catalog) (id : FileId) (blocks : Slab Block) :
    Option File × Catalog × Slab Block :=
  match catalog.files.get? id with
  | none => (none, catalog, blocks)
  | some file =>
    let directory :=
      if catalog.directory.get? file.name = some id then catalog.directory.erase file.name
      else catalog.directory
    let (_, emptied, rest) := file.release blocks
    (some emptied, ⟨catalog.files.erase id, directory⟩, rest)

/-- The names, ascending. -/
def names (catalog : Catalog) : List String := catalog.directory.names

end Catalog

end Filestore
