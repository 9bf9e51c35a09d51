/-!
# `Filestore.Error`: why a call fails

`Error` lists the causes a call can fail for, with what each of them is about, and `Error.message`
words each of them once. Nothing else in the store words a failure, so a caller that prints an
error and a caller that reports it in JSON say the same.

`ErrorKind` is the coarse class a store remembers after every call; `Error.kind` says which class
a cause belongs to. There are fewer classes than causes: everything that fails to denote something
usable, be it a name, a descriptor, a handle or a setting, counts as a missing file. A call that
succeeds is remembered too, as `ErrorKind.noError` (`resultKind`), and no cause is of that kind,
so what is remembered tells whether the call failed.
-/

set_option autoImplicit false

namespace Filestore

/-- The outcome of the latest call, as coarse as the store remembers it. -/
inductive ErrorKind where
  /-- The call succeeded in full. -/
  | noError
  /-- A name, descriptor, handle or setting did not denote anything usable. -/
  | noSuchFile
  /-- Storage could not be provided. -/
  | outOfMemory
  /-- The size limit stood in the way. -/
  | fileTooLarge
  deriving DecidableEq, Repr, Inhabited

/-- The word for a kind, in text and in JSON alike. -/
def ErrorKind.label : ErrorKind → String
  | .noError => "no_error"
  | .noSuchFile => "no_such_file"
  | .outOfMemory => "out_of_memory"
  | .fileTooLarge => "file_too_large"

/-- The causes a call can fail for. -/
inductive Error where
  /-- No file bears this name. -/
  | noSuchFile (name : String)
  /-- The descriptor was never issued or is closed. -/
  | badDescriptor (fd : Nat)
  /-- Storage could not be provided; `context` says for what. -/
  | outOfMemory (context : String)
  /-- The file would outgrow the size limit. -/
  | fileTooLarge (name : String) (limit : Nat)
  /-- The settings describe no usable store. -/
  | invalidConfig (reason : String)
  /-- A handle outlived the entry it was issued for. -/
  | staleHandle (what : String)
  deriving DecidableEq, Repr

namespace Error

/-- The class a cause belongs to. Everything that fails to denote counts as a missing file. -/
def kind : Error → ErrorKind
  | .noSuchFile _ => .noSuchFile
  | .badDescriptor _ => .noSuchFile
  | .outOfMemory _ => .outOfMemory
  | .fileTooLarge _ _ => .fileTooLarge
  | .invalidConfig _ => .noSuchFile
  | .staleHandle _ => .noSuchFile

/-- The wording of a cause. -/
def message : Error → String
  | .noSuchFile name => "No such file: " ++ name
  | .badDescriptor fd => "Bad file descriptor: " ++ toString fd
  | .outOfMemory context => "Out of memory: " ++ context
  | .fileTooLarge name limit =>
    "File too large: " ++ name ++ " (limit " ++ toString limit ++ " bytes)"
  | .invalidConfig reason => "Invalid config: " ++ reason
  | .staleHandle what => "Stale handle: " ++ what

/-- The cause reported for a buffer longer than any buffer can be. -/
def oversizedBuffer : Error :=
  .outOfMemory
    "memory allocation failed because the computed capacity exceeded the collection's maximum"

end Error

/-- The kind a result is remembered as. -/
def resultKind {α : Type} : Except Error α → ErrorKind
  | .ok _ => .noError
  | .error e => e.kind

end Filestore
