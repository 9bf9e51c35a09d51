import Filestore.Bytes

/-!
# `Filestore.CommandLine.FileTree`: where a path leads

A `FileTree` is a file, or a directory in which names lead to further trees. A path is a row of
names with slashes between them. `FileTree.read` follows it, from the root or from the current
directory, and gives the bytes of the file it leads to. The first name that leads nowhere ends the
way, and `FileFault` says what the matter is: in a file there are no names, not even an empty one
after a last slash, and in a directory there are none of more than 255 bytes.

The program takes the bytes of a path from its surroundings, whatever they are. A tree stands for
the file system where there is none at hand, with the faults and their order as a system has them:
an empty path is missing, a path that is too long is refused before it is followed, and a name
that is too long before it is looked up. Links, permissions on directories and mount points are
left out; a file that cannot be opened is `FileTree.sealed`, with the reason.
-/

set_option autoImplicit false

namespace Filestore

namespace CommandLine

/-- Why a path yields no bytes. -/
inductive FileFault where
  /-- A name is not in its directory. -/
  | missing
  /-- The file may not be read. -/
  | forbidden
  /-- A name follows on a file. -/
  | notDirectory
  /-- The path leads to a directory, which can be opened like a file but not read. -/
  | isDirectory
  /-- A name, or the whole path, has too many bytes. -/
  | nameTooLong
  /-- The system has another reason. -/
  | other (code : Nat) (reason : String)
  deriving DecidableEq, Repr

namespace FileFault

/-- The number the system has for a fault. -/
def code : FileFault → Nat
  | .missing => 2
  | .forbidden => 13
  | .notDirectory => 20
  | .isDirectory => 21
  | .nameTooLong => 36
  | .other code _ => code

/-- The words the system has for a fault. -/
def reason : FileFault → String
  | .missing => "No such file or directory"
  | .forbidden => "Permission denied"
  | .notDirectory => "Not a directory"
  | .isDirectory => "Is a directory"
  | .nameTooLong => "File name too long"
  | .other _ reason => reason

/-- The wording of a fault, with its number. -/
def message (fault : FileFault) : String :=
  fault.reason ++ " (os error " ++ toString fault.code ++ ")"

end FileFault

/-- A file, or a directory with what its names lead to. -/
inductive FileTree where
  /-- A file with its bytes. -/
  | file (bytes : Bytes)
  /-- A file that cannot be opened, and why. -/
  | sealed (fault : FileFault)
  /-- A directory. -/
  | directory (entries : List (String × FileTree))

namespace FileTree

instance : Inhabited FileTree := ⟨.directory []⟩

/-- The longest name, in bytes. -/
def maxName : Nat := 255

/-- The longest path, in bytes. -/
def maxPath : Nat := 4095

/-- The names of a path, in order. Two slashes have an empty name between them. -/
def namesOf : List Char → List (List Char)
  | [] => [[]]
  | c :: rest =>
    if c = '/' then [] :: namesOf rest
    else
      match namesOf rest with
      | [] => [[c]]
      | name :: names => (c :: name) :: names

/-- Where names lead from `here`, whose directories are `above`, the nearest first. An empty name
and a dot stay, two dots go one directory up, and the root is above itself. -/
def follow (here : FileTree) (above : List FileTree) : List String → Except FileFault FileTree
  | [] => .ok here
  | name :: rest =>
    match here with
    | .file _ => .error .notDirectory
    | .sealed _ => .error .notDirectory
    | .directory entries =>
      if name = "" ∨ name = "." then follow here above rest
      else if name = ".." then
        match above with
        | [] => follow here [] rest
        | parent :: above => follow parent above rest
      else if maxName < name.utf8ByteSize then .error .nameTooLong
      else
        match entries.lookup name with
        | none => .error .missing
        | some there => follow there (here :: above) rest

/-- Where a path leads. One that does not start with a slash is followed from the directory
`current`, which is itself given by its names from the root. -/
def resolve (root : FileTree) (current : List String) (path : String) :
    Except FileFault FileTree :=
  if path = "" then .error .missing
  else if maxPath < path.utf8ByteSize then .error .nameTooLong
  else
    let names := (namesOf path.toList).map String.ofList
    match path.toList with
    | '/' :: _ => follow root [] names
    | _ => follow root [] (current ++ names)

/-- The bytes of the file that a path leads to. -/
def read (root : FileTree) (current : List String) (path : String) : Except FileFault Bytes :=
  match root.resolve current path with
  | .error fault => .error fault
  | .ok (.directory _) => .error .isDirectory
  | .ok (.sealed fault) => .error fault
  | .ok (.file bytes) => .ok bytes

end FileTree

end CommandLine

end Filestore
