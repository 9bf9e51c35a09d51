import Filestore.Config
import Filestore.Text.Blank
import Filestore.Text.Numeral.Basic

/-!
# `Filestore.CommandLine.Settings`: where the settings come from

Each setting is taken from the command line if it is there, else from the environment, else it is
the standard one. The block size is settled before the size limit, and the pair is checked last,
so the first of several faults is reported and always the same one.

The two settings are written differently. The block size of the command line is read with the
other arguments and comes here as a number, while that of the environment is a text, trimmed
before it is read, and shown untrimmed in a complaint. The size limit is a text in both places: a
number, or the word `none` in letters of either case for no limit at all. A setting that is given
on the command line hides a faulty one in the environment, which is then not looked at.
-/

set_option autoImplicit false

namespace Filestore

namespace CommandLine

open Text

namespace Settings

/-- Why settings describe no usable store. -/
inductive Failure where
  /-- The environment's block size is no number. -/
  | blockSize (text : String) (cause : Numeral.Fault)
  /-- The size limit is neither a number nor `none`. -/
  | sizeLimit (text : String) (cause : Numeral.Fault)
  /-- The settings are numbers that no store can have. -/
  | config (cause : Error)
  deriving DecidableEq, Repr

/-- The wording of a failure. -/
def Failure.message : Failure → String
  | .blockSize text cause => "Invalid UFS_BLOCK_SIZE: " ++ text ++ ": " ++ cause.message
  | .sizeLimit text cause => "Invalid maximum file size: " ++ text ++ ": " ++ cause.message
  | .config cause => cause.message

/-- What a store makes of a failure, if it is the store's. -/
def Failure.kind? : Failure → Option ErrorKind
  | .config cause => some cause.kind
  | _ => none

/-- A text in which ASCII letters are small. -/
def lowered (text : List Char) : List Char := text.map Char.toLower

/-- The size limit of a text: a number, or `none` in any case for no limit. -/
def parseSizeLimit (text : String) : Except Failure (Option Nat) :=
  let trimmed := Text.trim text.toList
  if lowered trimmed = "none".toList then .ok none
  else
    match Numeral.read64 trimmed with
    | .error cause => .error (.sizeLimit (String.ofList trimmed) cause)
    | .ok limit => .ok (some limit)

/-- The block size in the environment. The complaint shows the text with its white space. -/
def parseBlockSize (text : String) : Except Failure Nat :=
  match Numeral.read64 (Text.trim text.toList) with
  | .error cause => .error (.blockSize text cause)
  | .ok size => .ok size

/-- The block size from the command line or the environment. -/
def blockSize (argument : Option Nat) (environment : String → Option String) : Except Failure Nat :=
  match argument with
  | some size => .ok size
  | none =>
    match environment "UFS_BLOCK_SIZE" with
    | some text => parseBlockSize text
    | none => .ok Config.defaultBlockSize

/-- The size limit from the command line or the environment. -/
def sizeLimit (argument : Option String) (environment : String → Option String) :
    Except Failure (Option Nat) :=
  match argument <|> environment "UFS_MAX_FILE_SIZE" with
  | some text => parseSizeLimit text
  | none => .ok (some Config.defaultSizeLimit)

/-- The settings of the command line and the environment. -/
def resolve (blockArgument : Option Nat) (limitArgument : Option String)
    (environment : String → Option String) : Except Failure Config :=
  match blockSize blockArgument environment with
  | .error e => .error e
  | .ok size =>
    match sizeLimit limitArgument environment with
    | .error e => .error e
    | .ok limit =>
      match Config.ofSettings size limit with
      | .error e => .error (.config e)
      | .ok config => .ok config

end Settings

end CommandLine

end Filestore
