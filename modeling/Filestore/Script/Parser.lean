import Filestore.Script.Command
import Filestore.Text.Blank

/-!
# `Filestore.Script.Parser`: reading a script line

A line is words between white space, and a number sign starts a comment. Only a line that starts
with `write` keeps what follows a number sign, since its text is data. `parseLine` gives a
command, nothing for a line without words, or the first fault. A descriptor is read before the
other arguments of its command, and what is left over after a command's only argument is a fault
before the argument itself is looked at.

The text of a `write` is what is left of the line after the descriptor, less the white space
before and after it: the line is trimmed as a whole before the words are split off, and splitting
off the descriptor drops the white space behind it. White space inside the text stays. Whether a
line starts with `write` is asked of its letters and not of its first word, so a number sign is
also kept in a line that starts with a longer word of these letters; such a line is no command
anyway.

`ParseError` has one case for each way to be wrong, with what was found there, and
`ParseError.message` the wording. The parser and the grammar of the lines it accepts are compared
in `Filestore.Proofs.Script.Grammar`.
-/

set_option autoImplicit false

namespace Filestore

namespace Script

open Text

/-- An argument of a command. -/
inductive Argument where
  /-- A file name. -/
  | fileName
  /-- A descriptor. -/
  | descriptor
  /-- How many bytes to fill. -/
  | length
  /-- How many bytes to read. -/
  | byteCount
  /-- The size of a file. -/
  | size
  /-- The byte to fill with. -/
  | fillByte
  deriving DecidableEq, Repr

/-- What an argument is called in a complaint. -/
def Argument.label : Argument → String
  | .fileName => "file name"
  | .descriptor => "descriptor"
  | .length => "length"
  | .byteCount => "byte count"
  | .size => "size"
  | .fillByte => "fill byte"

/-- Why a line is no command. -/
inductive ParseError where
  /-- The first word names no command. -/
  | unknownCommand (word : String)
  /-- Something other than the one flag there is. -/
  | unknownFlag (text : String)
  /-- An argument is not there. -/
  | missing (argument : Argument)
  /-- There is more than the command takes. -/
  | unexpected (text : String)
  /-- An argument is not the number it has to be. -/
  | invalid (argument : Argument) (text : String) (cause : Numeral.Fault)
  deriving DecidableEq, Repr

/-- The wording of a fault. -/
def ParseError.message : ParseError → String
  | .unknownCommand word => "Unknown command: " ++ word
  | .unknownFlag text => "Unknown open flag: " ++ text
  | .missing argument => "Missing " ++ argument.label
  | .unexpected text => "Unexpected argument: " ++ text
  | .invalid argument text cause =>
    "Invalid " ++ argument.label ++ ": " ++ text ++ ": " ++ cause.message

/-- A number below the bound as an argument. -/
def number (bound : Nat) (argument : Argument) (text : List Char) : Except ParseError Nat :=
  match text with
  | [] => .error (.missing argument)
  | _ =>
    match Numeral.read bound text with
    | .error cause => .error (.invalid argument (String.ofList text) cause)
    | .ok value => .ok value

/-- A descriptor as an argument. -/
def descriptor (text : List Char) : Except ParseError Nat :=
  number Numeral.bound64 .descriptor text

/-- A file name as an argument. -/
def fileName (word : List Char) : Except ParseError String :=
  match word with
  | [] => .error (.missing .fileName)
  | _ => .ok (String.ofList word)

/-- The only word of a text. -/
def onlyWord (text : List Char) : Except ParseError (List Char) :=
  match splitWord text with
  | (word, []) => .ok word
  | (_, extra) => .error (.unexpected (String.ofList extra))

/-- A command that takes a file name. -/
def withName (build : String → Command) (text : List Char) : Except ParseError Command := do
  let word ← onlyWord text
  let name ← fileName word
  return build name

/-- A command that takes a descriptor. -/
def withDescriptor (build : Nat → Command) (text : List Char) : Except ParseError Command := do
  let word ← onlyWord text
  let fd ← descriptor word
  return build fd

/-- A command that takes a descriptor and a number. -/
def withNumber (build : Nat → Nat → Command) (argument : Argument) (text : List Char) :
    Except ParseError Command := do
  let (first, rest) := splitWord text
  let fd ← descriptor first
  let value ← number Numeral.bound64 argument rest
  return build fd value

/-- A command that takes nothing. -/
def alone (command : Command) (text : List Char) : Except ParseError Command :=
  match text with
  | [] => .ok command
  | _ => .error (.unexpected (String.ofList text))

/-- A fill byte: `x` where none is given, an ASCII character that is no digit as itself, and a
number below 256 else. -/
def fillByte (text : List Char) : Except ParseError UInt8 :=
  let asNumber := (number Numeral.bound8 .fillByte text).map UInt8.ofNat
  match text with
  | [] => .ok 120
  | [c] => if c.toNat < 128 ∧ c.isDigit = false then .ok (UInt8.ofNat c.toNat) else asNumber
  | _ => asNumber

/-- What follows the word `open`. -/
def parseOpen (text : List Char) : Except ParseError Command := do
  let (word, flag) := splitWord text
  -- A wrong flag is reported before a missing name.
  if flag ≠ [] ∧ flag ≠ "create".toList then
    throw (.unknownFlag (String.ofList flag))
  let name ← fileName word
  return .openFile name (decide (flag ≠ []))

/-- What follows the word `write`. -/
def parseWrite (text : List Char) : Except ParseError Command := do
  let (word, data) := splitWord text
  let fd ← descriptor word
  return .write fd (Utf8.encode data)

/-- What follows the word `fill`. -/
def parseFill (text : List Char) : Except ParseError Command := do
  let (first, rest) := splitWord text
  let (second, last) := splitWord rest
  let fd ← descriptor first
  let len ← number Numeral.bound64 .length second
  let byte ← fillByte last
  return .fill fd len byte

/-- The command of a word and the text after it. -/
def parseCommand (word : String) (text : List Char) : Except ParseError Command :=
  match word with
  | "open" => parseOpen text
  | "write" => parseWrite text
  | "fill" => parseFill text
  | "read" => withNumber .read .byteCount text
  | "close" => withDescriptor .close text
  | "delete" => withName .delete text
  | "rm" => withName .delete text
  | "resize" => withNumber .resize .size text
  | "rewind" => withDescriptor .rewind text
  | "stat" => withName .stat text
  | "fstat" => withDescriptor .statOpen text
  | "digest" => withDescriptor .digest text
  | "ls" => alone .list text
  | "errno" => alone .lastError text
  | "destroy" => alone .destroy text
  | _ => .error (.unknownCommand word)

/-- A line without its comment. A line that starts with `write` has none. -/
def stripComment (line : List Char) : List Char :=
  if "write".toList.isPrefixOf (trimStart line) then line
  else line.takeWhile fun c => c != '#'

/-- The command of a line, nothing for a line without words, or the first fault. -/
def parseLine (line : List Char) : Except ParseError (Option Command) :=
  match trim (stripComment line) with
  | [] => .ok none
  | text =>
    let (word, rest) := splitWord text
    (parseCommand (String.ofList word) rest).map some

end Script

end Filestore
