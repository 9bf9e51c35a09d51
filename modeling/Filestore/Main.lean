import Filestore.CommandLine.Program

/-!
# `Filestore.Main`: the program

Reads what the program needs from its surroundings, runs it, and writes what it has to say. Only a
terminal is served line by line, so that each prompt comes before the line it asks for. Everything
else is read in full first, and then the program is the function
`Filestore.CommandLine.Program.run` of what was read.

Nothing is decided here that is decided elsewhere. A line from a terminal is taken by the same
`Run.takeLine` as every other one, a path that yields no bytes is classed by the error the system
gives (`Main.fileFault`), and the exit status is the one that the function gives. Nothing is
proved about this module, which is why it is kept as thin as it is.
-/

set_option autoImplicit false

namespace Filestore

open CommandLine Script

namespace Main

/-- The number of a system's error, which may come with a minus sign. -/
def errorCode (code : UInt32) : Nat := min code.toNat (-code).toNat

/-- Why a path yields no bytes. -/
def fileFault : IO.Error → FileFault
  | .noFileOrDirectory .. => .missing
  | .permissionDenied .. => .forbidden
  | .inappropriateType _ code reason =>
    if errorCode code = FileFault.notDirectory.code then .notDirectory
    else if errorCode code = FileFault.isDirectory.code then .isDirectory
    else .other (errorCode code) reason
  | .invalidArgument _ code reason =>
    if errorCode code = FileFault.nameTooLong.code then .nameTooLong
    else .other (errorCode code) reason
  | .noSuchThing _ code reason => .other (errorCode code) reason
  | .otherError code reason => .other (errorCode code) reason
  | fault => .other 5 (toString fault)

/-- The bytes of a file, or why there are none. -/
def readFile (path : String) : IO (Except FileFault Bytes) := do
  try
    let bytes ← IO.FS.readBinFile path
    return .ok bytes.toList
  catch fault => return .error (fileFault fault)

/-- The environment variables that matter. -/
def readEnvironment : IO (String → Option String) := do
  let blockSize ← IO.getEnv "UFS_BLOCK_SIZE"
  let sizeLimit ← IO.getEnv "UFS_MAX_FILE_SIZE"
  return fun name =>
    if name = "UFS_BLOCK_SIZE" then blockSize
    else if name = "UFS_MAX_FILE_SIZE" then sizeLimit
    else none

/-- Writes what a run has to say and forgets it. -/
def utter (run : Run) : IO Run := do
  let output ← IO.getStdout
  let errors ← IO.getStderr
  output.putStr run.transcript.out
  output.flush
  errors.putStr run.transcript.err
  errors.flush
  return { run with transcript := Transcript.empty }

/-- A line of a terminal without its end, or nothing where the input ends. -/
def readLine (input : IO.FS.Stream) : IO (Option Bytes) := do
  let text ← input.getLine
  return (Script.lines (Text.Utf8.encode text.toList)).head?

/-- Takes lines from a terminal until it ends. -/
partial def converse (mode : Mode) (input : IO.FS.Stream) (line : Nat) (run : Run) :
    IO (Option Failure × Run) := do
  let run ← utter run
  match ← readLine input with
  | none => return (none, run)
  | some raw =>
    match run.takeLine mode line raw with
    | .next run => converse mode input (line + 1) run
    | .ended run => return (none, run)
    | .broken failure run => return (some failure, run)

/-- Serves a terminal. -/
def serve (options : Options) (environment : String → Option String) : IO Ending := do
  let format := Program.format options
  match Program.session options environment with
  | .error complaint => return Program.broken format Transcript.empty complaint
  | .ok session =>
    let mode := Program.mode options true
    let result ← converse mode (← IO.getStdin) 1 ((Run.start session).prompt mode)
    return Program.finished format result

/-- The surroundings of a run that nobody is prompted for. -/
def surroundings (options : Options) (environment : String → Option String) :
    IO Surroundings := do
  match options.script with
  | some path =>
    let file ← readFile path
    return ⟨environment, fun _ => file, [], false⟩
  | none =>
    let bytes ← (← IO.getStdin).readBinToEnd
    return ⟨environment, fun _ => .ok [], bytes.toList, false⟩

/-- How the program ends. -/
def ending (arguments : List String) : IO Ending := do
  let environment ← readEnvironment
  match Options.read arguments with
  | .ok (.run options) =>
    let terminal ← (← IO.getStdin).isTty
    if (Program.mode options terminal).interactive then serve options environment
    else return Program.run arguments (← surroundings options environment)
  | _ => return Program.run arguments ⟨environment, fun _ => .ok [], [], false⟩

end Main

end Filestore

/-- Runs the program. -/
def main (arguments : List String) : IO UInt32 := do
  let ending ← Filestore.Main.ending arguments
  (← IO.getStdout).putStr ending.out
  (← IO.getStderr).putStr ending.err
  return UInt32.ofNat ending.exit
