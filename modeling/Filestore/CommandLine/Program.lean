import Filestore.CommandLine.FileTree
import Filestore.CommandLine.Options
import Filestore.CommandLine.Settings
import Filestore.Script.Run

/-!
# `Filestore.CommandLine.Program`: the program as a function

What the program writes and how it exits is a function of its arguments and its surroundings:
`Program.run`. Bad arguments exit with 2; a run exits with 1 if a line failed or something broke
it off, and with 0 otherwise.

The surroundings are the environment, the file system, the standard input and whether that is a
terminal; nothing else about the machine can make a difference. They are values here, so the whole
input is there from the start. The outer layer in `Filestore.Main` is the only place with input
and output: it collects the surroundings, and it serves a terminal line by line with the same
functions.

A failure that breaks a run off is written after everything that the lines before it wrote, in the
form that the arguments ask for. The summary of the run is not written; it decides the exit
status.
-/

set_option autoImplicit false

namespace Filestore

namespace CommandLine

open Script

/-- What the program finds around it. -/
structure Surroundings where
  /-- The environment variables. -/
  environment : String → Option String
  /-- The bytes of the file at a path, or why there are none. -/
  file : String → Except FileFault Bytes
  /-- The standard input. -/
  input : Bytes
  /-- Whether the standard input is a terminal. -/
  terminal : Bool

/-- How the program ends. -/
structure Ending where
  /-- The exit code. -/
  exit : Nat
  /-- What was written to the standard output. -/
  out : String
  /-- What was written to the standard error. -/
  err : String
  deriving DecidableEq, Repr

namespace Program

/-- The name and version of the program. -/
def versionText : String := "ufs 0.1.0\n"

/-- How to call the program. -/
def helpText : String := String.join [
  "Run command scripts against an in-memory file store\n",
  "\n",
  "Usage: ufs [OPTIONS] [SCRIPT]\n",
  "\n",
  "Arguments:\n",
  "  [SCRIPT]  Script to execute (reads stdin if omitted)\n",
  "\n",
  "Options:\n",
  "      --json                   Output results as JSON, one object per line\n",
  "      --block-size <BYTES>     Block size (else UFS_BLOCK_SIZE, else 512)\n",
  "      --max-file-size <BYTES>  Maximum file size, or \"none\"\n",
  "                               (else UFS_MAX_FILE_SIZE, else 100 MiB)\n",
  "  -k, --keep-going             Keep executing after a failing command\n",
  "  -v, --verbose                Ask for a log of activity (none is kept)\n",
  "  -h, --help                   Print help\n",
  "  -V, --version                Print version\n"]

/-- What is written of arguments that are refused. -/
def usageText (fault : UsageError) : String :=
  "error: " ++ fault.message
    ++ "\n\nUsage: ufs [OPTIONS] [SCRIPT]\n\nFor more information, try '--help'.\n"

/-- What the options say about the form of the output. -/
def format (options : Options) : Format := if options.json then .json else .text

/-- How a script is run. A terminal is prompted only where the script comes from it and results
are text. -/
def mode (options : Options) (terminal : Bool) : Mode :=
  ⟨format options, options.keepGoing, options.script.isNone && !options.json && terminal⟩

/-- The bytes of the script, or what is written of a file without any. -/
def scriptBytes (options : Options) (surroundings : Surroundings) : Except Complaint Bytes :=
  match options.script with
  | none => .ok surroundings.input
  | some path =>
    match surroundings.file path with
    | .ok bytes => .ok bytes
    | .error .isDirectory =>
      -- That it is a directory shows only when its first line is asked for.
      .error ⟨none, none, "Failed to read line 1: " ++ FileFault.isDirectory.message⟩
    | .error fault =>
      .error ⟨none, none, "Failed to open script " ++ path ++ ": " ++ fault.message⟩

/-- The session that a run starts with, or what is written of settings that allow none. -/
def session (options : Options) (environment : String → Option String) :
    Except Complaint Session :=
  match Settings.resolve options.blockSize options.sizeLimit environment with
  | .error e => .error ⟨none, e.kind?, e.message⟩
  | .ok config => .ok (Session.start config)

/-- How the program ends where a complaint broke it off. -/
def broken (format : Format) (transcript : Transcript) (complaint : Complaint) : Ending :=
  let transcript := transcript.writeComplaint format complaint
  ⟨1, transcript.out, transcript.err⟩

/-- How the program ends after a run. -/
def finished (format : Format) : Option Failure × Run → Ending
  | (some failure, run) => broken format run.transcript failure.complaint
  | (none, run) =>
    ⟨if run.summary.failed = 0 then 0 else 1, run.transcript.out, run.transcript.err⟩

/-- Runs a script as the options say. The settings are settled before the script is opened. -/
def runScript (options : Options) (surroundings : Surroundings) : Ending :=
  match session options surroundings.environment with
  | .error complaint => broken (format options) Transcript.empty complaint
  | .ok session =>
    match scriptBytes options surroundings with
    | .error complaint => broken (format options) Transcript.empty complaint
    | .ok bytes =>
      finished (format options) (Script.run (mode options surroundings.terminal) session bytes)

/-- Runs the program. -/
def run (arguments : List String) (surroundings : Surroundings) : Ending :=
  match Options.read arguments with
  | .error fault => ⟨2, "", usageText fault⟩
  | .ok .help => ⟨0, helpText, ""⟩
  | .ok .version => ⟨0, versionText, ""⟩
  | .ok (.run options) => runScript options surroundings

end Program

end CommandLine

end Filestore
