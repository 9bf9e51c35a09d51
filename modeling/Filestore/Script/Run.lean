import Filestore.Script.Session
import Filestore.Script.Transcript

/-!
# `Filestore.Script.Run`: a script from its first line to its last

A `Run` is the session, what was written so far, and how many lines succeeded and failed. Lines
are taken one at a time; the first that fails ends the run, unless the mode says to go on, and one
that is no text ends it in any mode. In an interactive run a line that fails never ends it, as
there is someone to type the next one.

A script is a byte string. It is cut into lines first (`lines`), and each line is decoded when its
turn comes, so that the lines before one that is no text have been executed by then. A line
without a command counts neither as succeeded nor as failed, and nothing is written for it, but it
does have a number.

`run` gives the failure that broke the run off beside the run itself. It is not among the failed
lines that the summary counts, and it is not yet written: that is left to the program, which also
makes its exit status of it.
-/

set_option autoImplicit false

namespace Filestore

namespace Script

open Text

/-- The lines of a script. A line ends at a line feed, which goes together with one carriage return
before it; the last line may lack its end. -/
def lines : Bytes → List Bytes
  | [] => []
  | byte :: rest =>
    if byte = 10 then [] :: lines rest
    else if byte = 13 ∧ rest.head? = some 10 then lines rest
    else
      match lines rest with
      | [] => [[byte]]
      | line :: others => (byte :: line) :: others

/-- How a script is run. -/
structure Mode where
  /-- How results and complaints are written. -/
  format : Format
  /-- Whether a line that fails is passed over. -/
  keepGoing : Bool
  /-- Whether someone is being prompted for the lines. -/
  interactive : Bool
  deriving DecidableEq, Repr

/-- How many lines succeeded and failed. -/
structure Summary where
  /-- Lines whose command succeeded. -/
  succeeded : Nat
  /-- Lines that were no command, or whose command failed. -/
  failed : Nat
  deriving DecidableEq, Repr

/-- The progress of a script. -/
structure Run where
  /-- The store and the commands executed on it. -/
  session : Session
  /-- What was written. -/
  transcript : Transcript
  /-- How many lines succeeded and failed. -/
  summary : Summary
  deriving DecidableEq, Repr

/-- What came of a line. -/
inductive LineResult where
  /-- The line asks for nothing. -/
  | blank
  /-- The line's command succeeded. -/
  | succeeded (outcome : Outcome)
  /-- The line failed. -/
  | failed (failure : Failure)
  deriving DecidableEq, Repr

namespace Session

/-- Reads a line and executes its command. -/
def interpret (session : Session) (line : Nat) (text : List Char) : LineResult × Session :=
  match parseLine text with
  | .error cause => (.failed (.unparsed line cause), session)
  | .ok none => (.blank, session)
  | .ok (some command) =>
    match session.execute command with
    | (.ok outcome, next) => (.succeeded outcome, next)
    | (.error cause, next) =>
      (.failed (.refused line (String.ofList (trim text)) cause), next)

end Session

namespace Run

/-- A run before its first line. -/
def start (session : Session) : Run := ⟨session, Transcript.empty, ⟨0, 0⟩⟩

/-- Writes the prompt, if someone is being prompted. -/
def prompt (run : Run) (mode : Mode) : Run :=
  if mode.interactive then { run with transcript := run.transcript.prompt } else run

/-- Notes what came of a line. -/
def note (run : Run) (mode : Mode) (line : Nat) : LineResult → Run
  | .blank => run
  | .succeeded outcome =>
    { run with
      transcript := run.transcript.writeOutcome mode.format line outcome
      summary := { run.summary with succeeded := run.summary.succeeded + 1 } }
  | .failed failure =>
    { run with
      transcript := run.transcript.writeComplaint mode.format failure.complaint
      summary := { run.summary with failed := run.summary.failed + 1 } }

/-- Whether the run ends after a line. -/
def stopsAfter (mode : Mode) : LineResult → Bool
  | .failed _ => !mode.keepGoing && !mode.interactive
  | _ => false

/-- How a run stands after a line. -/
inductive Turn where
  /-- The next line is due. -/
  | next (run : Run)
  /-- The line failed, and a line that fails ends the run. -/
  | ended (run : Run)
  /-- The line is no text. -/
  | broken (failure : Failure) (run : Run)
  deriving DecidableEq, Repr

/-- Takes one line. -/
def takeLine (run : Run) (mode : Mode) (line : Nat) (raw : Bytes) : Turn :=
  match Utf8.decode? raw with
  | none => .broken (.unreadable line) run
  | some text =>
    let (result, session) := run.session.interpret line text
    let noted := { run with session }.note mode line result
    -- A run that goes on invites the next line, whether there is one or not.
    if stopsAfter mode result then .ended noted else .next (noted.prompt mode)

/-- Takes the given lines, the first of which has the number `line`. Gives the failure that broke
the run off, if one did. -/
def takeLines (mode : Mode) : Nat → List Bytes → Run → Option Failure × Run
  | _, [], run => (none, run)
  | line, raw :: rest, run =>
    match run.takeLine mode line raw with
    | .next run => takeLines mode (line + 1) rest run
    | .ended run => (none, run)
    | .broken failure run => (some failure, run)

end Run

/-- Runs a script. Gives the failure that broke the run off, if one did. -/
def run (mode : Mode) (session : Session) (bytes : Bytes) : Option Failure × Run :=
  Run.takeLines mode 1 (lines bytes) ((Run.start session).prompt mode)

end Script

end Filestore
