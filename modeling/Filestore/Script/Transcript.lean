import Filestore.Script.Outcome
import Filestore.Script.Parser

/-!
# `Filestore.Script.Transcript`: what a run writes

Results go to one stream and complaints to another, as text or as one JSON object a line. A
`Failure` is what can go wrong with a script, and `Failure.complaint` is what is written of it.
The prompts of an interactive run go with the complaints, so that the results can be used on their
own.

A complaint has up to three parts: the number of the line, the kind of the outcome, and the
wording. The kind is there only for what the store refused, since a line that is no command has
not come to the store. The number is there only for a line that was read as text; for one that was
not, it is in the wording. A part that does not apply is left out of the object and not written as
nothing.

Both streams only ever grow at their ends. What is written for one line depends on that line's
number and what came of it, and on nothing written before.
-/

set_option autoImplicit false

namespace Filestore

namespace Script

/-- How results and complaints are written. -/
inductive Format where
  /-- Lines for a reader. -/
  | text
  /-- One JSON object a line. -/
  | json
  deriving DecidableEq, Repr

/-- What is written of a failure. -/
structure Complaint where
  /-- The number of the line, if the failure belongs to one that was read. -/
  line : Option Nat
  /-- What the store makes of the failure, if it is the store's. -/
  kind : Option ErrorKind
  /-- The wording. -/
  message : String
  deriving DecidableEq, Repr

/-- What can go wrong with a script. -/
inductive Failure where
  /-- A line is no command. -/
  | unparsed (line : Nat) (cause : ParseError)
  /-- The store refuses the command of a line. -/
  | refused (line : Nat) (text : String) (cause : Error)
  /-- A line is no text. -/
  | unreadable (line : Nat)
  deriving DecidableEq, Repr

/-- What is written of a failure. A line that is no text was never read, so its number is in the
wording only. -/
def Failure.complaint : Failure → Complaint
  | .unparsed line cause =>
    ⟨some line, none, "line " ++ toString line ++ ": parse error: " ++ cause.message⟩
  | .refused line text cause =>
    ⟨some line, some cause.kind, "line " ++ toString line ++ ": " ++ text ++ ": " ++ cause.message⟩
  | .unreadable line =>
    ⟨none, none,
      "Failed to read line " ++ toString line ++ ": stream did not contain valid UTF-8"⟩

namespace Complaint

/-- The fields of a complaint; one that does not apply is left out. -/
def fields (complaint : Complaint) : List Json.Field :=
  [("success", .bool false)]
    ++ (complaint.line.map fun line => ("line", Json.nat line)).toList
    ++ (complaint.kind.map fun kind => ("kind", Json.text kind.label)).toList
    ++ [("error", .text complaint.message)]

/-- A complaint as it is written. -/
def render (complaint : Complaint) : Format → String
  | .text => "Error: " ++ complaint.message ++ "\n"
  | .json => Json.object complaint.fields ++ "\n"

end Complaint

/-- The fields of the result of a line. -/
def Outcome.lineFields (outcome : Outcome) (line : Nat) : List Json.Field :=
  [("success", .bool true), ("line", .nat line)] ++ outcome.fields

/-- The result of a line as it is written. -/
def Outcome.render (outcome : Outcome) (line : Nat) : Format → String
  | .text => outcome.text
  | .json => Json.object (outcome.lineFields line) ++ "\n"

/-- What a run has written so far. -/
structure Transcript where
  /-- The results. -/
  out : String
  /-- The complaints and prompts. -/
  err : String
  deriving DecidableEq, Repr

namespace Transcript

/-- Nothing written. -/
def empty : Transcript := ⟨"", ""⟩

/-- Adds a result. -/
def writeOutcome (transcript : Transcript) (format : Format) (line : Nat) (outcome : Outcome) :
    Transcript :=
  { transcript with out := transcript.out ++ outcome.render line format }

/-- Adds a complaint. -/
def writeComplaint (transcript : Transcript) (format : Format) (complaint : Complaint) :
    Transcript :=
  { transcript with err := transcript.err ++ complaint.render format }

/-- Adds the prompt that invites the next line. -/
def prompt (transcript : Transcript) : Transcript :=
  { transcript with err := transcript.err ++ "ufs> " }

end Transcript

end Script

end Filestore
