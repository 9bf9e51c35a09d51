import Filestore.Proofs.Script.Lines
import Filestore.Text.Utf8.Lemmas

/-!
# `Filestore.Proofs.Script.Turns`: a run that goes on

A run that no failure ends takes the lines of its script one after another, whatever comes of
them. `Run.turn` is what one line does to such a run, and `run_encode` says that a script that is
text is run to its end by taking all its lines in turn.

Taking a line can end a run, so `Run.takeLine` gives more than a run. A turn is the part of it
that is always there: the line is interpreted, what came of it is noted, and the next line is
invited. In a mode that goes on nothing else happens, and a script that is text has no line that
could break the run off; so its run is a fold of turns over its lines, and invariants of runs are
proved by one lemma about a turn.
-/

set_option autoImplicit false

namespace Filestore

namespace Script

open Text

namespace Run

variable {mode : Mode}

/-- A prompt leaves the session of a run as it is. -/
theorem session_prompt (run : Run) (mode : Mode) : (run.prompt mode).session = run.session := by
  unfold prompt
  split <;> rfl

/-- A prompt counts no line, as succeeded or as failed. -/
theorem summary_prompt (run : Run) (mode : Mode) : (run.prompt mode).summary = run.summary := by
  unfold prompt
  split <;> rfl

/-- A prompt is no result: it goes with the complaints. -/
theorem out_prompt (run : Run) (mode : Mode) :
    (run.prompt mode).transcript.out = run.transcript.out := by
  unfold prompt
  split <;> rfl

/-- The run after a line, where no line ends it. -/
def turn (run : Run) (mode : Mode) (line : Nat) (text : List Char) : Run :=
  ({ run with session := (run.session.interpret line text).2 }.note mode line
    (run.session.interpret line text).1).prompt mode

variable {run : Run} {line : Nat} {text : List Char}

/-- A line is interpreted in the session of the run, and the run goes on in the one that it
leaves. -/
theorem session_turn (run : Run) (mode : Mode) (line : Nat) (text : List Char) :
    (run.turn mode line text).session = (run.session.interpret line text).2 := by
  rw [turn, session_prompt]
  cases (run.session.interpret line text).1 <;> rfl

/-- A line that fails is counted as one, in any mode. -/
theorem failed_turn_of_failed {failure : Failure}
    (h : (run.session.interpret line text).1 = .failed failure) (mode : Mode) :
    (run.turn mode line text).summary.failed = run.summary.failed + 1 := by
  rw [turn, summary_prompt, h]
  rfl

/-- A line that does not fail is not counted as one, whether it asked for something or not. -/
theorem failed_turn_of_passed
    (h : ∀ failure, (run.session.interpret line text).1 ≠ .failed failure) (mode : Mode) :
    (run.turn mode line text).summary.failed = run.summary.failed := by
  rw [turn, summary_prompt]
  generalize (run.session.interpret line text).1 = result at h ⊢
  cases result with
  | blank => rfl
  | succeeded outcome => rfl
  | failed failure => exact absurd rfl (h failure)

/-- The run after lines, the first of which has the number `line`. -/
def turns (mode : Mode) : Nat → List (List Char) → Run → Run
  | _, [], run => run
  | line, text :: rest, run => turns mode (line + 1) rest (run.turn mode line text)

/-- A run that goes on takes all lines, if they are text, and is not broken off. -/
theorem takeLines_encode (hmode : mode.keepGoing = true) (line : Nat) (texts : List (List Char))
    (run : Run) :
    takeLines mode line (texts.map Utf8.encode) run = (none, turns mode line texts run) := by
  induction texts generalizing line run with
  | nil => rfl
  | cons text rest ih =>
    have hstops : ∀ result, stopsAfter mode result = false := by
      intro result
      cases result <;> simp [stopsAfter, hmode]
    have htake : run.takeLine mode line (Utf8.encode text) = .next (run.turn mode line text) := by
      simp only [takeLine, Utf8.decode?_encode, hstops, turn]
      rfl
    simp only [List.map_cons, takeLines, htake]
    exact ih _ _

end Run

/-- A run that goes on comes to the end of the script, which is that of its lines taken in turn. -/
theorem run_encode {mode : Mode} (hmode : mode.keepGoing = true) (session : Session)
    (script : List Char) :
    run mode session (Utf8.encode script) =
      (none, Run.turns mode 1 ((pieces script).map chomp) ((Run.start session).prompt mode)) := by
  rw [run, lines_encode, ← Run.takeLines_encode hmode, List.map_map]
  rfl

end Script

end Filestore
