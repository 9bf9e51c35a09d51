import Mathlib.Control.Monad.Basic
import Filestore.Proofs.Script.Session
import Filestore.Proofs.Script.Turns

/-!
# `Filestore.Proofs.Script.Omission`: a line that fails might as well not be there

A script that is run to its end in spite of failures shows the same results as the script without
the lines that fail, and leaves the same store, up to what the store remembers of the latest call.
Only `errno` shows that, so the script must not ask for it.

`run_withoutFailures` is the main result. It relates the two runs line by line (`Mirrors`). A line
that fails leaves the relation as it is, since what fails changes nothing (`Mirrors.of_failed`);
any other line comes out the same in both runs (`Mirrors.of_passed`).

The lines that are left have other numbers than they had, so the results must not show numbers:
the runs write text. The complaints differ of course, the shorter script has none. What a line
does is the same in both runs although the stores may remember different outcomes, because no
command but `errno` looks at what is remembered before it sets it (`executeOn_alike`). Lines are
taken out of the script with their ends, so that what is left is a script with just the other
lines (`pieces_withoutFailures`).
-/

set_option autoImplicit false

namespace Filestore

/-- The stores are the same, up to what they remember of the latest call. -/
def Store.Alike (store other : Store) : Prop := store = { other with lastError := store.lastError }

/-- What a store remembers does not matter to what it is like, so a call that only sets it leaves
stores alike. -/
theorem Store.Alike.with_lastError {store other : Store} (h : store.Alike other)
    (kind : ErrorKind) : Store.Alike { store with lastError := kind } other := by
  show ({ store with lastError := kind } : Store) = { other with lastError := kind }
  rw [h]

namespace Script

open Text

namespace Session

variable {store other : Store} {session kept : Session} {line number : Nat} {text : List Char}

/-- A command other than `errno` comes out the same on stores that are alike, and leaves stores
that are. -/
theorem executeOn_alike (h : store.Alike other) {command : Command}
    (hcommand : command ≠ .lastError) :
    (executeOn store command).1 = (executeOn other command).1 ∧
      (executeOn store command).2.Alike (executeOn other command).2 := by
  rw [h]
  cases hlooks : command.looks with
  | false =>
    rw [executeOn_with_lastError hlooks]
    exact ⟨rfl, rfl⟩
  | true =>
    cases command with
    | list => exact ⟨rfl, rfl⟩
    | lastError => exact absurd rfl hcommand
    | _ => cases hlooks

/-- Between sessions with stores that are alike, a line that asks for no `errno` either fails and
leaves the stores alike, or it comes out the same in both. -/
theorem interpret_alike (h : session.store.Sound) (halike : session.store.Alike kept.store)
    (hsilent : parseLine text ≠ .ok (some .lastError)) (line number : Nat) :
    (∃ failure, (session.interpret line text).1 = .failed failure ∧
        (session.interpret line text).2.store.Alike kept.store) ∨
      (∀ failure, (session.interpret line text).1 ≠ .failed failure) ∧
        (kept.interpret number text).1 = (session.interpret line text).1 ∧
        (session.interpret line text).2.store.Alike (kept.interpret number text).2.store := by
  unfold Session.interpret
  cases hparse : parseLine text with
  | error cause => exact .inl ⟨_, rfl, halike⟩
  | ok parsed =>
    cases parsed with
    | none => exact .inr ⟨fun _ => LineResult.noConfusion, rfl, halike⟩
    | some command =>
      have hcommand : command ≠ .lastError := fun heq => hsilent (heq ▸ hparse)
      obtain ⟨hresult, hnext⟩ := executeOn_alike halike hcommand
      have hatomic := executeOn_atomic h command
      simp only [execute]
      -- The two results are all that is needed of the execution, so it is put out of sight.
      generalize executeOn session.store command = outcome at hresult hnext hatomic
      generalize executeOn kept.store command = outcome' at hresult hnext
      obtain ⟨result, next⟩ := outcome
      obtain ⟨result', next'⟩ := outcome'
      cases hresult
      cases result with
      | error e =>
        -- A command that fails leaves all of the store but the remembered error.
        refine .inl ⟨_, rfl, ?_⟩
        rw [show next = { session.store with lastError := e.kind } from hatomic e rfl]
        exact halike.with_lastError e.kind
      | ok outcome => exact .inr ⟨fun _ => LineResult.noConfusion, rfl, hnext⟩

/-- A command that fails does not matter to the next one, unless that is `errno`: the result is as
if it had not been executed. -/
theorem execute_after_failed (h : session.store.Sound) {failing command : Command} {e : Error}
    (hfails : (session.execute failing).1 = .error e) (hcommand : command ≠ .lastError) :
    ((session.execute failing).2.execute command).1 = (session.execute command).1 := by
  have hatomic : (session.execute failing).2.store = { session.store with lastError := e.kind } :=
    executeOn_atomic h failing e hfails
  have halike : (session.execute failing).2.store.Alike session.store := by
    rw [hatomic]
    rfl
  exact (executeOn_alike halike hcommand).1

/-- A line leaves a sound store, whatever it asks for and whatever comes of it. -/
theorem sound_interpret (h : session.store.Sound) (line : Nat) (text : List Char) :
    (session.interpret line text).2.store.Sound := by
  unfold Session.interpret
  cases parseLine text with
  | error cause => exact h
  | ok parsed =>
    cases parsed with
    | none => exact h
    | some command =>
      have hnext := (continues_executeOn h command).sound
      simp only [execute]
      generalize executeOn session.store command = outcome at hnext
      obtain ⟨result, next⟩ := outcome
      cases result <;> exact hnext

/-- The lines of a script that do not fail, with their ends. The first one of the script has the
number `line`. -/
def passing (session : Session) : Nat → List (List Char) → List (List Char)
  | _, [] => []
  | line, piece :: rest =>
    match session.interpret line (chomp piece) with
    | (.failed _, next) => next.passing (line + 1) rest
    | (_, next) => piece :: next.passing (line + 1) rest

/-- A line that fails is not among those that do not, and the lines after it go on in the session
that it leaves. -/
theorem passing_cons_of_failed {failure : Failure} {piece : List Char} {rest : List (List Char)}
    (h : (session.interpret line (chomp piece)).1 = .failed failure) :
    session.passing line (piece :: rest)
      = (session.interpret line (chomp piece)).2.passing (line + 1) rest := by
  rw [passing]
  split
  · rename_i hinterpret
    rw [hinterpret]
  · rename_i hfailed hinterpret
    rw [hinterpret] at h
    exact absurd h (hfailed _)

/-- A line that does not fail comes first among those that do not, with its end. -/
theorem passing_cons_of_passed {piece : List Char} {rest : List (List Char)}
    (h : ∀ failure, (session.interpret line (chomp piece)).1 ≠ .failed failure) :
    session.passing line (piece :: rest)
      = piece :: (session.interpret line (chomp piece)).2.passing (line + 1) rest := by
  rw [passing]
  split
  · rename_i hinterpret
    rw [hinterpret] at h
    exact absurd rfl (h _)
  · rename_i hinterpret
    rw [hinterpret]

/-- The lines that do not fail are some of the lines, in their order. -/
theorem passing_sublist (session : Session) (line : Nat) (all : List (List Char)) :
    List.Sublist (session.passing line all) all := by
  induction all generalizing session line with
  | nil => exact List.Sublist.refl []
  | cons piece rest ih =>
    rw [passing]
    split
    · exact (ih _ _).cons piece
    · exact (ih _ _).cons_cons piece

end Session

/-- Every line either fails or is one of those that do not, so the two counts add up to all
lines. -/
theorem Run.failed_turns (run : Run) (mode : Mode) (line : Nat) (all : List (List Char)) :
    (Run.turns mode line (all.map chomp) run).summary.failed
        + (run.session.passing line all).length
      = run.summary.failed + all.length := by
  induction all generalizing run line with
  | nil => rfl
  | cons piece rest ih =>
    have hrest := ih (run.turn mode line (chomp piece)) (line + 1)
    rw [Run.session_turn] at hrest
    rw [List.map_cons, Run.turns, List.length_cons]
    by_cases hfailed : ∃ failure,
        (run.session.interpret line (chomp piece)).1 = .failed failure
    · obtain ⟨failure, hfailed⟩ := hfailed
      rw [Run.failed_turn_of_failed hfailed mode] at hrest
      rw [Session.passing_cons_of_failed hfailed]
      omega
    · have hpassed := not_exists.mp hfailed
      rw [Run.failed_turn_of_passed hpassed mode] at hrest
      rw [Session.passing_cons_of_passed hpassed, List.length_cons]
      omega

/-- The run `kept` takes the lines of the run `whole` that do not fail, and has shown the same
results.

- `sound`: the parts of the store agree.
- `alike`: the stores are the same, up to what they remember.
- `out_eq`: the same results were written.
- `succeeded_eq`: as many lines succeeded.
- `failed_eq`: no line failed. -/
structure Mirrors (whole kept : Run) : Prop where
  sound : whole.session.store.Sound
  alike : whole.session.store.Alike kept.session.store
  out_eq : kept.transcript.out = whole.transcript.out
  succeeded_eq : kept.summary.succeeded = whole.summary.succeeded
  failed_eq : kept.summary.failed = 0

namespace Mirrors

variable {whole kept : Run} {mode : Mode} {line number : Nat} {text : List Char}

/-- A line that fails may be left out: it writes no result, and leaves the store as it was but for
what that remembers. -/
theorem of_failed (h : Mirrors whole kept) {failure : Failure}
    (hfailed : (whole.session.interpret line text).1 = .failed failure)
    (halike : (whole.session.interpret line text).2.store.Alike kept.session.store) :
    Mirrors (whole.turn mode line text) kept where
  sound := by
    rw [Run.session_turn]
    exact Session.sound_interpret h.sound line text
  alike := by
    rw [Run.session_turn]
    exact halike
  out_eq := by
    rw [Run.turn, Run.out_prompt, hfailed]
    exact h.out_eq
  succeeded_eq := by
    rw [Run.turn, Run.summary_prompt, hfailed]
    exact h.succeeded_eq
  failed_eq := h.failed_eq

/-- A line that does not fail shows the same result in both runs, whatever its number is. -/
theorem of_passed (h : Mirrors whole kept) (hmode : mode.format = .text)
    (hpassed : ∀ failure, (whole.session.interpret line text).1 ≠ .failed failure)
    (hresult : (kept.session.interpret number text).1 = (whole.session.interpret line text).1)
    (halike : (whole.session.interpret line text).2.store.Alike
      (kept.session.interpret number text).2.store) :
    Mirrors (whole.turn mode line text) (kept.turn mode number text) where
  sound := by
    rw [Run.session_turn]
    exact Session.sound_interpret h.sound line text
  alike := by
    rw [Run.session_turn, Run.session_turn]
    exact halike
  out_eq := by
    rw [Run.turn, Run.turn, Run.out_prompt, Run.out_prompt, hresult]
    cases hline : (whole.session.interpret line text).1 with
    | blank => exact h.out_eq
    | succeeded outcome =>
      show kept.transcript.out ++ outcome.render number mode.format
        = whole.transcript.out ++ outcome.render line mode.format
      -- In text, the number of the line does not show in its result.
      rw [h.out_eq, hmode]
      rfl
    | failed failure => exact absurd hline (hpassed failure)
  succeeded_eq := by
    rw [Run.turn, Run.turn, Run.summary_prompt, Run.summary_prompt, hresult]
    cases hline : (whole.session.interpret line text).1 with
    | blank => exact h.succeeded_eq
    | succeeded outcome => exact congrArg (· + 1) h.succeeded_eq
    | failed failure => exact absurd hline (hpassed failure)
  failed_eq := by
    rw [Run.failed_turn_of_passed (hresult.symm ▸ hpassed)]
    exact h.failed_eq

/-- The run that leaves out the lines that fail shows the same results all along. The induction is
on the lines of the longer script. -/
theorem turns (h : Mirrors whole kept) (hmode : mode.format = .text) {all : List (List Char)}
    (hsilent : ∀ piece ∈ all, parseLine (chomp piece) ≠ .ok (some .lastError)) :
    Mirrors (Run.turns mode line (all.map chomp) whole)
      (Run.turns mode number ((whole.session.passing line all).map chomp) kept) := by
  induction all generalizing whole kept line number with
  | nil => exact h
  | cons piece rest ih =>
    obtain ⟨hpiece, hrest⟩ := List.forall_mem_cons.mp hsilent
    have hsession := whole.session_turn mode line (chomp piece)
    rcases Session.interpret_alike h.sound h.alike hpiece line number with
      ⟨failure, hfailed, halike⟩ | ⟨hpassed, hresult, halike⟩
    · rw [Session.passing_cons_of_failed hfailed, ← hsession]
      exact ih (h.of_failed hfailed halike) hrest
    · rw [Session.passing_cons_of_passed hpassed, ← hsession]
      exact ih (h.of_passed hmode hpassed hresult halike) hrest

end Mirrors

/-- A script without the lines that fail when it is run in the session. -/
def withoutFailures (session : Session) (script : List Char) : List Char :=
  (session.passing 1 (pieces script)).flatten

/-- What is left of a script has just the lines that do not fail, because lines that are taken out
leave lines. -/
theorem pieces_withoutFailures (session : Session) (script : List Char) :
    pieces (withoutFailures session script) = session.passing 1 (pieces script) :=
  pieces_flatten_of_sublist (session.passing_sublist 1 (pieces script))

section Whole

variable {mode : Mode} {session : Session} {script : List Char}

/-- A run to the end is mirrored by the run without the lines that fail, from two equal stores
on. -/
theorem mirrors_run (hkeep : mode.keepGoing = true) (hformat : mode.format = .text)
    (hsound : session.store.Sound)
    (hsilent : ∀ piece ∈ pieces script, parseLine (chomp piece) ≠ .ok (some .lastError)) :
    Mirrors (run mode session (Utf8.encode script)).2
      (run mode session (Utf8.encode (withoutFailures session script))).2 := by
  rw [run_encode hkeep, run_encode hkeep, pieces_withoutFailures]
  have hsession := (Run.start session).session_prompt mode
  have hsummary := (Run.start session).summary_prompt mode
  generalize (Run.start session).prompt mode = start at hsession hsummary
  have hstart : Mirrors start start :=
    ⟨hsession ▸ hsound, rfl, rfl, rfl, congrArg Summary.failed hsummary⟩
  have hsame : start.session = session := hsession
  rw [← hsame]
  exact hstart.turns hformat hsilent

/-- The lines that are left are those that are not counted as failed, so what was left out are the
failures and nothing else. -/
theorem failed_run (hkeep : mode.keepGoing = true) :
    (run mode session (Utf8.encode script)).2.summary.failed
        + (pieces (withoutFailures session script)).length
      = (pieces script).length := by
  have hcount := ((Run.start session).prompt mode).failed_turns mode 1 (pieces script)
  rw [Run.session_prompt, Run.summary_prompt] at hcount
  rw [run_encode hkeep, pieces_withoutFailures]
  exact hcount.trans (Nat.zero_add _)

end Whole

/-- A script that asks for no `errno` and is run to its end shows the same results without the lines
that fail, which are all the lines that are counted as failed, and leaves the same store up to what
the store remembers. For no command but `errno` depends on that, or on a command that failed. -/
theorem run_withoutFailures (config : Config) (interactive : Bool) (script : List Char)
    (hsilent : ∀ piece ∈ pieces script, parseLine (chomp piece) ≠ .ok (some .lastError)) :
    let mode : Mode := ⟨.text, true, interactive⟩
    let session := Session.start config
    let whole := run mode session (Utf8.encode script)
    let kept := run mode session (Utf8.encode (withoutFailures session script))
    (whole.1 = none ∧ kept.1 = none ∧
      whole.2.summary.failed + (pieces (withoutFailures session script)).length
        = (pieces script).length ∧
      kept.2.summary.failed = 0 ∧
      kept.2.summary.succeeded = whole.2.summary.succeeded ∧
      kept.2.transcript.out = whole.2.transcript.out ∧
      whole.2.session.store.Alike kept.2.session.store) ∧
    (∀ store other command, Store.Alike store other → command ≠ .lastError →
      (Session.executeOn store command).1 = (Session.executeOn other command).1) ∧
    ∀ commands failing command e,
      ((session.executeAll commands).2.execute failing).1 = .error e → command ≠ .lastError →
      (((session.executeAll commands).2.execute failing).2.execute command).1
        = ((session.executeAll commands).2.execute command).1 := by
  intro mode session whole kept
  have hsound : session.store.Sound := Store.sound_empty config
  have hmirrors : Mirrors whole.2 kept.2 := mirrors_run rfl rfl hsound hsilent
  have hcount : whole.2.summary.failed + (pieces (withoutFailures session script)).length
      = (pieces script).length := failed_run rfl
  refine ⟨⟨?_, ?_, hcount, hmirrors.failed_eq, hmirrors.succeeded_eq, hmirrors.out_eq,
    hmirrors.alike⟩, ?_, ?_⟩
  · exact congrArg Prod.fst (run_encode rfl session script)
  · exact congrArg Prod.fst (run_encode rfl session (withoutFailures session script))
  · exact fun store other command halike hcommand => (Session.executeOn_alike halike hcommand).1
  · intro commands failing command e hfails hcommand
    exact Session.execute_after_failed (Session.sound_executeAll hsound commands) hfails hcommand

/-- A script with a line that is no command, one whose command fails, and a short write. -/
theorem run_withoutFailures_short :
    let config : Config := ⟨2, some 3, by decide, by decide⟩
    let script := "open a create\nclose 5\nfil\nwrite 0 abcd\nwrite 0 e\nfstat 0\n".toList
    let mode : Mode := ⟨.text, true, false⟩
    let session := Session.start config
    (∀ piece ∈ pieces script, parseLine (chomp piece) ≠ .ok (some .lastError)) ∧
      (run mode session (Utf8.encode (withoutFailures session script))).2.transcript.out
        = (run mode session (Utf8.encode script)).2.transcript.out := by
  intro config script mode session
  have hsilent : ∀ piece ∈ pieces script, parseLine (chomp piece) ≠ .ok (some .lastError) := by
    decide +kernel
  refine ⟨hsilent, ?_⟩
  -- What the script is does not matter any more, and would only be looked into.
  clear_value script
  obtain ⟨⟨-, -, -, -, -, hout, -⟩, -⟩ := run_withoutFailures config false script hsilent
  exact hout

end Script

end Filestore
