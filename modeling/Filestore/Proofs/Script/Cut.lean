import Filestore.Proofs.Script.Turns

/-!
# `Filestore.Proofs.Script.Cut`: a run that stops at the first failure

A run that stops at the first line that fails does what a run that goes on does with the script cut
off after that line. `firstLines` cuts a script after a number of lines, with their ends, and
`Session.untilFailure` counts the lines up to the first that fails.

`run_strict` is the main result. It needs no assumption on the script: a line that is no text ends
either run, so no line after it fails, and nothing after a line that fails is looked at, text or
not. The two runs are compared line by line (`Run.takeLines_strict`).
-/

set_option autoImplicit false

namespace Filestore

namespace Script

open Text

/-- The first lines of a script with their ends, as many as asked for. -/
def firstLines : Nat → Bytes → Bytes
  | 0, _ => []
  | _ + 1, [] => []
  | count + 1, byte :: rest =>
    if byte = 10 then byte :: firstLines count rest else byte :: firstLines (count + 1) rest

section FirstLines

/-- The first lines of a script are the beginning of it, byte for byte. -/
theorem firstLines_isPrefix (count : Nat) (bytes : Bytes) : firstLines count bytes <+: bytes := by
  induction bytes generalizing count with
  | nil => cases count <;> exact List.prefix_rfl
  | cons byte rest ih =>
    cases count with
    | zero => exact List.nil_prefix
    | succ count =>
      rw [firstLines]
      split
      · exact List.prefix_cons_inj byte |>.mpr (ih count)
      · exact List.prefix_cons_inj byte |>.mpr (ih (count + 1))

/-- A script that is not cut to nothing begins with the byte that it began with. -/
theorem head?_firstLines (count : Nat) (bytes : Bytes) :
    (firstLines (count + 1) bytes).head? = bytes.head? := by
  cases bytes with
  | nil => rfl
  | cons byte rest =>
    rw [firstLines]
    split <;> rfl

/-- The first lines of a script are its first lines: cutting the bytes and reading lines is
reading lines and taking the first of them. -/
theorem lines_firstLines (count : Nat) (bytes : Bytes) :
    lines (firstLines count bytes) = (lines bytes).take count := by
  induction bytes generalizing count with
  | nil => cases count <;> rfl
  | cons byte rest ih =>
    cases count with
    | zero => rfl
    | succ count =>
      rw [firstLines]
      split
      · rename_i hfeed
        rw [lines, if_pos hfeed, lines, if_pos hfeed, ih, List.take_succ_cons]
      · rename_i hfeed
        rw [lines, if_neg hfeed, lines, if_neg hfeed, head?_firstLines, ih]
        split
        · rfl
        · cases lines rest <;> simp

end FirstLines

namespace Session

variable {session : Session} {line count : Nat} {raw : Bytes} {rest : List Bytes}

/-- How many lines there are up to the first that fails, itself included, if one fails. The first
line of all has the number `line`. A line that is no text ends every run, so none fails after it. -/
def untilFailure (session : Session) : Nat → List Bytes → Option Nat
  | _, [] => none
  | line, raw :: rest =>
    match Utf8.decode? raw with
    | none => none
    | some text =>
      match session.interpret line text with
      | (.failed _, _) => some 1
      | (_, next) => (next.untilFailure (line + 1) rest).map (· + 1)

/-- A line is no text, or it fails, or it does not. Every comparison of two runs goes by these
cases. -/
theorem line_cases (session : Session) (line : Nat) (raw : Bytes) :
    Utf8.decode? raw = none ∨
      (∃ text failure, Utf8.decode? raw = some text ∧
        (session.interpret line text).1 = .failed failure) ∨
      ∃ text, Utf8.decode? raw = some text ∧
        ∀ failure, (session.interpret line text).1 ≠ .failed failure := by
  cases htext : Utf8.decode? raw with
  | none => exact .inl rfl
  | some text =>
    by_cases hfailed : ∃ failure, (session.interpret line text).1 = .failed failure
    · obtain ⟨failure, hfailed⟩ := hfailed
      exact .inr (.inl ⟨text, failure, rfl, hfailed⟩)
    · exact .inr (.inr ⟨text, rfl, not_exists.mp hfailed⟩)

/-- No line fails from a line on that is no text, because a run takes none after it. -/
theorem untilFailure_of_broken (htext : Utf8.decode? raw = none) :
    session.untilFailure line (raw :: rest) = none := by
  simp only [untilFailure, htext]

/-- A line that fails is the first to fail, seen from itself. -/
theorem untilFailure_of_failed {text : List Char} {failure : Failure}
    (htext : Utf8.decode? raw = some text)
    (hfailed : (session.interpret line text).1 = .failed failure) :
    session.untilFailure line (raw :: rest) = some 1 := by
  generalize hresult : session.interpret line text = result at hfailed
  obtain ⟨result, next⟩ := result
  cases hfailed
  simp only [untilFailure, htext, hresult]

/-- A line that does not fail leaves it to the lines after it, in the session that it leaves. -/
theorem untilFailure_of_passed {text : List Char} (htext : Utf8.decode? raw = some text)
    (hpassed : ∀ failure, (session.interpret line text).1 ≠ .failed failure) :
    session.untilFailure line (raw :: rest)
      = ((session.interpret line text).2.untilFailure (line + 1) rest).map (· + 1) := by
  generalize hresult : session.interpret line text = result at hpassed
  obtain ⟨result, next⟩ := result
  cases result with
  | failed failure => exact absurd rfl (hpassed failure)
  | blank => simp only [untilFailure, htext, hresult]
  | succeeded outcome => simp only [untilFailure, htext, hresult]

/-- Which line is the first to fail does not depend on the lines after it. -/
theorem untilFailure_congr {others : List Bytes}
    (h : session.untilFailure line rest = some count)
    (hsame : others.take count = rest.take count) :
    session.untilFailure line others = some count := by
  induction rest generalizing session line count others with
  | nil => exact nomatch h
  | cons raw rest ih =>
    rcases session.line_cases line raw with
      htext | ⟨text, failure, htext, hfailed⟩ | ⟨text, htext, hpassed⟩
    · rw [untilFailure_of_broken htext] at h
      exact nomatch h
    · rw [untilFailure_of_failed htext hfailed] at h
      obtain rfl := Option.some.inj h
      -- The other script must have this line too, since it agrees on the lines up to the failure.
      cases others with
      | nil => exact nomatch hsame
      | cons other others =>
        rw [(List.cons.inj hsame).1]
        exact untilFailure_of_failed htext hfailed
    · rw [untilFailure_of_passed htext hpassed] at h
      obtain ⟨before, hbefore, rfl⟩ := Option.map_eq_some_iff.mp h
      cases others with
      | nil => exact nomatch hsame
      | cons other others =>
        obtain ⟨rfl, hrest⟩ := List.cons.inj hsame
        rw [untilFailure_of_passed htext hpassed, ih hbefore hrest]
        rfl

end Session

/-- A script up to the first line that fails in the session, or all of it if none does. -/
def cutAtFailure (session : Session) (script : Bytes) : Bytes :=
  (session.untilFailure 1 (lines script)).elim script (firstLines · script)

namespace Run

variable {format : Format} {mode : Mode} {run : Run} {line count : Nat} {raw : Bytes}
  {raws others : List Bytes} {text : List Char} {failure : Failure}

/-- How a line that is text is taken by a run without prompts: what comes of it is noted, and the
run may end with it. -/
theorem takeLine_of_text (htext : Utf8.decode? raw = some text) (hmode : mode.interactive = false) :
    run.takeLine mode line raw =
      if stopsAfter mode (run.session.interpret line text).1 then .ended (run.turn mode line text)
      else .next (run.turn mode line text) := by
  have hprompt : ∀ other : Run, other.prompt mode = other := by
    intro other
    rw [prompt, hmode]
    rfl
  simp only [takeLine, htext, turn, hprompt]

/-- Whether a run goes on after a failure does not matter to what it notes of a line, failed or
not. -/
theorem turn_strict (run : Run) (line : Nat) (text : List Char) :
    run.turn ⟨format, false, false⟩ line text = run.turn ⟨format, true, false⟩ line text := by
  unfold turn
  cases (run.session.interpret line text).1 <;> rfl

/-- A run that goes on takes the next line, whatever came of this one, as long as it is text. -/
theorem takeLine_lenient (htext : Utf8.decode? raw = some text) :
    run.takeLine ⟨format, true, false⟩ line raw
      = .next (run.turn ⟨format, true, false⟩ line text) := by
  rw [takeLine_of_text htext rfl, if_neg]
  cases (run.session.interpret line text).1 <;> exact Bool.false_ne_true

/-- A run that stops at a failure ends with a line that fails, after noting it. -/
theorem takeLine_strict_of_failed (htext : Utf8.decode? raw = some text)
    (hfailed : (run.session.interpret line text).1 = .failed failure) :
    run.takeLine ⟨format, false, false⟩ line raw
      = .ended (run.turn ⟨format, true, false⟩ line text) := by
  rw [takeLine_of_text htext rfl, hfailed, turn_strict]
  rfl

/-- A run that stops at a failure goes on after any other line, and has noted the same. -/
theorem takeLine_strict_of_passed (htext : Utf8.decode? raw = some text)
    (hpassed : ∀ failure, (run.session.interpret line text).1 ≠ .failed failure) :
    run.takeLine ⟨format, false, false⟩ line raw
      = .next (run.turn ⟨format, true, false⟩ line text) := by
  rw [takeLine_of_text htext rfl, turn_strict, if_neg]
  cases hresult : (run.session.interpret line text).1 with
  | failed failure => exact absurd hresult (hpassed failure)
  | blank => exact Bool.false_ne_true
  | succeeded outcome => exact Bool.false_ne_true

/-- A line that is no text breaks a run off in any mode, and the run is left as it was. -/
theorem takeLine_of_broken (htext : Utf8.decode? raw = none) (mode : Mode) (run : Run) :
    run.takeLine mode line raw = .broken (.unreadable line) run := by
  simp only [takeLine, htext]

/-- A run that stops at the first failure takes lines as a run that goes on takes those of them up
to the first that fails. -/
theorem takeLines_strict (format : Format) (line : Nat) (raws : List Bytes) (run : Run) :
    takeLines ⟨format, false, false⟩ line raws run =
      takeLines ⟨format, true, false⟩ line
        ((run.session.untilFailure line raws).elim raws (raws.take ·)) run := by
  induction raws generalizing line run with
  | nil => rfl
  | cons raw rest ih =>
    -- A line is no text, or fails, or passes. Only after the last kind both runs go on.
    rcases run.session.line_cases line raw with
      htext | ⟨text, failure, htext, hfailed⟩ | ⟨text, htext, hpassed⟩
    · rw [Session.untilFailure_of_broken htext, Option.elim_none]
      simp only [takeLines, takeLine_of_broken htext]
    · rw [Session.untilFailure_of_failed htext hfailed, Option.elim_some, List.take_succ_cons]
      simp only [takeLines, takeLine_strict_of_failed htext hfailed, takeLine_lenient htext,
        List.take_zero]
    · rw [Session.untilFailure_of_passed htext hpassed]
      simp only [takeLines, takeLine_strict_of_passed htext hpassed]
      rw [ih, session_turn]
      cases (run.session.interpret line text).2.untilFailure (line + 1) rest with
      | none => simp only [Option.map_none, Option.elim_none, takeLines, takeLine_lenient htext]
      | some count =>
        simp only [Option.map_some, Option.elim_some, List.take_succ_cons, takeLines,
          takeLine_lenient htext]

/-- A run that stops at a failure counts no second one, as it takes no line after it. -/
theorem failed_takeLines_strict (format : Format) (line : Nat) (raws : List Bytes)
    (hstart : run.summary.failed = 0) :
    (takeLines ⟨format, false, false⟩ line raws run).2.summary.failed ≤ 1 := by
  induction raws generalizing line run with
  | nil =>
    rw [takeLines, hstart]
    exact Nat.zero_le 1
  | cons raw rest ih =>
    rcases run.session.line_cases line raw with
      htext | ⟨text, failure, htext, hfailed⟩ | ⟨text, htext, hpassed⟩
    · simp only [takeLines, takeLine_of_broken htext, hstart]
      exact Nat.zero_le 1
    · simp only [takeLines, takeLine_strict_of_failed htext hfailed, failed_turn_of_failed hfailed,
        hstart]
      exact Nat.le_refl 1
    · simp only [takeLines, takeLine_strict_of_passed htext hpassed]
      exact ih _ ((failed_turn_of_passed hpassed _).trans hstart)

/-- Nothing after the first line that fails matters to a run that stops at it: other lines there
give the same run. -/
theorem takeLines_strict_congr (h : run.session.untilFailure line raws = some count)
    (hsame : others.take count = raws.take count) :
    takeLines ⟨format, false, false⟩ line others run
      = takeLines ⟨format, false, false⟩ line raws run := by
  rw [takeLines_strict, takeLines_strict, h, Session.untilFailure_congr h hsame, Option.elim_some,
    Option.elim_some, hsame]

/-- A run that stops at a failure is not broken off: it ends with a line that is text. -/
theorem takeLines_strict_fst (h : run.session.untilFailure line raws = some count) :
    (takeLines ⟨format, false, false⟩ line raws run).1 = none := by
  induction raws generalizing line count run with
  | nil => exact nomatch h
  | cons raw rest ih =>
    rcases run.session.line_cases line raw with
      htext | ⟨text, failure, htext, hfailed⟩ | ⟨text, htext, hpassed⟩
    · rw [Session.untilFailure_of_broken htext] at h
      exact nomatch h
    · simp only [takeLines, takeLine_strict_of_failed htext hfailed]
    · rw [Session.untilFailure_of_passed htext hpassed] at h
      obtain ⟨before, hbefore, -⟩ := Option.map_eq_some_iff.mp h
      simp only [takeLines, takeLine_strict_of_passed htext hpassed]
      refine ih (?_ : _ = some before)
      rw [session_turn]
      exact hbefore

/-- Nothing after a line that breaks a run off matters to the run, in either mode. -/
theorem exists_of_takeLines_broken (hmode : mode.interactive = false)
    (h : (takeLines mode line raws run).1 = some failure) :
    ∃ count, failure = .unreadable (line + count) ∧
      takeLines mode line (raws.take (count + 1)) run = takeLines mode line raws run := by
  induction raws generalizing line run with
  | nil => cases h
  | cons raw rest ih =>
    simp only [takeLines, List.take_succ_cons] at h ⊢
    cases htext : Utf8.decode? raw with
    | none =>
      rw [takeLine_of_broken htext] at h ⊢
      exact ⟨0, (Option.some.inj h).symm, rfl⟩
    | some text =>
      rw [takeLine_of_text htext hmode] at h ⊢
      split at h
      · rename_i hturn
        split at hturn <;> cases hturn
        obtain ⟨count, hfailure, htake⟩ := ih h
        refine ⟨count + 1, by rw [hfailure, Nat.add_right_comm, Nat.add_assoc], ?_⟩
        exact htake
      · cases h
      · rename_i hturn
        split at hturn <;> cases hturn

end Run

section Runs

variable {format : Format} {session : Session} {script : Bytes} {failure : Failure} {number : Nat}

/-- A script that is cut off at its first failure is the beginning of the script, or all of it. -/
theorem cutAtFailure_isPrefix (session : Session) (script : Bytes) :
    cutAtFailure session script <+: script := by
  rw [cutAtFailure]
  cases session.untilFailure 1 (lines script) with
  | none => exact List.prefix_rfl
  | some count => exact firstLines_isPrefix count script

/-- A run that stops at the first failure is one that goes on, with the script cut off after that
line. -/
theorem run_eq_run_cutAtFailure (format : Format) (session : Session) (script : Bytes) :
    run ⟨format, false, false⟩ session script
      = run ⟨format, true, false⟩ session (cutAtFailure session script) := by
  have htake := Run.takeLines_strict format 1 (lines script) (Run.start session)
  refine htake.trans (congrArg (Run.takeLines ⟨format, true, false⟩ 1 · (Run.start session)) ?_)
  rw [cutAtFailure]
  show ((session.untilFailure 1 (lines script)).elim (lines script) fun count =>
    (lines script).take count) = _
  cases session.untilFailure 1 (lines script) with
  | none => rfl
  | some count => exact (lines_firstLines count script).symm

/-- A script that is broken off has no line that fails, so nothing of it is cut off. -/
theorem cutAtFailure_of_broken (h : (run ⟨format, false, false⟩ session script).1 = some failure) :
    cutAtFailure session script = script := by
  rw [cutAtFailure]
  cases hcount : session.untilFailure 1 (lines script) with
  | none => rfl
  | some count =>
    have hend : (run ⟨format, false, false⟩ session script).1 = none :=
      Run.takeLines_strict_fst hcount
    rw [hend] at h
    exact nomatch h

/-- Nothing after the line that breaks a run off matters to the run: the lines up to that one give
the same. -/
theorem run_firstLines_of_broken
    (h : (run ⟨format, true, false⟩ session script).1 = some (.unreadable number)) :
    run ⟨format, true, false⟩ session (firstLines number script)
      = run ⟨format, true, false⟩ session script := by
  obtain ⟨count, hnumber, htake⟩ := Run.exists_of_takeLines_broken rfl h
  obtain rfl : number = 1 + count := Failure.unreadable.inj hnumber
  rw [← lines_firstLines, Nat.add_comm] at htake
  exact htake

end Runs

/-- A run that stops at the first failure does what a run that goes on does with the script up to
the first line that fails: both give the same failure or none, write the same, count the same, and
leave the same session. So at most one line is counted as failed, and the lines after it have no
effect, whatever bytes they are. A line that is no text ends the run that goes on as well, so that
the script may also be cut off after that one. -/
theorem run_strict (format : Format) (session : Session) (script : Bytes) :
    let strict : Mode := ⟨format, false, false⟩
    let lenient : Mode := ⟨format, true, false⟩
    run strict session script = run lenient session (cutAtFailure session script) ∧
      cutAtFailure session script <+: script ∧
      (run strict session script).2.summary.failed ≤ 1 ∧
      (∀ count, session.untilFailure 1 (lines script) = some count →
        ∀ other, firstLines count other = firstLines count script →
          run strict session other = run strict session script) ∧
      ∀ number, (run strict session script).1 = some (.unreadable number) →
        run strict session script = run lenient session (firstLines number script) := by
  intro strict lenient
  have hcut : run strict session script = run lenient session (cutAtFailure session script) :=
    run_eq_run_cutAtFailure format session script
  refine ⟨hcut, cutAtFailure_isPrefix session script,
    Run.failed_takeLines_strict format 1 (lines script) rfl, ?_, ?_⟩
  · intro count hcount other hsame
    refine Run.takeLines_strict_congr hcount ?_
    rw [← lines_firstLines, hsame, lines_firstLines]
  · intro number hbroken
    rw [cutAtFailure_of_broken hbroken] at hcut
    rw [hcut] at hbroken ⊢
    exact (run_firstLines_of_broken hbroken).symm

/-- Two scripts that agree up to a failing line, after which one has a line that is no text. -/
theorem run_strict_unreadable :
    let strict : Mode := ⟨.text, false, false⟩
    let session := Session.start ⟨512, none, by decide, by decide⟩
    let script := Utf8.encode "open a create\r\nclose 5\nls\n".toList
    let other := Utf8.encode "open a create\r\nclose 5\n".toList ++ [255, 10]
    session.untilFailure 1 (lines script) = some 2 ∧
      run strict session other = run strict session script := by
  intro strict session script other
  have hcount : session.untilFailure 1 (lines script) = some 2 := by decide +kernel
  have hsame : firstLines 2 other = firstLines 2 script := by decide +kernel
  -- What the scripts are does not matter any more, and would only be looked into.
  clear_value script other
  obtain ⟨-, -, -, hother, -⟩ := run_strict .text session script
  exact ⟨hcount, hother 2 hcount other hsame⟩

end Script

end Filestore
