import Filestore.Proofs.Json
import Filestore.Proofs.Script.Cut
import Filestore.Proofs.Script.Grammar
import Mathlib.Data.List.Nodup

/-!
# `Filestore.Proofs.Script.Report`: one object for each command

A run that writes JSON writes an object for each line that is neither blank nor a comment: one of
results if the line's command succeeds, one of complaints if the line is no command or its command
fails. `Reported` says what the two streams, the counts and the session have to do with each other
and with the lines, and `run_json` that they do.

What has to be in an object is said here and not taken from what writes it: `outcomeMembers` has
the key and the value for each part of an outcome, with the words for kinds (`kindWord`,
`refusalWord`) and the digits of digests (`hexText`) spelled out, and `complaintObject` the same
for failures. That the writer makes these objects is then a lemma for each (`resultObject_eq`,
`complaintObject_eq`), and that they can be read back from the streams is what `Shows` says.

What a run comes to is kept as a `log` of its lines, each with the session before it. A turn keeps
a run in step with its log (`Tells.turn`), so a whole run is (`Tells.turns`). What holds of the
log alone does not depend on the run: a line either succeeds or fails or asks for nothing
(`Session.interpret_cases`), and the numbers of the lines are those of the script.
-/

set_option autoImplicit false

namespace Filestore

namespace Script

open Text

/-- A line that asks for nothing: it is blank, or a comment. -/
def Idle (text : List Char) : Prop := ∀ c, (trimStart text).head? = some c → c = '#'

/-- A line as a run comes to it. -/
structure Entry where
  /-- The session before the line. -/
  session : Session
  /-- The number of the line. -/
  line : Nat
  /-- The text of the line. -/
  text : List Char

namespace Entry

/-- The outcome of the line's command, if it succeeds. -/
def outcome? (entry : Entry) : Option Outcome :=
  match entry.session.interpret entry.line entry.text with
  | (.succeeded outcome, _) => some outcome
  | _ => none

/-- What goes wrong with the line, if something does. -/
def failure? (entry : Entry) : Option Failure :=
  match entry.session.interpret entry.line entry.text with
  | (.failed failure, _) => some failure
  | _ => none

end Entry

/-- Lines as a run that goes on comes to them. The first has the number `line`. -/
def Session.log (session : Session) : Nat → List (List Char) → List Entry
  | _, [] => []
  | line, text :: rest =>
    ⟨session, line, text⟩ :: (session.interpret line text).2.log (line + 1) rest

/-- The entries that something is picked from, with it. -/
def picked {α : Type} (pick : Entry → Option α) (log : List Entry) : List (Entry × α) :=
  log.filterMap fun entry => (pick entry).map (entry, ·)

/-- The numbers of the lines of entries. -/
def numbers {α : Type} (entries : List (Entry × α)) : List Nat :=
  entries.map fun entry => entry.1.line

section Objects

/-- The word for what a call came to. -/
def kindWord : ErrorKind → String
  | .noError => "no_error"
  | .noSuchFile => "no_such_file"
  | .outOfMemory => "out_of_memory"
  | .fileTooLarge => "file_too_large"

/-- The word for why a command was refused. All that names nothing usable is a missing file. -/
def refusalWord : Error → String
  | .noSuchFile _ | .badDescriptor _ | .invalidConfig _ | .staleHandle _ => "no_such_file"
  | .outOfMemory _ => "out_of_memory"
  | .fileTooLarge _ _ => "file_too_large"

/-- The digits of a hexadecimal number. -/
def hexDigits : List Char :=
  ['0', '1', '2', '3', '4', '5', '6', '7', '8', '9', 'a', 'b', 'c', 'd', 'e', 'f']

/-- Bytes with two digits for each, the high one first. -/
def hexText (bytes : Bytes) : String :=
  String.ofList (bytes.flatMap fun byte =>
    [hexDigits.getD (byte.toNat / 16) '0', hexDigits.getD (byte.toNat % 16) '0'])

/-- What the object for an outcome has to say of it, member by member. -/
def outcomeMembers : Outcome → List Json.Field
  | .opened name fd => [("op", .text "open"), ("name", .text name), ("fd", .nat fd)]
  | .written fd count lastError =>
    [("op", .text "write"), ("fd", .nat fd), ("written", .nat count),
      ("last_error", .text (kindWord lastError))]
  | .read fd data =>
    [("op", .text "read"), ("fd", .nat fd), ("len", .nat data.length),
      ("data", .text (String.ofList (Utf8.decodeLossy data)))]
  | .closed fd => [("op", .text "close"), ("fd", .nat fd)]
  | .deleted name => [("op", .text "delete"), ("name", .text name)]
  | .resized fd size => [("op", .text "resize"), ("fd", .nat fd), ("size", .nat size)]
  | .rewound fd => [("op", .text "rewind"), ("fd", .nat fd)]
  | .stat ⟨name, size, blocks, refs, deleted⟩ =>
    [("op", .text "stat"), ("name", .text name), ("size", .nat size), ("blocks", .nat blocks),
      ("refs", .nat refs), ("deleted", .bool deleted)]
  | .digest fd ⟨hash⟩ =>
    [("op", .text "digest"), ("fd", .nat fd), ("digest", .text (hexText hash))]
  | .names names => [("op", .text "ls"), ("files", .texts names)]
  | .lastError kind => [("op", .text "errno"), ("last_error", .text (kindWord kind))]
  | .destroyed => [("op", .text "destroy")]

/-- The object that has to be written for a command that succeeds. -/
def resultObject (line : Nat) (outcome : Outcome) : List Json.Field :=
  ("success", .bool true) :: ("line", .nat line) :: outcomeMembers outcome

/-- The object that has to be written for a line that fails. It names a kind just if the line was a
command, which was refused then, and the line if there was one to be read. -/
def complaintObject : Failure → List Json.Field
  | .unparsed line cause =>
    [("success", .bool false), ("line", .nat line),
      ("error", .text ("line " ++ toString line ++ ": parse error: " ++ cause.message))]
  | .refused line command cause =>
    [("success", .bool false), ("line", .nat line), ("kind", .text (refusalWord cause)),
      ("error", .text ("line " ++ toString line ++ ": " ++ command ++ ": " ++ cause.message))]
  | .unreadable line =>
    [("success", .bool false),
      ("error", .text ("Failed to read line " ++ toString line
        ++ ": stream did not contain valid UTF-8"))]

end Objects

/-- The objects for the commands that succeed. -/
def results (log : List Entry) : List (List Json.Field) :=
  (picked Entry.outcome? log).map fun (entry, outcome) => resultObject entry.line outcome

/-- The objects for the lines that fail. -/
def complaints (log : List Entry) : List (List Json.Field) :=
  (picked Entry.failure? log).map fun (_, failure) => complaintObject failure

/-- Whether an object names a kind of failure. -/
def hasKind (object : List Json.Field) : Bool := (object.lookup "kind").isSome

/-- The stream consists of lines with their ends, which are the objects in order.

- `ended`: each line has its end.
- `read`: each line is the object in its place. -/
structure Shows (stream : String) (objects : List (List Json.Field)) : Prop where
  ended : ∀ piece ∈ pieces stream.toList, Ended piece
  read : (pieces stream.toList).map (fun piece => Json.readObject piece.dropLast)
    = objects.map some

/-- What a run has written and counted, and what its session has executed since it was new, is what
the log of its lines comes to.

- `out`: there is a result for each command that succeeds, in order.
- `err`: there is a complaint for each line that fails, in order.
- `succeeded`: the commands that succeed are counted.
- `failed`: the lines that fail are counted.
- `distinct`: no object has a key twice.
- `readText`: a text that is read is shown as it is.
- `complaint`: a complaint has the number of its line, and a kind just if the line was a command.
- `resultsAscend`: the numbers of the results ascend.
- `complaintsAscend`: the numbers of the complaints ascend.
- `disjoint`: no line has a result and a complaint.
- `complete`: each line that asks for something has one of them, and no other line has.
- `executed`: the session has executed the commands that succeed and those whose complaint has a
  kind. -/
structure Reported (texts : List (List Char)) (log : List Entry) (run : Run) : Prop where
  out : Shows run.transcript.out (results log)
  err : Shows run.transcript.err (complaints log)
  succeeded : run.summary.succeeded = (results log).length
  failed : run.summary.failed = (complaints log).length
  distinct : ∀ object ∈ results log ++ complaints log, (object.map Prod.fst).Nodup
  readText : ∀ entry fd text,
    (entry, .read fd (Utf8.encode text)) ∈ picked Entry.outcome? log →
      (resultObject entry.line (.read fd (Utf8.encode text))).lookup "data"
        = some (.text (String.ofList text))
  complaint : ∀ entry failure, (entry, failure) ∈ picked Entry.failure? log →
    (complaintObject failure).lookup "success" = some (.bool false) ∧
      (complaintObject failure).lookup "line" = some (.nat entry.line) ∧
      (hasKind (complaintObject failure) = true ↔
        ∃ command, parseLine entry.text = .ok (some command))
  resultsAscend : (numbers (picked Entry.outcome? log)).Pairwise (· < ·)
  complaintsAscend : (numbers (picked Entry.failure? log)).Pairwise (· < ·)
  disjoint : ∀ number ∈ numbers (picked Entry.outcome? log),
    number ∉ numbers (picked Entry.failure? log)
  complete : ∀ number,
    number ∈ numbers (picked Entry.outcome? log) ∨ number ∈ numbers (picked Entry.failure? log) ↔
      ∃ text, (text, number) ∈ texts.zipIdx 1 ∧ ¬ Idle text
  executed : run.session.executed = run.summary.succeeded + (complaints log).countP hasKind

section Idle

variable {text : List Char}

/-- A line asks for nothing just if there is only white space before its first number sign. -/
theorem idle_iff_gap (text : List Char) : Idle text ↔ Gap (code text) := by
  induction text with
  | nil => exact ⟨fun _ _ hc => (nomatch hc), fun _ _ hc => (nomatch hc)⟩
  | cons c rest ih =>
    cases hblank : isBlank c with
    | true =>
      have hc : (c != '#') = true := by
        rw [bne_iff_ne]
        rintro rfl
        exact absurd hblank (by decide)
      have hstart : trimStart (c :: rest) = trimStart rest := List.dropWhile_cons_of_pos hblank
      have hcode : code (c :: rest) = c :: code rest := List.takeWhile_cons_of_pos hc
      rw [Idle, hstart, hcode, Gap, List.forall_mem_cons]
      exact ih.trans (and_iff_right hblank).symm
    | false =>
      have hstart : trimStart (c :: rest) = c :: rest :=
        List.dropWhile_cons_of_neg (by rw [hblank]; exact Bool.false_ne_true)
      rw [Idle, hstart, code, List.takeWhile_cons]
      by_cases hc : c = '#'
      · simp [hc, Gap]
      · simp [hc, Gap, hblank]

/-- A line asks for nothing just if it is read as nothing. A line that begins with `write` never
does. -/
theorem idle_iff_parseLine (text : List Char) : Idle text ↔ parseLine text = .ok none := by
  by_cases hwrite : BeginsWrite text
  · rw [parseLine_eq_ok_iff_writeLine hwrite]
    obtain ⟨rest, hrest⟩ := hwrite
    constructor
    · intro hidle
      exact absurd (hidle 'w' (hrest ▸ rfl)) (by decide)
    · rintro ⟨_, _, -, hnone⟩
      exact nomatch hnone
  · rw [parseLine_eq_none_iff hwrite, idle_iff_gap]
    refine ⟨words_gap, fun hwords => ?_⟩
    obtain ⟨gap, hgap, hcode⟩ := exists_trimStart (code text)
    rw [trimStart_eq_nil hwords, List.append_nil] at hcode
    rwa [hcode]

end Idle

namespace Session

/-- A line is read as nothing, or as no command, or as a command that succeeds or fails. Only a
command is counted by the session, whatever comes of it. -/
theorem interpret_cases (session : Session) (line : Nat) (text : List Char) :
    (parseLine text = .ok none ∧ session.interpret line text = (.blank, session)) ∨
      (∃ cause, parseLine text = .error cause ∧
        session.interpret line text = (.failed (.unparsed line cause), session)) ∨
      ∃ command next, parseLine text = .ok (some command) ∧
        next.executed = session.executed + 1 ∧
        ((∃ outcome, session.interpret line text = (.succeeded outcome, next)) ∨
          ∃ cause, session.interpret line text
            = (.failed (.refused line (String.ofList (trim text)) cause), next)) := by
  unfold interpret
  cases hparse : parseLine text with
  | error cause => exact .inr (.inl ⟨cause, rfl, rfl⟩)
  | ok parsed =>
    cases parsed with
    | none => exact .inl ⟨rfl, rfl⟩
    | some command =>
      have hcount : (session.execute command).2.executed = session.executed + 1 := rfl
      cases hexecute : session.execute command with
      | mk result next =>
        rw [hexecute] at hcount
        refine .inr (.inr ⟨command, next, rfl, hcount, ?_⟩)
        cases result with
        | error cause => exact .inr ⟨cause, by simp only [hexecute]⟩
        | ok outcome => exact .inl ⟨outcome, by simp only [hexecute]⟩

end Session

section Log

variable {α : Type} {pick : Entry → Option α} {entry : Entry} {value : α} {log : List Entry}
  {number : Nat}

/-- What is picked with an entry is picked from that entry, which is in the log. -/
theorem mem_picked : (entry, value) ∈ picked pick log ↔ entry ∈ log ∧ pick entry = some value := by
  simp only [picked, List.mem_filterMap, Option.map_eq_some_iff, Prod.mk.injEq]
  constructor
  · rintro ⟨_, hmem, _, hpick, rfl, rfl⟩
    exact ⟨hmem, hpick⟩
  · rintro ⟨hmem, hpick⟩
    exact ⟨entry, hmem, value, hpick, rfl, rfl⟩

/-- A number is among those of the entries picked just if something is picked from an entry of
that number. -/
theorem mem_numbers_picked :
    number ∈ numbers (picked pick log) ↔
      ∃ entry ∈ log, (pick entry).isSome ∧ entry.line = number := by
  simp only [numbers, List.mem_map, Prod.exists, mem_picked, Option.isSome_iff_exists]
  constructor
  · rintro ⟨entry, value, ⟨hmem, hpick⟩, hline⟩
    exact ⟨entry, hmem, ⟨value, hpick⟩, hline⟩
  · rintro ⟨entry, hmem, ⟨value, hpick⟩, hline⟩
    exact ⟨entry, value, ⟨hmem, hpick⟩, hline⟩

/-- An entry that something is picked from comes last, if it comes last in the log. -/
theorem picked_concat_of_some (h : pick entry = some value) :
    picked pick (log ++ [entry]) = picked pick log ++ [(entry, value)] := by
  simp [picked, h]

/-- An entry that nothing is picked from does not matter. -/
theorem picked_concat_of_none (h : pick entry = none) :
    picked pick (log ++ [entry]) = picked pick log := by
  simp [picked, h]

/-- Entries are picked in the order of the log, so their numbers are some of those of the log. -/
theorem numbers_picked_sublist (pick : Entry → Option α) (log : List Entry) :
    List.Sublist (numbers (picked pick log)) (log.map Entry.line) := by
  induction log with
  | nil => exact .slnil
  | cons entry log ih =>
    cases hpick : pick entry with
    | none => simpa [picked, hpick] using ih.cons entry.line
    | some value => simpa [picked, hpick, numbers] using ih.cons_cons entry.line

/-- The log has the lines with their numbers, one entry for each line. -/
theorem log_zipIdx (session : Session) (line : Nat) (texts : List (List Char)) :
    (session.log line texts).map (fun entry => (entry.text, entry.line)) = texts.zipIdx line := by
  induction texts generalizing session line with
  | nil => rfl
  | cons text texts ih => simp only [Session.log, List.map_cons, List.zipIdx_cons, ih]

/-- The numbers in a log ascend by one, from the number of its first line. -/
theorem log_line (session : Session) (line : Nat) (texts : List (List Char)) :
    (session.log line texts).map Entry.line = List.range' line texts.length := by
  rw [← List.zipIdx_map_snd, ← log_zipIdx session, List.map_map]
  rfl

/-- No two lines have the same number, so an entry is known by its number. -/
theorem log_inj {session : Session} {line : Nat} {texts : List (List Char)} {other : Entry}
    (h : entry ∈ session.log line texts) (hother : other ∈ session.log line texts)
    (hline : entry.line = other.line) : entry = other := by
  have hnodup : ((session.log line texts).map Entry.line).Nodup := by
    rw [log_line]
    exact List.nodup_range'
  exact List.inj_on_of_nodup_map hnodup h hother hline

/-- The numbers of the entries that something is picked from ascend. -/
theorem numbers_ascend (pick : Entry → Option α) (session : Session) (line : Nat)
    (texts : List (List Char)) :
    (numbers (picked pick (session.log line texts))).Pairwise (· < ·) := by
  refine List.Pairwise.sublist (numbers_picked_sublist pick _) ?_
  rw [log_line]
  exact List.pairwise_lt_range'

end Log

namespace Entry

variable {entry : Entry} {failure : Failure}

/-- A line that asks for something succeeds or fails, and one that asks for nothing does neither. -/
theorem isSome_iff (entry : Entry) :
    entry.outcome?.isSome ∨ entry.failure?.isSome ↔ ¬ Idle entry.text := by
  rw [idle_iff_parseLine]
  rcases entry.session.interpret_cases entry.line entry.text with
    ⟨hparse, hresult⟩ | ⟨cause, hparse, hresult⟩ |
      ⟨command, next, hparse, -, ⟨outcome, hresult⟩ | ⟨cause, hresult⟩⟩ <;>
    simp [outcome?, failure?, hparse, hresult]

/-- No line succeeds and fails, so none has an object in both streams. -/
theorem failure?_eq_none (h : entry.outcome?.isSome) : entry.failure? = none := by
  rcases entry.session.interpret_cases entry.line entry.text with
    ⟨-, hresult⟩ | ⟨cause, -, hresult⟩ |
      ⟨command, next, -, -, ⟨outcome, hresult⟩ | ⟨cause, hresult⟩⟩ <;>
    simp [outcome?, failure?, hresult] at h ⊢

/-- A line that fails is no command, or the store refuses its command. A line that is no text is
not in the log. -/
theorem failure?_cases (h : entry.failure? = some failure) :
    (∃ cause, parseLine entry.text = .error cause ∧ failure = .unparsed entry.line cause) ∨
      ∃ command text cause, parseLine entry.text = .ok (some command) ∧
        failure = .refused entry.line text cause := by
  rcases entry.session.interpret_cases entry.line entry.text with
    ⟨-, hresult⟩ | ⟨cause, hparse, hresult⟩ |
      ⟨command, next, hparse, -, ⟨outcome, hresult⟩ | ⟨cause, hresult⟩⟩ <;>
    simp only [failure?, hresult, reduceCtorEq, Option.some.injEq] at h
  · exact .inl ⟨cause, hparse, h.symm⟩
  · exact .inr ⟨command, _, cause, hparse, h.symm⟩

end Entry

section Written

variable {log : List Entry} {entry : Entry} {failure : Failure}

/-- A digit of a hexadecimal number is written as it has to be, for each of the sixteen. -/
theorem hexDigits_getD {digit : Nat} (h : digit < 16) :
    hexDigits.getD digit '0' = Nat.digitChar digit := by
  have hall : ∀ digit < 16, hexDigits.getD digit '0' = Nat.digitChar digit := by decide
  exact hall digit h

/-- A digest is written in the digits that it has to be: two for each byte, in lower case. -/
theorem hexText_eq (bytes : Bytes) : hexText bytes = bytes.toHex := by
  rw [hexText, Bytes.toHex]
  refine congrArg (fun pair => String.ofList (bytes.flatMap pair)) (funext fun byte => ?_)
  have hbyte := byte.toNat_lt
  rw [hexDigits_getD (by omega), hexDigits_getD (by omega)]
  rfl

/-- The word for a kind is written as it has to be, for each of the four kinds. -/
theorem kindWord_eq (kind : ErrorKind) : kindWord kind = kind.label := by cases kind <;> rfl

/-- A refusal is written with the word that it has to be, for each of the six causes. -/
theorem refusalWord_eq (cause : Error) : refusalWord cause = cause.kind.label := by
  cases cause <;> rfl

/-- A result is written as the object that it has to be: the members that are spelled out for its
outcome, and no others. -/
theorem resultObject_eq (line : Nat) (outcome : Outcome) :
    resultObject line outcome = outcome.lineFields line := by
  cases outcome <;>
    simp only [resultObject, outcomeMembers, kindWord_eq, hexText_eq, Outcome.lineFields,
      Outcome.fields, Outcome.readable, Digest.toHex, List.cons_append, List.nil_append]

/-- A complaint is written as the object that it has to be, without the members that do not
apply. -/
theorem complaintObject_eq (failure : Failure) :
    complaintObject failure = failure.complaint.fields := by
  cases failure <;> simp only [complaintObject, refusalWord_eq] <;> rfl

/-- No object for a result has a key twice: the members of an outcome are not called as those that
stand before them. -/
theorem nodup_resultObject (line : Nat) (outcome : Outcome) :
    ((resultObject line outcome).map Prod.fst).Nodup := by
  cases outcome <;> simp [resultObject, outcomeMembers]

/-- No object for a complaint has a key twice, for any of the three kinds of failures. -/
theorem nodup_complaintObject (failure : Failure) :
    ((complaintObject failure).map Prod.fst).Nodup := by
  cases failure <;> simp [complaintObject]

/-- No object that is written has a key twice, in either stream. -/
theorem nodup_of_mem (object : List Json.Field) (h : object ∈ results log ++ complaints log) :
    (object.map Prod.fst).Nodup := by
  rcases List.mem_append.mp h with h | h
  · obtain ⟨⟨entry, outcome⟩, -, rfl⟩ := List.mem_map.mp h
    exact nodup_resultObject entry.line outcome
  · obtain ⟨⟨entry, failure⟩, -, rfl⟩ := List.mem_map.mp h
    exact nodup_complaintObject failure

/-- A text that is read is shown as it is, since nothing of it is lost in decoding. -/
theorem lookup_data (line fd : Nat) (text : List Char) :
    (resultObject line (.read fd (Utf8.encode text))).lookup "data"
      = some (.text (String.ofList text)) := by
  rw [resultObject, outcomeMembers, Utf8.decodeLossy_encode]
  rfl

/-- A complaint has the number of its line, and a kind just if the line was a command. A complaint
without a kind is therefore one about a line that is no command. -/
theorem lookup_complaint (h : entry.failure? = some failure) :
    (complaintObject failure).lookup "success" = some (.bool false) ∧
      (complaintObject failure).lookup "line" = some (.nat entry.line) ∧
      (hasKind (complaintObject failure) = true ↔
        ∃ command, parseLine entry.text = .ok (some command)) := by
  rcases entry.failure?_cases h with ⟨cause, hparse, rfl⟩ | ⟨command, text, cause, hparse, rfl⟩
  · have hkind : hasKind (complaintObject (.unparsed entry.line cause)) = false := rfl
    refine ⟨rfl, rfl, ?_⟩
    simp [hkind, hparse]
  · have hkind : hasKind (complaintObject (.refused entry.line text cause)) = true := rfl
    refine ⟨rfl, rfl, ?_⟩
    simp [hkind, hparse]

/-- A line whose command does not succeed adds no result, be it no command or one that fails. -/
theorem results_concat_of_none (h : entry.outcome? = none) :
    results (log ++ [entry]) = results log := by
  rw [results, picked_concat_of_none h, results]

/-- A command that succeeds adds its result at the end, as it is written, and changes none before
it. -/
theorem results_concat_of_some {outcome : Outcome} (h : entry.outcome? = some outcome) :
    results (log ++ [entry]) = results log ++ [outcome.lineFields entry.line] := by
  rw [results, picked_concat_of_some h, List.map_append, ← resultObject_eq]
  rfl

/-- A line that does not fail adds no complaint, be it blank or a command that succeeds. -/
theorem complaints_concat_of_none (h : entry.failure? = none) :
    complaints (log ++ [entry]) = complaints log := by
  rw [complaints, picked_concat_of_none h, complaints]

/-- A line that fails adds its complaint at the end, as it is written, and changes none before
it. -/
theorem complaints_concat_of_some (h : entry.failure? = some failure) :
    complaints (log ++ [entry]) = complaints log ++ [failure.complaint.fields] := by
  rw [complaints, picked_concat_of_some h, List.map_append, ← complaintObject_eq]
  rfl

end Written

section Streams

/-- An object as a line of a stream. -/
def objectLine (object : List Json.Field) : List Char := (Json.object object).toList ++ ['\n']

/-- A stream of objects has one line for each of them, because none has a line feed in it. -/
theorem pieces_flatMap_objectLine (objects : List (List Json.Field)) :
    pieces (objects.flatMap objectLine) = objects.map objectLine := by
  induction objects with
  | nil => rfl
  | cons object objects ih =>
    rw [List.flatMap_cons, List.map_cons, ← ih]
    exact pieces_append_of_ended ⟨_, rfl, Json.newline_not_mem_object object⟩ _

/-- A stream of objects shows them: each of its lines is read back as the object written there. -/
theorem shows_of_toList {stream : String} {objects : List (List Json.Field)}
    (h : stream.toList = objects.flatMap objectLine) : Shows stream objects where
  ended := by
    rw [h, pieces_flatMap_objectLine]
    exact List.forall_mem_map.mpr fun object _ => ⟨_, rfl, Json.newline_not_mem_object object⟩
  read := by
    rw [h, pieces_flatMap_objectLine, List.map_map]
    refine List.map_congr_left fun object _ => ?_
    show Json.readObject (objectLine object).dropLast = some object
    rw [objectLine, List.dropLast_concat, Json.readObject_object]

end Streams

/-- The run is in step with its log: what it has written and counted, and what its session has
executed, is what the log comes to.

- `out`: the results are written.
- `err`: the complaints are written.
- `succeeded`: the results are counted.
- `failed`: the complaints are counted.
- `executed`: what was executed has a result, or a complaint with a kind. -/
structure Tells (log : List Entry) (run : Run) : Prop where
  out : run.transcript.out.toList = (results log).flatMap objectLine
  err : run.transcript.err.toList = (complaints log).flatMap objectLine
  succeeded : run.summary.succeeded = (results log).length
  failed : run.summary.failed = (complaints log).length
  executed : run.session.executed = run.summary.succeeded + (complaints log).countP hasKind

namespace Tells

variable {log : List Entry} {entry : Entry} {run : Run} {next : Session} {line : Nat}
  {text : List Char} {failure : Failure}

/-- How a run without prompts stands after a line: what came of the line is noted, and nothing
else. -/
theorem turn_eq {result : LineResult} {keepGoing : Bool}
    (hresult : run.session.interpret line text = (result, next)) :
    run.turn ⟨.json, keepGoing, false⟩ line text
      = ({ run with session := next } : Run).note ⟨.json, keepGoing, false⟩ line result := by
  simp only [Run.turn, hresult]
  rfl

/-- A line that asks for nothing adds nothing to either, the run or what its log comes to. -/
theorem concat_idle (h : Tells log run) (hout : entry.outcome? = none)
    (herr : entry.failure? = none) : Tells (log ++ [entry]) run := by
  constructor
  all_goals simp only [results_concat_of_none hout, complaints_concat_of_none herr]
  exacts [h.out, h.err, h.succeeded, h.failed, h.executed]

/-- A command that succeeds adds a result to both: written, counted, and executed. -/
theorem concat_succeeded {outcome : Outcome} (h : Tells log run)
    (hout : entry.outcome? = some outcome) (herr : entry.failure? = none)
    (hcount : next.executed = run.session.executed + 1) :
    Tells (log ++ [entry]) (({ run with session := next } : Run).note ⟨.json, true, false⟩
      entry.line (.succeeded outcome)) := by
  constructor
  all_goals simp only [results_concat_of_some hout, complaints_concat_of_none herr, Run.note]
  · rw [Transcript.writeOutcome, String.toList_append, h.out, List.flatMap_append,
      List.flatMap_singleton, objectLine, Outcome.render, String.toList_append]
    rfl
  · exact h.err
  · rw [h.succeeded, List.length_append]
    rfl
  · exact h.failed
  · rw [hcount, h.executed, Nat.add_right_comm]

/-- A line that fails adds a complaint to both. It was executed just if the complaint names a
kind. -/
theorem concat_failed (h : Tells log run) (hout : entry.outcome? = none)
    (herr : entry.failure? = some failure)
    (hcount : next.executed
      = run.session.executed + if hasKind failure.complaint.fields then 1 else 0) :
    Tells (log ++ [entry]) (({ run with session := next } : Run).note ⟨.json, true, false⟩
      entry.line (.failed failure)) := by
  constructor
  all_goals simp only [results_concat_of_none hout, complaints_concat_of_some herr, Run.note]
  · exact h.out
  · rw [Transcript.writeComplaint, String.toList_append, h.err, List.flatMap_append,
      List.flatMap_singleton, objectLine, Complaint.render, String.toList_append]
    rfl
  · exact h.succeeded
  · rw [h.failed, List.length_append]
    rfl
  · rw [hcount, h.executed, List.countP_append, List.countP_singleton, Nat.add_assoc]

/-- A turn keeps a run in step with its log, whatever comes of the line. This is the step of the
induction. -/
theorem turn (h : Tells log run) (line : Nat) (text : List Char) :
    Tells (log ++ [⟨run.session, line, text⟩]) (run.turn ⟨.json, true, false⟩ line text) := by
  rcases run.session.interpret_cases line text with
    ⟨-, hresult⟩ | ⟨cause, -, hresult⟩ |
      ⟨command, next, -, hcount, ⟨outcome, hresult⟩ | ⟨cause, hresult⟩⟩
  -- In each case the log grows by an entry with a result, one with a complaint, or one with
  -- neither.
  all_goals rw [turn_eq hresult]
  · have hout : Entry.outcome? ⟨run.session, line, text⟩ = none := by
      simp only [Entry.outcome?, hresult]
    have herr : Entry.failure? ⟨run.session, line, text⟩ = none := by
      simp only [Entry.failure?, hresult]
    exact h.concat_idle hout herr
  · have hout : Entry.outcome? ⟨run.session, line, text⟩ = none := by
      simp only [Entry.outcome?, hresult]
    have herr : Entry.failure? ⟨run.session, line, text⟩ = some (.unparsed line cause) := by
      simp only [Entry.failure?, hresult]
    exact h.concat_failed hout herr rfl
  · have hout : Entry.outcome? ⟨run.session, line, text⟩ = some outcome := by
      simp only [Entry.outcome?, hresult]
    have herr : Entry.failure? ⟨run.session, line, text⟩ = none := by
      simp only [Entry.failure?, hresult]
    exact h.concat_succeeded hout herr hcount
  · have hout : Entry.outcome? ⟨run.session, line, text⟩ = none := by
      simp only [Entry.outcome?, hresult]
    have herr : Entry.failure? ⟨run.session, line, text⟩
        = some (.refused line (String.ofList (trim text)) cause) := by
      simp only [Entry.failure?, hresult]
    exact h.concat_failed hout herr hcount

/-- A run that goes on stays in step with its log, by induction over the lines. -/
theorem turns (h : Tells log run) (line : Nat) (texts : List (List Char)) :
    Tells (log ++ run.session.log line texts) (Run.turns ⟨.json, true, false⟩ line texts run) := by
  induction texts generalizing log run line with
  | nil => rwa [Session.log, List.append_nil]
  | cons text texts ih =>
    have hrest := ih (h.turn line text) (line + 1)
    rwa [Run.session_turn, List.append_assoc] at hrest

/-- A run is in step with an empty log before its first line. -/
theorem start (config : Config) : Tells [] (Run.start (Session.start config)) :=
  ⟨rfl, rfl, rfl, rfl, rfl⟩

end Tells

/-- What is in step with the log of its lines is reported. This is where the streams are read
back. -/
theorem Tells.reported {session : Session} {texts : List (List Char)} {run : Run}
    (h : Tells (session.log 1 texts) run) :
    Reported texts (session.log 1 texts) run where
  out := shows_of_toList h.out
  err := shows_of_toList h.err
  succeeded := h.succeeded
  failed := h.failed
  distinct := nodup_of_mem
  readText entry fd text _ := lookup_data entry.line fd text
  complaint _ _ hmem := lookup_complaint (mem_picked.mp hmem).2
  resultsAscend := numbers_ascend _ session 1 texts
  complaintsAscend := numbers_ascend _ session 1 texts
  disjoint := by
    simp only [mem_numbers_picked]
    -- Entries with one number are one entry, and an entry has not both a result and a complaint.
    rintro number ⟨entry, hmem, hout, rfl⟩ ⟨other, hother, herr, hline⟩
    obtain rfl := log_inj hmem hother hline.symm
    rw [entry.failure?_eq_none hout] at herr
    exact Bool.noConfusion herr
  complete number := by
    simp only [mem_numbers_picked, ← log_zipIdx session, List.mem_map, Prod.mk.injEq,
      ← exists_or, ← and_or_left, ← or_and_right, Entry.isSome_iff]
    constructor
    · rintro ⟨entry, hmem, hask, hline⟩
      exact ⟨entry.text, ⟨entry, hmem, rfl, hline⟩, hask⟩
    · rintro ⟨text, ⟨entry, hmem, rfl, hline⟩, hask⟩
      exact ⟨entry, hmem, hask, hline⟩
  executed := h.executed

/-- A run that goes on takes all lines of a script, if no line breaks it off. They are all text
then. -/
theorem Run.takeLines_lenient {format : Format} {line : Nat} {raws : List Bytes} {run : Run}
    (h : (takeLines ⟨format, true, false⟩ line raws run).1 = none) :
    ∃ texts, raws.map Utf8.decode? = texts.map some ∧
      (takeLines ⟨format, true, false⟩ line raws run).2
        = turns ⟨format, true, false⟩ line texts run := by
  induction raws generalizing line run with
  | nil => exact ⟨[], rfl, rfl⟩
  | cons raw raws ih =>
    cases htext : Utf8.decode? raw with
    | none =>
      simp only [takeLines, takeLine_of_broken htext] at h
      cases h
    | some text =>
      simp only [takeLines, takeLine_lenient htext] at h ⊢
      obtain ⟨texts, htexts, hturns⟩ := ih h
      exact ⟨text :: texts, by rw [List.map_cons, List.map_cons, htext, htexts], hturns⟩

/-- A run that writes JSON and is not broken off writes one object for each line that is neither
blank nor a comment, among the lines that it comes to: all lines of the script, or those up to the
first that fails. -/
theorem run_json (config : Config) (keepGoing : Bool) (script : Bytes)
    (hend : (run ⟨.json, keepGoing, false⟩ (Session.start config) script).1 = none) :
    let session := Session.start config
    let reached := if keepGoing then script else cutAtFailure session script
    ∃ texts, (lines reached).map Utf8.decode? = texts.map some ∧
      Reported texts (session.log 1 texts) (run ⟨.json, keepGoing, false⟩ session script).2 := by
  intro session reached
  have hrun : run ⟨.json, keepGoing, false⟩ session script
      = run ⟨.json, true, false⟩ session reached := by
    cases keepGoing with
    | true => rfl
    | false => exact run_eq_run_cutAtFailure .json session script
  rw [hrun] at hend ⊢
  obtain ⟨texts, htexts, hturns⟩ := Run.takeLines_lenient hend
  have htells := (Tells.start config).turns 1 texts
  exact ⟨texts, htexts, hturns ▸ htells.reported⟩

/-- A script with commands that succeed, one that fails, a line that is no command and lines that
ask for nothing, and with a quote and a backslash as data. -/
theorem run_json_mixed :
    let mode : Mode := ⟨.json, true, false⟩
    let session := Session.start ⟨512, none, by decide, by decide⟩
    let script := Utf8.encode
      "open a create\nwrite 0 \"\\\n\nrewind 0\nread 0 9\nclose 5\n# none\nbogus\n".toList
    let texts := ["open a create", "write 0 \"\\", "", "rewind 0", "read 0 9", "close 5", "# none",
      "bogus"].map String.toList
    (run mode session script).1 = none ∧ (run mode session script).2.summary = ⟨4, 2⟩ ∧
      results (session.log 1 texts) =
        [[("success", .bool true), ("line", .nat 1), ("op", .text "open"), ("name", .text "a"),
            ("fd", .nat 0)],
          [("success", .bool true), ("line", .nat 2), ("op", .text "write"), ("fd", .nat 0),
            ("written", .nat 2), ("last_error", .text "no_error")],
          [("success", .bool true), ("line", .nat 4), ("op", .text "rewind"), ("fd", .nat 0)],
          [("success", .bool true), ("line", .nat 5), ("op", .text "read"), ("fd", .nat 0),
            ("len", .nat 2), ("data", .text "\"\\")]] ∧
      complaints (session.log 1 texts) =
        [[("success", .bool false), ("line", .nat 6), ("kind", .text "no_such_file"),
            ("error", .text "line 6: close 5: Bad file descriptor: 5")],
          [("success", .bool false), ("line", .nat 8),
            ("error", .text "line 8: parse error: Unknown command: bogus")]] ∧
      Reported texts (session.log 1 texts) (run mode session script).2 := by
  intro mode session script texts
  have hend : (run mode session script).1 = none := by decide +kernel
  have hsummary : (run mode session script).2.summary = ⟨4, 2⟩ := by decide +kernel
  have htexts : (lines script).map Utf8.decode? = texts.map some := by decide +kernel
  refine ⟨hend, hsummary, by decide +kernel, by decide +kernel, ?_⟩
  -- What the script is does not matter any more, and would only be looked into.
  clear_value script
  obtain ⟨found, hfound, hreported⟩ := run_json _ true script hend
  have hsame : found = texts :=
    List.map_injective_iff.mpr (fun _ _ => Option.some.inj) (hfound.symm.trans htexts)
  exact hsame ▸ hreported

end Script

end Filestore
