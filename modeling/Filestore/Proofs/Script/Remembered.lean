import Filestore.Proofs.Script.Session

/-!
# `Filestore.Proofs.Script.Remembered`: what `errno` tells

A store remembers how the latest call ended, in one field that every operation sets for itself. The
commands `ls` and `errno` only look at the store (`Command.looks`); every other command leaves there
what came of it, as `Command.kindOf` reads it off the result.

`remembered_truthful` is the main result. Whatever commands were executed before, a command is
counted, and it is remembered for what came of it (`Truthful`): a failure by its kind, a write or a
fill by whether all the bytes are in, anything else as a success. Therefore `errno` tells what came
of the most recent command that did more than look, however many commands have looked since.
-/

set_option autoImplicit false

namespace Filestore

namespace Store

/-- The outcome of a call that remembers its result. -/
def Recorded {α : Type} (outcome : Except Error α × Store) : Prop :=
  outcome.2.lastError = resultKind outcome.1

-- All calls but writes end in `Store.conclude`, on whatever path.

/-- An opening is remembered for its result, whether the file was there, was created, or is
missing. -/
theorem openFile_recorded (store : Store) (name : String) (create : Bool) :
    Recorded (store.openFile name create) := by
  unfold Store.openFile
  split
  · rfl
  · dsimp only
    split <;> rfl

/-- A read is remembered for its result; the end of the file is none to fail at. -/
theorem read_recorded (store : Store) (fd want : Nat) : Recorded (store.read fd want) := by
  unfold Store.read
  split <;> rfl

/-- A read into a buffer of the store's choice is remembered for its result, refused or not. -/
theorem readUpTo_recorded (store : Store) (fd most : Nat) : Recorded (store.readUpTo fd most) := by
  unfold Store.readUpTo
  split
  · rfl
  · dsimp only
    split
    · exact read_recorded store fd _
    · rfl

/-- A closing is remembered for its result, whether the file goes with it or not. -/
theorem close_recorded (store : Store) (fd : Nat) : Recorded (store.close fd) := by
  unfold Store.close
  split
  · rfl
  · dsimp only
    split
    · rfl
    · split <;> rfl

/-- A deletion is remembered for its result, whether the file goes at once or later. -/
theorem delete_recorded (store : Store) (name : String) : Recorded (store.delete name) := by
  unfold Store.delete
  split
  · rfl
  · dsimp only
    split
    · rfl
    · split <;> rfl

/-- A cut is remembered for its result, which is a success wherever the file lies as it should. -/
theorem shorten_recorded (store : Store) (id : FileId) (file : File) (size : Nat) :
    Recorded (store.shorten id file size) := by
  unfold Store.shorten
  dsimp only
  split <;> rfl

/-- A resizing is remembered for its result, by appending, by cutting, or refused at the limit. -/
theorem resize_recorded (store : Store) (fd size : Nat) : Recorded (store.resize fd size) := by
  unfold Store.resize
  split
  · rfl
  · split
    · split
      · rfl
      · exact shorten_recorded store _ _ _
    · rfl

/-- A rewinding is remembered for its result, and fails only for a number that is not in use. -/
theorem rewind_recorded (store : Store) (fd : Nat) : Recorded (store.rewind fd) := by
  unfold Store.rewind
  split <;> rfl

/-- A question for the statistics by name is remembered for its result. -/
theorem stat_recorded (store : Store) (name : String) : Recorded (store.stat name) := by
  unfold Store.stat
  split <;> rfl

/-- What ends in `Store.conclude` is remembered for its result, by definition. -/
theorem conclude_recorded {α : Type} (store : Store) (result : Except Error α) :
    Recorded (store.conclude result) := rfl

/-- What is made of a result is a success only if the result is one, and is made of its value. -/
private theorem exists_of_map_eq_ok {α β : Type} {result : Except Error α} {f : α → β} {value : β}
    (h : result.map f = .ok value) : ∃ inner, result = .ok inner ∧ f inner = value := by
  cases result with
  | error e => cases h
  | ok inner => exact ⟨inner, rfl, Except.ok.inj h⟩

/-- A success is remembered as one, whatever is made of its result. -/
theorem Recorded.lastError_eq {α β : Type} {outcome : Except Error α × Store}
    (h : Recorded outcome) {f : α → β} {value : β}
    (hok : (outcome.map (·.map f) id).1 = .ok value) :
    (outcome.map (·.map f) id).2.lastError = .noError := by
  obtain ⟨inner, hinner, -⟩ := exists_of_map_eq_ok hok
  exact h.trans (congrArg resultKind hinner)

end Store

namespace Script

/-- What came of a command with the given result: the kind of its failure, or what a write or fill
says is remembered of it, or success. -/
def Command.kindOf (command : Command) : Except Error Outcome → ErrorKind
  | .error e => e.kind
  | .ok outcome =>
    match command, outcome with
    | .write _ _, .written _ _ kind => kind
    | .fill _ _ _, .written _ _ kind => kind
    | _, _ => .noError

/-- A command with the result `result` is remembered for what came of it, where `before` was
remembered when it began and `after` when it ended. -/
def Truthful (command : Command) (before : ErrorKind) (result : Except Error Outcome)
    (after : ErrorKind) : Prop :=
  match result with
  | .error e => after = e.kind
  | .ok outcome =>
    match command with
    | .write fd data =>
      ∃ count, outcome = .written fd count after ∧ Accounted count data.length after
    | .fill fd len _ => ∃ count, outcome = .written fd count after ∧ Accounted count len after
    | .list => after = before
    | .lastError => after = before ∧ outcome = .lastError before
    | _ => after = .noError

/-- What is remembered of a command that does more than look can be read off its result. So what a
caller has seen is enough to know what `errno` will tell. -/
theorem Truthful.eq_kindOf {command : Command} {before after : ErrorKind}
    {result : Except Error Outcome} (h : Truthful command before result after)
    (hlooks : command.looks = false) : after = command.kindOf result := by
  cases result with
  | error e => exact h
  | ok outcome =>
    cases command with
    | write fd data =>
      obtain ⟨count, rfl, -⟩ := h
      rfl
    | fill fd len byte =>
      obtain ⟨count, rfl, -⟩ := h
      rfl
    | list => cases hlooks
    | lastError => cases hlooks
    | _ => exact h

namespace Session

variable {store : Store} {session : Session}

/-- A command on a sound store is remembered for what came of it, one case for each command. -/
theorem executeOn_truthful (h : store.Sound) (command : Command) :
    Truthful command store.lastError (executeOn store command).1
      (executeOn store command).2.lastError := by
  cases hresult : (executeOn store command).1 with
  | error e => exact congrArg Store.lastError (executeOn_atomic h command e hresult)
  | ok outcome =>
    cases command with
    | openFile name create => exact (store.openFile_recorded name create).lastError_eq hresult
    | write fd data =>
      obtain ⟨count, hwrite, rfl⟩ := Store.exists_of_map_eq_ok hresult
      exact ⟨count, rfl, h.write_accounted hwrite⟩
    | fill fd len byte =>
      obtain ⟨count, hfill, rfl⟩ := Store.exists_of_map_eq_ok hresult
      exact ⟨count, rfl, h.fill_accounted hfill⟩
    | read fd most => exact (store.readUpTo_recorded fd most).lastError_eq hresult
    | close fd => exact (store.close_recorded fd).lastError_eq hresult
    | delete name => exact (store.delete_recorded name).lastError_eq hresult
    | resize fd size => exact (store.resize_recorded fd size).lastError_eq hresult
    | rewind fd => exact (store.rewind_recorded fd).lastError_eq hresult
    | stat name => exact (store.stat_recorded name).lastError_eq hresult
    | statOpen fd => exact (store.conclude_recorded _).lastError_eq hresult
    | digest fd => exact (store.conclude_recorded _).lastError_eq hresult
    | list => rfl
    | lastError =>
      cases hresult
      exact ⟨rfl, rfl⟩
    | destroy => rfl

/-- What came of the most recent command that did more than look, and `before` if none did. -/
def latest (before : ErrorKind) (entries : List (Command × Except Error Outcome)) : ErrorKind :=
  ((entries.filter fun entry => !entry.1.looks).getLast?.map fun entry =>
    entry.1.kindOf entry.2).getD before

/-- Looking does not count: what was remembered before a command that looks is remembered after
it. -/
theorem latest_cons (before : ErrorKind) (command : Command) (result : Except Error Outcome)
    (entries : List (Command × Except Error Outcome)) :
    latest before ((command, result) :: entries) =
      latest (if command.looks then before else command.kindOf result) entries := by
  unfold latest
  cases hlooks : command.looks with
  | true => simp [hlooks]
  | false =>
    rw [List.filter_cons_of_pos (by simp [hlooks]), List.getLast?_cons]
    cases (entries.filter fun entry => !entry.1.looks).getLast? <;> rfl

/-- The store remembers what came of the most recent command that did more than look. The
induction is on the commands, with what was remembered at their start left open. -/
theorem lastError_executeAll (h : session.store.Sound) (commands : List Command) :
    (session.executeAll commands).2.store.lastError
      = latest session.store.lastError (commands.zip (session.executeAll commands).1) := by
  induction commands generalizing session with
  | nil => rfl
  | cons command commands ih =>
    have htruthful := executeOn_truthful h command
    have hnext : (session.execute command).2.store.Sound := (continues_executeOn h command).sound
    have hkind : (session.execute command).2.store.lastError
        = if command.looks then session.store.lastError
          else command.kindOf (session.execute command).1 := by
      cases hlooks : command.looks with
      | true => exact congrArg Store.lastError (executeOn_of_looks hlooks session.store)
      | false => exact htruthful.eq_kindOf hlooks
    simp only [executeAll, List.zip_cons_cons]
    rw [latest_cons, ← hkind]
    exact ih hnext

/-- Whatever commands were executed before, a command is counted and is remembered for what came of
it, and `errno` tells what came of the most recent command that did more than look. -/
theorem remembered_truthful (config : Config) (commands : List Command) (command : Command) :
    let results := ((start config).executeAll commands).1
    let session := ((start config).executeAll commands).2
    let next := (session.execute command).2
    next.executed = session.executed + 1 ∧
      Truthful command session.store.lastError (session.execute command).1 next.store.lastError ∧
      (session.execute .lastError).1
        = .ok (.lastError (latest .noError (commands.zip results))) := by
  intro results session next
  have hsound : session.store.Sound := sound_executeAll (Store.sound_empty config) commands
  have hkind : session.store.lastError = latest .noError (commands.zip results) :=
    lastError_executeAll (Store.sound_empty config) commands
  exact ⟨rfl, executeOn_truthful hsound command, congrArg (Except.ok ∘ Outcome.lastError) hkind⟩

end Session

end Script

end Filestore
