import Filestore.Text.Numeral.Basic

/-!
# `Filestore.CommandLine.Options`: reading the arguments

Arguments are read from the left, and the first fault ends the reading. `--` ends the options. An
option that takes a value has it after an equals sign or as the next argument, which then may not
look like an option; short flags can share one dash; nothing may be given twice. Asking for help
or for the version ends the reading at that place, so a fault after it goes unnoticed and one
before it is reported instead.

The one argument that is no option is the path of the script; a single dash is such a path, and
one like any other. The block size is read as a number here, and a value that is none is a fault
of the arguments; the size limit is taken as it is and read with the settings, because the
environment may give it as well.
-/

set_option autoImplicit false

namespace Filestore

namespace CommandLine

open Text

/-- What the arguments ask of a run. -/
structure Options where
  /-- The path of the script. -/
  script : Option String
  /-- Whether results are JSON. -/
  json : Bool
  /-- The block size. -/
  blockSize : Option Nat
  /-- The size limit, not yet read. -/
  sizeLimit : Option String
  /-- Whether a line that fails is passed over. -/
  keepGoing : Bool
  /-- Whether a log of the store's activity is asked for. None is kept, so this changes nothing. -/
  verbose : Bool
  deriving DecidableEq, Repr

/-- What the arguments ask for. -/
inductive Request where
  /-- A run. -/
  | run (options : Options)
  /-- A description of the arguments. -/
  | help
  /-- The version. -/
  | version
  deriving DecidableEq, Repr

/-- Why arguments are refused. -/
inductive UsageError where
  /-- There is no such option, or no place for one more argument. -/
  | unexpected (argument : String)
  /-- An option is given twice. -/
  | repeated (option : String)
  /-- An option lacks its value. -/
  | missingValue (option : String)
  /-- A flag is given a value. -/
  | needlessValue (option : String)
  /-- The value of an option is no number. -/
  | invalidValue (option value : String) (cause : Numeral.Fault)
  deriving DecidableEq, Repr

/-- The wording of a fault. -/
def UsageError.message : UsageError → String
  | .unexpected argument => "unexpected argument '" ++ argument ++ "' found"
  | .repeated option =>
    "the argument '" ++ option ++ "' cannot be used multiple times"
  | .missingValue option => "a value is required for '" ++ option ++ "' but none was supplied"
  | .needlessValue option => "unexpected value for '" ++ option ++ "' found; no more were expected"
  | .invalidValue option value cause =>
    "invalid value '" ++ value ++ "' for '" ++ option ++ "': " ++ cause.message

namespace Options

/-- No arguments. -/
def none : Options := ⟨.none, false, .none, .none, false, false⟩

/-- An option that stands for itself. -/
inductive Flag where
  /-- Results are JSON. -/
  | json
  /-- A line that fails is passed over. -/
  | keepGoing
  /-- A log is asked for. -/
  | verbose
  /-- The arguments are described. -/
  | help
  /-- The version is shown. -/
  | version
  deriving DecidableEq, Repr

/-- An option with a value. -/
inductive Valued where
  /-- The block size. -/
  | blockSize
  /-- The size limit. -/
  | sizeLimit
  deriving DecidableEq, Repr

/-- What a flag is called in a complaint. -/
def Flag.label : Flag → String
  | .json => "--json"
  | .keepGoing => "--keep-going"
  | .verbose => "--verbose"
  | .help => "--help"
  | .version => "--version"

/-- What an option with a value is called in a complaint. -/
def Valued.label : Valued → String
  | .blockSize => "--block-size <BYTES>"
  | .sizeLimit => "--max-file-size <BYTES>"

/-- The flag of a letter. -/
def Flag.ofLetter? : Char → Option Flag
  | 'k' => some .keepGoing
  | 'v' => some .verbose
  | 'h' => some .help
  | 'V' => some .version
  | _ => .none

/-- The flag of a long name. -/
def Flag.ofName? : String → Option Flag
  | "json" => some .json
  | "keep-going" => some .keepGoing
  | "verbose" => some .verbose
  | "help" => some .help
  | "version" => some .version
  | _ => .none

/-- The option with a value of a long name. -/
def Valued.ofName? : String → Option Valued
  | "block-size" => some .blockSize
  | "max-file-size" => some .sizeLimit
  | _ => .none

/-- What one argument comes to: options to go on with, or a request already settled. -/
abbrev Step := Except UsageError (Options ⊕ Request)

/-- Sets a flag that is not yet set. -/
def setFlag (options : Options) : Flag → Step
  | .json =>
    if options.json then .error (.repeated Flag.json.label)
    else .ok (.inl { options with json := true })
  | .keepGoing =>
    if options.keepGoing then .error (.repeated Flag.keepGoing.label)
    else .ok (.inl { options with keepGoing := true })
  | .verbose =>
    if options.verbose then .error (.repeated Flag.verbose.label)
    else .ok (.inl { options with verbose := true })
  | .help => .ok (.inr .help)
  | .version => .ok (.inr .version)

/-- Sets an option that has no value yet. A number is read before the option is found to be given
twice or not. -/
def setValue (options : Options) (value : String) : Valued → Except UsageError Options
  | .blockSize =>
    match Numeral.read64 value.toList with
    | .error cause => .error (.invalidValue Valued.blockSize.label value cause)
    | .ok size =>
      if options.blockSize.isSome then .error (.repeated Valued.blockSize.label)
      else .ok { options with blockSize := some size }
  | .sizeLimit =>
    if options.sizeLimit.isSome then .error (.repeated Valued.sizeLimit.label)
    else .ok { options with sizeLimit := some value }

/-- Sets the path of the script, which is not empty and not given yet. -/
def setScript (options : Options) (path : String) : Except UsageError Options :=
  if options.script.isSome then .error (.unexpected path)
  else if path = "" then .error (.missingValue "[SCRIPT]")
  else .ok { options with script := some path }

/-- Sets the flags that share one dash. -/
def setLetters (options : Options) : List Char → Step
  | [] => .ok (.inl options)
  | letter :: rest =>
    match Flag.ofLetter? letter with
    | .none => .error (.unexpected (String.ofList ['-', letter]))
    | some flag =>
      match setFlag options flag with
      | .ok (.inl options) => setLetters options rest
      | settled => settled

/-- A long option's name, and its value if it has one after an equals sign. -/
def splitName (text : List Char) : String × Option String :=
  let name := String.ofList (text.takeWhile fun c => c != '=')
  match text.dropWhile fun c => c != '=' with
  | [] => (name, .none)
  | _ :: value => (name, some (String.ofList value))

/-- Whether an argument looks like an option. A dash alone does not. -/
def looksLikeOption (argument : String) : Bool :=
  match argument.toList with
  | '-' :: _ :: _ => true
  | _ => false

/-- Reads the arguments after `--`, none of which is an option. -/
def readPaths (options : Options) : List String → Except UsageError Request
  | [] => .ok (.run options)
  | path :: rest =>
    match setScript options path with
    | .error e => .error e
    | .ok options => readPaths options rest

/-- Reads arguments after those already read. -/
def readFrom (options : Options) : List String → Except UsageError Request
  | [] => .ok (.run options)
  | argument :: rest =>
    match argument.toList with
    | ['-', '-'] => readPaths options rest
    | '-' :: '-' :: text =>
      match splitName text with
      | (name, value) =>
        match Flag.ofName? name, Valued.ofName? name, value with
        | some flag, _, some _ => .error (.needlessValue flag.label)
        | some flag, _, .none =>
          match setFlag options flag with
          | .error e => .error e
          | .ok (.inr request) => .ok request
          | .ok (.inl options) => readFrom options rest
        | .none, some valued, some value =>
          match setValue options value valued with
          | .error e => .error e
          | .ok options => readFrom options rest
        | .none, some valued, .none =>
          match rest with
          | [] => .error (.missingValue valued.label)
          | value :: rest =>
            if looksLikeOption value then .error (.missingValue valued.label)
            else
              match setValue options value valued with
              | .error e => .error e
              | .ok options => readFrom options rest
        | .none, .none, _ => .error (.unexpected argument)
    | '-' :: letter :: letters =>
      match setLetters options (letter :: letters) with
      | .error e => .error e
      | .ok (.inr request) => .ok request
      | .ok (.inl options) => readFrom options rest
    | _ =>
      match setScript options argument with
      | .error e => .error e
      | .ok options => readFrom options rest

/-- Reads the arguments. -/
def read (arguments : List String) : Except UsageError Request := readFrom Options.none arguments

end Options

end CommandLine

end Filestore
