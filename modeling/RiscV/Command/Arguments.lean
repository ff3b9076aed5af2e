import RiscV.Builtin
import RiscV.Command.Hex

/-!
# Command-line arguments

The first argument names what to do: disassemble words given as further
arguments, or a file.  Options and other arguments may come in any order; `--`
ends the options.  An option is followed by its value, or joined to it by an
equals sign.

Arguments are first gathered into occurrences: an option with its value, or
arguments in a row that belong to no option.  The values of an occurrence are
read when the next occurrence starts.  An argument that cannot be placed ends
the gathering at once, so the values of the occurrence before it are never read.

## Main definitions

* `Selection`, `Request` — what the arguments ask for.
* `gather` — the occurrences among the arguments.
* `Request.parse` — reading the arguments.
-/

namespace RiscV.Command

/-! ### What the arguments ask for -/

/-- The options both actions share. -/
structure Selection where
  /-- The preset. -/
  isa : Option Preset := none
  /-- The register width in bits. -/
  xlen : Option Nat := none
  /-- Further modules. -/
  modules : List Builtin := []
  /-- The path of a configuration. -/
  config : Option String := none
  /-- The address of the first instruction. -/
  address : Option Address := none
  deriving DecidableEq, Repr

/-- What to do. -/
inductive Request
  /-- Disassemble words. -/
  | words (selection : Selection) (words : List Word)
  /-- Disassemble a file. -/
  | file (selection : Selection) (path : String)
  /-- Show how to use the program. -/
  | help
  /-- Show the version. -/
  | version
  deriving DecidableEq, Repr

/-- Why arguments are refused. -/
inductive UsageError
  /-- A value cannot be read. -/
  | rejected (value label reason : String)
  /-- The arguments do not form a command. -/
  | misuse
  deriving DecidableEq, Repr

/-- The wording of a usage error, where it has one of its own. -/
def UsageError.message? : UsageError → Option String
  | rejected value label reason =>
    some ("error: invalid value '" ++ value ++ "' for '" ++ label ++ "': " ++ reason)
  | misuse => none

/-! ### Occurrences -/

/-- The options. -/
inductive Flag
  | isa
  | xlen
  | module
  | config
  | address
  deriving DecidableEq, Repr

namespace Flag

/-- All options. -/
def all : List Flag := [isa, xlen, module, config, address]

/-- The name after the dashes. -/
def name : Flag → String
  | isa => "isa"
  | xlen => "xlen"
  | module => "module"
  | config => "config"
  | address => "address"

/-- How an option and its value are referred to. -/
def label : Flag → String
  | isa => "--isa <ISA>"
  | xlen => "--xlen <XLEN>"
  | module => "--module <MODULE>"
  | config => "--config <CONFIG>"
  | address => "--address <ADDRESS>"

/-- The option with a given name. -/
def ofName? (text : List Char) : Option Flag := all.find? fun flag => flag.name.toList == text

end Flag

/-- Arguments that belong together. -/
inductive Occurrence
  /-- An option and its value, which may be missing. -/
  | option (flag : Flag) (value : Option String)
  /-- Arguments in a row that belong to no option. -/
  | operands (values : List String)
  deriving DecidableEq, Repr

/-- What ended the gathering. -/
inductive Ending
  /-- All arguments have their place. -/
  | complete
  /-- An argument cannot be placed. -/
  | misplaced
  /-- Help was asked for. -/
  | help
  deriving DecidableEq, Repr

/-- The kinds of arguments. -/
inductive Argument
  /-- Two dashes alone. -/
  | separator
  /-- Two dashes, a name, and what follows an equals sign. -/
  | long (name : List Char) (value : Option String)
  /-- One dash and letters, the first of them given. -/
  | short (letter : Char)
  /-- Anything else. -/
  | operand
  deriving DecidableEq, Repr

/-- The kind of an argument. -/
def classify (text : String) : Argument :=
  match text.toList with
  | ['-', '-'] => .separator
  | '-' :: '-' :: cs =>
    match cs.span (· != '=') with
    | (name, _ :: value) => .long name (some (String.ofList value))
    | (name, []) => .long name none
  | '-' :: c :: _ => .short c
  | _ => .operand

/-- The occurrence whose values are still coming in. -/
inductive Pending
  /-- None. -/
  | none
  /-- An option that still needs its value. -/
  | awaiting (flag : Flag)
  /-- An option with its value. -/
  | supplied (flag : Flag) (value : String)
  /-- Arguments that belong to no option. -/
  | operands (values : List String)
  deriving DecidableEq, Repr

/-- The occurrence a pending one turns into. -/
def Pending.close : Pending → List Occurrence
  | none => []
  | awaiting flag => [.option flag .none]
  | supplied flag value => [.option flag (some value)]
  | operands values => [.operands values]

/-- Gather arguments into occurrences.  `room` is the number of arguments outside
options that may still come, if that is limited, and `ended` tells whether the
options have ended. -/
def gather (room : Option Nat) (ended : Bool) (pending : Pending) :
    List String → List Occurrence × Ending
  | [] => (pending.close, .complete)
  | text :: texts =>
    match if ended then .operand else classify text with
    | .separator => gather room true pending texts
    | .long name value =>
      match Flag.ofName? name, value with
      | some flag, some value =>
        let (rest, ending) := gather room ended .none texts
        (pending.close ++ .option flag (some value) :: rest, ending)
      | some flag, none =>
        let (rest, ending) := gather room ended (.awaiting flag) texts
        (pending.close ++ rest, ending)
      | none, none =>
        if name = "help".toList then (pending.close, .help) else ([], .misplaced)
      | none, some _ => ([], .misplaced)
    | .short letter => if letter = 'h' then (pending.close, .help) else ([], .misplaced)
    | .operand =>
      match ended, pending, room with
      | false, .awaiting flag, room => gather room ended (.supplied flag text) texts
      | _, _, some 0 => ([], .misplaced)
      | _, .operands values, none => gather none ended (.operands (values ++ [text])) texts
      | _, pending, room =>
        let (rest, ending) := gather (room.map (· - 1)) ended (.operands [text]) texts
        (pending.close ++ rest, ending)

/-! ### Values -/

/-- Read a register width: a 32-bit number. -/
def readXlen (text : String) : Except String Nat :=
  match Text.readInteger text.toList with
  | .error e => .error e.message
  | .ok n =>
    if 0 ≤ n ∧ n ≤ 0xffffffff then .ok n.toNat
    else .error (Text.decimal n ++ " is not in 0..=4294967295")

/-- Read a preset, in any mixture of cases. -/
def readPreset (text : String) : Except String Preset :=
  match Preset.ofNameAnyCase? text with
  | some p => .ok p
  | none => .error (unknownPreset text)

/-- Read a module, in any mixture of cases. -/
def readModule (text : String) : Except String Builtin :=
  match Builtin.ofNameAnyCase? text with
  | some m => .ok m
  | none => .error (unknownModule text)

/-- Reject a value that was not read. -/
def orReject {α : Type} (value label : String) : Except String α → Except UsageError α
  | .ok a => .ok a
  | .error reason => .error (.rejected value label reason)

/-- Record the value of an option.  Only modules may be given more than once, and
a path is not empty. -/
def Selection.record (s : Selection) (flag : Flag) (value : String) :
    Except UsageError Selection :=
  match flag with
  | .isa =>
    if s.isa.isSome then .error .misuse
    else (orReject value flag.label (readPreset value)).map fun p => { s with isa := some p }
  | .xlen =>
    if s.xlen.isSome then .error .misuse
    else (orReject value flag.label (readXlen value)).map fun n => { s with xlen := some n }
  | .module =>
    (orReject value flag.label (readModule value)).map fun m =>
      { s with modules := s.modules ++ [m] }
  | .config =>
    if s.config.isSome ∨ value = "" then .error .misuse
    else .ok { s with config := some value }
  | .address =>
    if s.address.isSome then .error .misuse
    else
      (orReject value flag.label ((readAddress value).mapError (·.message value))).map fun a =>
        { s with address := some a }

/-- Whether a configuration is given beside options it would replace. -/
def Selection.conflicts (s : Selection) : Bool :=
  s.config.isSome && (s.isa.isSome || s.xlen.isSome || !s.modules.isEmpty)

/-! ### The two actions -/

/-- What to disassemble. -/
inductive Action
  | words
  | file
  deriving DecidableEq, Repr

/-- The action with a given name. -/
def Action.ofName? (text : String) : Option Action :=
  if text = "words" then some .words else if text = "file" then some .file else none

/-- How many arguments outside options an action takes, if that is limited. -/
def Action.room : Action → Option Nat
  | words => none
  | file => some 1

/-- The options and operands read so far. -/
structure Draft where
  /-- The options. -/
  selection : Selection := {}
  /-- The words. -/
  words : List Word := []
  /-- The path. -/
  path : Option String := none
  deriving DecidableEq, Repr

/-- Read words. -/
def readWords : List String → Except UsageError (List Word)
  | [] => .ok []
  | text :: texts => do
    let w ← orReject text "<WORDS>..." ((readWord text).mapError (·.message text))
    let ws ← readWords texts
    .ok (w :: ws)

/-- Read the values of an occurrence. -/
def Draft.add (action : Action) (d : Draft) : Occurrence → Except UsageError Draft
  | .option _ none => .error .misuse
  | .option flag (some value) =>
    (d.selection.record flag value).map fun selection => { d with selection }
  | .operands values =>
    match action with
    | .words => (readWords values).map fun ws => { d with words := d.words ++ ws }
    | .file =>
      match values with
      | [path] => if path = "" then .error .misuse else .ok { d with path := some path }
      | _ => .error .misuse

/-- What a complete draft asks for. -/
def Draft.finish (action : Action) (d : Draft) : Except UsageError Request :=
  if d.selection.conflicts then .error .misuse
  else
    match action, d.path with
    | .words, _ =>
      if d.words.isEmpty then .error .misuse else .ok (.words d.selection d.words)
    | .file, some path => .ok (.file d.selection path)
    | .file, none => .error .misuse

/-- Read the arguments of an action. -/
def Action.parse (action : Action) (texts : List String) : Except UsageError Request := do
  let (occurrences, ending) := gather action.room false .none texts
  let d ← occurrences.foldlM (Draft.add action) {}
  match ending with
  | .complete => d.finish action
  | .misplaced => .error .misuse
  | .help => .ok .help

/-- Read all arguments. -/
def Request.parse : List String → Except UsageError Request
  | [] => .error .misuse
  | text :: texts =>
    match Action.ofName? text, classify text with
    | some action, _ => action.parse texts
    | none, .long name none =>
      if name = "version".toList then .ok .version
      else if name = "help".toList then .ok .help
      else .error .misuse
    | none, .short letter =>
      if letter = 'V' then .ok .version
      else if letter = 'h' then .ok .help
      else .error .misuse
    | none, _ =>
      if text = "help" ∧ texts ∈ [[], ["words"], ["file"], ["help"]] then .ok .help
      else .error .misuse

end RiscV.Command
