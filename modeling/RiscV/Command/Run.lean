import RiscV.Command.Arguments
import RiscV.Config.Reader
import RiscV.Image

/-!
# Running a command

A run is a function of the arguments and the contents of files.  It ends with an
exit code: 0 after success, 1 after an error and 2 for arguments that are
refused.  Lines are printed only by a run that succeeds.

## Main definitions

* `Files`, `RunError` — reading files, and what can go wrong.
* `Transcript` — everything a run shows.
* `run` — running a command.
-/

namespace RiscV.Command

/-! ### Files -/

/-- Why a file cannot be read. -/
inductive ReadFailure
  /-- There is no such file. -/
  | notFound
  /-- The path leads to a directory. -/
  | isDirectory
  /-- Anything else, in the words of the system. -/
  | other (text : String)
  deriving DecidableEq, Repr

/-- The wording of a read failure. -/
def ReadFailure.message : ReadFailure → String
  | notFound => "No such file or directory (os error 2)"
  | isDirectory => "Is a directory (os error 21)"
  | other text => text

/-- The contents of the files by path. -/
abbrev Files := String → Except ReadFailure (List UInt8)

/-- What can go wrong after the arguments were read. -/
inductive RunError
  /-- A file cannot be read. -/
  | unreadable (path : String) (failure : ReadFailure)
  /-- A configuration is not text. -/
  | notText (path : String)
  /-- A text is no configuration. -/
  | notConfig (error : ReadError)
  /-- The selected set cannot be built. -/
  | unbuildable (error : BuildError)
  deriving DecidableEq, Repr

/-- The wording of an error. -/
def RunError.message : RunError → String
  | unreadable path failure => path ++ ": " ++ failure.message
  | notText path => path ++ ": stream did not contain valid UTF-8"
  | notConfig error => error.message
  | unbuildable error => error.message

/-! ### The instruction set -/

/-- Read the configuration in a file. -/
def readConfig (files : Files) (path : String) : Except RunError Config :=
  match files path with
  | .error failure => .error (.unreadable path failure)
  | .ok bytes =>
    match String.fromUTF8? ⟨bytes.toArray⟩ with
    | none => .error (.notText path)
    | some text => (Config.parse text).mapError .notConfig

/-- The configuration that options select: the one in a file, or the preset with
the other options. -/
def Selection.toConfig (s : Selection) (files : Files) : Except RunError Config :=
  match s.config with
  | some path => readConfig files path
  | none =>
    .ok { xlen := s.xlen, preset := some (s.isa.getD .standard), modules := s.modules }

/-- A result and what was logged on the way to it. -/
structure Logged (α : Type) where
  /-- The result. -/
  result : Except RunError α
  /-- The events, in order. -/
  log : List Event := []

/-- Build the set that a configuration selects. -/
def buildSet (c : Config) : Logged InstructionSet :=
  match c.compose with
  | .error e => ⟨.error (.unbuildable e), []⟩
  | .ok composition =>
    match composition.result with
    | .error e => ⟨.error (.unbuildable (.definition e)), composition.log⟩
    | .ok set => ⟨.ok set, composition.log ++ [.setChosen set.name]⟩

/-- Build the set that options select. -/
def Selection.toSet (s : Selection) (files : Files) : Logged InstructionSet :=
  match s.toConfig files with
  | .error e => ⟨.error e, []⟩
  | .ok c => buildSet c

/-- The address of the first instruction. -/
def Selection.start (s : Selection) : Address := s.address.getD 0#64

/-! ### The two actions -/

/-- List words. -/
def listWords (s : Selection) (ws : List Word) (files : Files) : Logged (List Line) :=
  let chosen := s.toSet files
  match chosen.result with
  | .error e => ⟨.error e, chosen.log⟩
  | .ok set =>
    let ps := ws.map Parcel.whole
    ⟨.ok (set.listing s.start ps), chosen.log ++ set.listingLog s.start ps⟩

/-- The remark that a byte is left over. -/
def leftOver (bytes : List UInt8) : List Event :=
  if bytes.length % 2 = 0 then [] else [.oddByte bytes.length]

/-- List the image in a file. -/
def listFile (s : Selection) (path : String) (files : Files) : Logged (List Line) :=
  let chosen := s.toSet files
  match chosen.result with
  | .error e => ⟨.error e, chosen.log⟩
  | .ok set =>
    match files path with
    | .error failure => ⟨.error (.unreadable path failure), chosen.log⟩
    | .ok bytes =>
      let ps := parcels bytes
      ⟨.ok (set.listing s.start ps),
        chosen.log ++ [.imageRead path bytes.length] ++ set.listingLog s.start ps ++
          leftOver bytes⟩

/-! ### Runs -/

/-- Everything a run shows. -/
structure Transcript where
  /-- The exit code. -/
  exitCode : Nat
  /-- The lines printed. -/
  output : List String := []
  /-- The error message. -/
  message : Option String := none
  /-- What was logged, in order. -/
  log : List Event := []
  deriving DecidableEq, Repr

/-- The version line. -/
def versionLine : String := "rvdis 0.3.0"

/-- How to use the program.  The options are those that are read; the wording and the order
are this library's own, and a command line may print another text. -/
def helpLines : List String :=
  [ "Usage: rvdis words [OPTIONS] <WORDS>...",
    "       rvdis file [OPTIONS] <PATH>",
    "",
    "Options:",
    "  --isa <ISA>          instruction set preset, rv64gc unless given",
    "  --xlen <XLEN>        register width: 32, 64 or 128",
    "  --module <MODULE>    further module, may be repeated",
    "  --config <CONFIG>    configuration file in place of the options above",
    "  --address <ADDRESS>  address of the first instruction, in hexadecimal" ]

/-- What a listing shows. -/
def Logged.transcript (r : Logged (List Line)) : Transcript :=
  match r.result with
  | .ok lines => { exitCode := 0, output := lines.map Line.text, log := r.log }
  | .error e => { exitCode := 1, message := some e.message, log := r.log }

/-- Carry out a request. -/
def Request.run (files : Files) : Request → Transcript
  | words s ws => (listWords s ws files).transcript
  | file s path => (listFile s path files).transcript
  | help => { exitCode := 0, output := helpLines }
  | version => { exitCode := 0, output := [versionLine] }

/-- Run a command. -/
def run (arguments : List String) (files : Files) : Transcript :=
  match Request.parse arguments with
  | .ok request => request.run files
  | .error e => { exitCode := 2, message := e.message? }

end RiscV.Command
