import RiscV.Text.Numeral
import RiscV.Text.Quoted

/-!
# Log events

Building an instruction set and reading an image report what they do as events.
An event has a severity, an origin and a text; a log shows the events that are
at least as severe as asked for.
-/

namespace RiscV

/-- How much attention an event deserves, most first. -/
inductive Severity
  | error
  | warn
  | info
  | debug
  | trace
  deriving DecidableEq, Repr, Inhabited

namespace Severity

/-- The name a severity is shown by. -/
def label : Severity → String
  | error => "ERROR"
  | warn => "WARN"
  | info => "INFO"
  | debug => "DEBUG"
  | trace => "TRACE"

/-- The position in the order, most severe first. -/
def rank : Severity → Nat
  | error => 1
  | warn => 2
  | info => 3
  | debug => 4
  | trace => 5

/-- The least severe events that a log at the given level shows.  A log that is
off shows none, and a level without a meaning counts as `warn`. -/
def ofLevel : String → Option Severity
  | "off" => none
  | "error" => some error
  | "info" => some info
  | "debug" => some debug
  | "trace" => some trace
  | _ => some warn

end Severity

/-- Something worth logging. -/
inductive Event
  /-- A definition repeats the pattern of an earlier one and was dropped. -/
  | duplicateDropped (mnemonic kept : String)
  /-- All rows of a table were added. -/
  | tableAdded (name : String) (width added : Nat)
  /-- An instruction set is complete. -/
  | setBuilt (isa : String) (compressed standard : Nat)
  /-- An instruction set is about to be used. -/
  | setChosen (isa : String)
  /-- An image was read. -/
  | imageRead (path : String) (size : Nat)
  /-- A word matches no definition. -/
  | unmatched (address word : Nat)
  /-- The last byte of an image belongs to no parcel. -/
  | oddByte (size : Nat)
  deriving DecidableEq, Repr

namespace Event

/-- How much attention an event deserves. -/
def severity : Event → Severity
  | unmatched .. => .trace
  | oddByte _ => .warn
  | _ => .debug

/-- The part of the program that reports an event. -/
def origin : Event → String
  | duplicateDropped .. => "rvdis_core::isa::catalog"
  | tableAdded .. | setBuilt .. | unmatched .. => "rvdis_core::isa::set"
  | setChosen _ | imageRead .. | oddByte _ => "rvdis"

/-- The text of an event. -/
def text : Event → String
  | duplicateDropped mnemonic kept =>
    "Skipping duplicate instruction definition mnemonic=" ++ mnemonic ++ " kept=" ++ kept
  | tableAdded name width added =>
    "Added ISA module module=" ++ Text.quoted name ++ " width=" ++ Text.natural width ++
      " added=" ++ Text.natural added
  | setBuilt isa compressed standard =>
    "Built instruction set isa=" ++ isa ++ " compressed=" ++ Text.natural compressed ++
      " standard=" ++ Text.natural standard
  | setChosen isa => "Using instruction set isa=" ++ isa
  | imageRead path size => "Read binary path=" ++ path ++ " len=" ++ Text.natural size
  | unmatched address word =>
    "No matching instruction definition address=" ++ Text.natural address ++ " word=" ++
      Text.natural word
  | oddByte size => "Ignoring trailing odd byte len=" ++ Text.natural size

/-- The line an event is logged as. -/
def line (e : Event) : String := e.severity.label ++ " " ++ e.origin ++ ": " ++ e.text

/-- Whether a log that shows events down to `least` shows this one; a log that is
switched off shows none. -/
def isShown (least : Option Severity) (e : Event) : Bool :=
  match least with
  | none => false
  | some least => e.severity.rank ≤ least.rank

end Event

end RiscV
