import RiscV.Text.Numeral
import RiscV.Word

/-!
# Hexadecimal arguments

Addresses and instruction words are given in hexadecimal, with or without the
marker `0x`.
-/

namespace RiscV.Command

/-- Why an argument is no hexadecimal number of the right size. -/
inductive HexError
  /-- It is no number of at most 64 bits. -/
  | numeral (error : Text.NumeralError)
  /-- It is a number of more than 32 bits. -/
  | wideWord
  deriving DecidableEq, Repr

/-- The wording of an error about the argument `text`. -/
def HexError.message (text : String) : HexError → String
  | numeral error => "invalid hex value `" ++ text ++ "`: " ++ error.message
  | wideWord => "instruction word `" ++ text ++ "` exceeds 32 bits"

/-- What stands after the marker, if there is one. -/
def dropMarker : List Char → List Char
  | '0' :: 'x' :: cs => cs
  | '0' :: 'X' :: cs => cs
  | cs => cs

/-- Read a number of at most 64 bits. -/
def readHex (text : String) : Except HexError Nat :=
  match Text.readNatural 16 0xffffffffffffffff (dropMarker text.toList) with
  | .ok n => .ok n
  | .error e => .error (.numeral e)

/-- Read an address. -/
def readAddress (text : String) : Except HexError Address :=
  (readHex text).map (BitVec.ofNat 64)

/-- Read an instruction word. -/
def readWord (text : String) : Except HexError Word :=
  match readHex text with
  | .ok n => if n ≤ 0xffffffff then .ok (BitVec.ofNat 32 n) else .error .wideWord
  | .error e => .error e

end RiscV.Command
