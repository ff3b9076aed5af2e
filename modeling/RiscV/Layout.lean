import RiscV.Pattern
import RiscV.Text.Blank
import RiscV.Text.Numeral

/-!
# Layouts

A layout draws an instruction the way its bit diagram does, highest bit first:

    imm[12|10:5] rs2 rs1 000 imm[4:1|11] 1100011 BEQ

Runs of `0` and `1` are fixed bits.  A bare name is a field of known width.  A
name with ranges is a part of the immediate, and the ranges say which bits of the
immediate it holds.  What follows `!=` in a field is a remark.  The last word is
the mnemonic.

Reading a layout gives its items; compiling it gives the pattern of its fixed
bits.  Every part of the immediate may hold each bit once, and no bare field may
occur twice.

## Main definitions

* `BareField`, `ImmediateName`, `Item`, `Layout` — what a layout consists of.
* `Defect`, `DefinitionError` — what can be wrong with a definition.
* `Layout.parse` — reading a layout.
* `Item.cells`, `Pattern.ofCells` — the bits of a layout, and the pattern they fix.
* `Layout.compile` — reading a layout and deriving its pattern.
-/

namespace RiscV

/-! ### What a layout consists of -/

/-- A field with a width of its own. -/
inductive BareField
  | rd | rs1 | rs2 | rs3 | rs1rd | zimm | shamt5
  | rdShort | rs1Short | rs2Short | rs1rdShort | rm
  | shamt6 | csr | pred | succ | aq | rl
  deriving DecidableEq, Repr, Inhabited

namespace BareField

/-- All bare fields. -/
def all : List BareField :=
  [rd, rs1, rs2, rs3, rs1rd, zimm, shamt5, rdShort, rs1Short, rs2Short, rs1rdShort, rm,
    shamt6, csr, pred, succ, aq, rl]

/-- How a field is spelled.  A short register field ends in `0`. -/
def spelling : BareField → List Char
  | rd => ['r', 'd']
  | rs1 => ['r', 's', '1']
  | rs2 => ['r', 's', '2']
  | rs3 => ['r', 's', '3']
  | rs1rd => ['r', 's', '1', '/', 'r', 'd']
  | zimm => ['z', 'i', 'm', 'm']
  | shamt5 => ['s', 'h', 'a', 'm', 't', '5']
  | rdShort => ['r', 'd', '0']
  | rs1Short => ['r', 's', '1', '0']
  | rs2Short => ['r', 's', '2', '0']
  | rs1rdShort => ['r', 's', '1', '0', '/', 'r', 'd', '0']
  | rm => ['r', 'm']
  | shamt6 => ['s', 'h', 'a', 'm', 't', '6']
  | csr => ['c', 's', 'r']
  | pred => ['p', 'r', 'e', 'd']
  | succ => ['s', 'u', 'c', 'c']
  | aq => ['a', 'q']
  | rl => ['r', 'l']

/-- The name of a field. -/
def name (field : BareField) : String := String.ofList field.spelling

/-- The number of bits a field takes. -/
def width : BareField → Nat
  | rd | rs1 | rs2 | rs3 | rs1rd | zimm | shamt5 => 5
  | rdShort | rs1Short | rs2Short | rs1rdShort | rm => 3
  | shamt6 => 6
  | csr => 12
  | pred | succ => 4
  | aq | rl => 1

/-- The field with a given name. -/
def ofName? (text : List Char) : Option BareField :=
  all.find? fun field => field.spelling == text

end BareField

/-- The names a part of the immediate may have.  They differ in what they
promise about the value, not in where its bits go. -/
inductive ImmediateName
  | imm | nzimm | uimm | nzuimm
  deriving DecidableEq, Repr, Inhabited

namespace ImmediateName

/-- All names of the immediate. -/
def all : List ImmediateName := [imm, nzimm, uimm, nzuimm]

/-- How the name is spelled. -/
def spelling : ImmediateName → List Char
  | imm => ['i', 'm', 'm']
  | nzimm => ['n', 'z', 'i', 'm', 'm']
  | uimm => ['u', 'i', 'm', 'm']
  | nzuimm => ['n', 'z', 'u', 'i', 'm', 'm']

/-- Whether the immediate is a signed number. -/
def isSigned : ImmediateName → Bool
  | imm | nzimm => true
  | uimm | nzuimm => false

/-- The immediate with a given name. -/
def ofName? (text : List Char) : Option ImmediateName :=
  all.find? fun field => field.spelling == text

end ImmediateName

/-- One item of a layout. -/
inductive Item
  /-- Fixed bits, highest first. -/
  | literal (bits : List Bool)
  /-- A bare field. -/
  | bare (field : BareField)
  /-- A part of the immediate: the bits of the immediate it holds, highest word
  bit first. -/
  | immediate (name : ImmediateName) (places : List Nat)
  deriving DecidableEq, Repr

namespace Item

/-- The number of word bits an item takes. -/
def width : Item → Nat
  | literal bits => bits.length
  | bare field => field.width
  | immediate _ places => places.length

/-- The bits of the immediate that an item holds. -/
def places : Item → List Nat
  | immediate _ places => places
  | _ => []

end Item

/-- A layout as read: its items from the highest bit down, and its mnemonic. -/
structure Layout where
  /-- The items, highest bit first. -/
  items : List Item
  /-- The mnemonic, in lower case. -/
  mnemonic : String
  deriving DecidableEq, Repr

/-! ### What can be wrong -/

/-- What can be wrong with a definition. -/
inductive Defect
  /-- The last word is no mnemonic, or there is no word. -/
  | missingMnemonic
  /-- Nothing stands before the mnemonic. -/
  | noFields
  /-- A field that takes no ranges has some. -/
  | notRanged (name : String)
  /-- The ranges of an immediate do not end in a bracket. -/
  | unterminated (token : String)
  /-- A bit index is no number below 64. -/
  | badIndex (text : String)
  /-- The upper end of a range is below the lower one. -/
  | reversed (range : String)
  /-- One part of the immediate holds a bit twice. -/
  | repeatedBit (bit : Nat) (ranges : String)
  /-- Two fields hold the same bit. -/
  | redeclared (name : String) (bit : Nat)
  /-- No field has this name. -/
  | unknownField (name : String)
  /-- The items do not add up to the width. -/
  | coverage (total expected : Nat)
  /-- An earlier definition takes some of the words, but not as a special case. -/
  | overlap (earlier : String) (old new : Pattern)
  deriving DecidableEq, Repr

/-- The wording of a defect. -/
def Defect.reason : Defect → String
  | missingMnemonic => "missing mnemonic"
  | noFields => "no bit fields before the mnemonic"
  | notRanged name => "field `" ++ name ++ "` does not take a bit range"
  | unterminated token => "unterminated bit range in `" ++ token ++ "`"
  | badIndex text => "invalid bit index `" ++ text ++ "`"
  | reversed range => "bit range `" ++ range ++ "` is reversed"
  | repeatedBit bit ranges =>
    "bit " ++ Text.natural bit ++ " appears twice in `[" ++ ranges ++ "]`"
  | redeclared name bit =>
    "field `" ++ name ++ "` bit " ++ Text.natural bit ++ " is declared more than once"
  | unknownField name => "unknown field `" ++ name ++ "`"
  | coverage total expected =>
    "fields cover " ++ Text.natural total ++ " bits, expected " ++ Text.natural expected
  | overlap earlier old new =>
    "overlaps earlier definition `" ++ earlier ++ "` (mask " ++
      Text.hexMarked old.mask.toNat ++ "/" ++ Text.hexMarked new.mask.toNat ++ ", value " ++
      Text.hexMarked old.value.toNat ++ "/" ++ Text.hexMarked new.value.toNat ++ ")"

/-- A definition and what is wrong with it. -/
structure DefinitionError where
  /-- The layout, or the mnemonic of a definition that overlaps another. -/
  definition : String
  /-- What is wrong. -/
  defect : Defect
  deriving DecidableEq, Repr

/-- The wording of a definition error. -/
def DefinitionError.message (e : DefinitionError) : String :=
  "malformed instruction definition `" ++ e.definition ++ "`: " ++ e.defect.reason

/-! ### Reading -/

namespace Layout

/-- Read a bit index. -/
def readIndex (text : List Char) : Except Defect Nat :=
  match Text.readNatural 10 63 text with
  | .ok n => .ok n
  | .error _ => .error (.badIndex (String.ofList text))

/-- Read one range, `hi:lo` or a single index, as its two ends. -/
def readRange (text : List Char) : Except Defect (Nat × Nat) :=
  match text.span (· != ':') with
  | (hi, _ :: lo) => do
    let hi ← readIndex hi
    let lo ← readIndex lo
    if hi < lo then .error (.reversed (String.ofList text)) else .ok (hi, lo)
  | (index, []) => do
    let n ← readIndex index
    .ok (n, n)

/-- The bits from `hi` down to `lo`. -/
def descending (hi lo : Nat) : List Nat := (List.range (hi + 1 - lo)).map (hi - ·)

/-- The lowest bit of `new` that is among `old`. -/
def lowestCommon? (old new : List Nat) : Option Nat := (new.filter old.contains).min?

/-- Read the ranges of one part of the immediate, given the bits it holds so far.
`ranges` is the text of all of them. -/
def readRanges (ranges : List Char) (held : List Nat) :
    List (List Char) → Except Defect (List Nat)
  | [] => .ok held
  | text :: texts => do
    let (hi, lo) ← readRange text
    match lowestCommon? held (descending hi lo) with
    | some bit => .error (.repeatedBit bit (String.ofList ranges))
    | none => readRanges ranges (held ++ descending hi lo) texts

/-- What stands before the first `!=`. -/
def beforeRemark : List Char → List Char
  | [] => []
  | '!' :: '=' :: _ => []
  | c :: cs => c :: beforeRemark cs

/-- Read a part of the immediate, given its name and what follows the bracket. -/
def readImmediate (token name rest : List Char) : Except Defect Item :=
  match ImmediateName.ofName? name with
  | none => .error (.notRanged (String.ofList name))
  | some field =>
    if rest.getLast? = some ']' then do
      let ranges := rest.dropLast
      let places ← readRanges ranges [] (Text.splitAt (· == '|') ranges)
      .ok (.immediate field places)
    else .error (.unterminated (String.ofList token))

/-- Read a field. -/
def readField (token : List Char) : Except Defect Item :=
  match (beforeRemark token).span (· != '[') with
  | (name, _ :: rest) => readImmediate token name rest
  | (name, []) =>
    match BareField.ofName? name with
    | some field => .ok (.bare field)
    | none => .error (.unknownField (String.ofList name))

/-- Whether a word is a run of fixed bits. -/
def isLiteral (token : List Char) : Bool := token.all fun c => c == '0' || c == '1'

/-- Read one item. -/
def readItem (token : List Char) : Except Defect Item :=
  if isLiteral token then .ok (.literal (token.map (· == '1'))) else readField token

/-- The conflict of an item with the items before it: a part of the immediate
with a bit that is already held, or a bare field that is already there. -/
def conflict? (earlier : List Item) : Item → Option Defect
  | .literal _ => none
  | .bare field =>
    if earlier.contains (.bare field) then some (.redeclared field.name 0) else none
  | .immediate _ places =>
    (lowestCommon? (earlier.flatMap Item.places) places).map (.redeclared "imm")

/-- Read the items that follow the items `earlier`. -/
def readItems (earlier : List Item) : List (List Char) → Except Defect (List Item)
  | [] => .ok earlier
  | token :: tokens => do
    let item ← readItem token
    match conflict? earlier item with
    | some defect => .error defect
    | none => readItems (earlier ++ [item]) tokens

/-- Whether a word can be a mnemonic: it has a letter and no bracket. -/
def isMnemonic (token : List Char) : Bool := token.any Char.isAlpha && !token.contains '['

/-- Read the words of a layout. -/
def ofWords (tokens : List (List Char)) : Except Defect Layout :=
  match tokens.getLast? with
  | none => .error .missingMnemonic
  | some last =>
    if isMnemonic last then
      if tokens.dropLast.isEmpty then .error .noFields
      else do
        let items ← readItems [] tokens.dropLast
        .ok ⟨items, String.ofList (last.map Char.toLower)⟩
    else .error .missingMnemonic

/-- Read a layout. -/
def parse (text : String) : Except Defect Layout := ofWords (Text.words text.toList)

/-- The number of word bits the items take together. -/
def totalWidth (layout : Layout) : Nat :=
  layout.items.foldr (fun item total => item.width + total) 0

end Layout

/-! ### Compiling -/

/-- The word bits of an item, highest first: fixed to a value, or free. -/
def Item.cells : Item → List (Option Bool)
  | .literal bits => bits.map some
  | item => List.replicate item.width none

/-- The word bits of a layout, highest first. -/
def Layout.cells (layout : Layout) : List (Option Bool) := layout.items.flatMap Item.cells

/-- The word whose lowest bits are the given ones, highest first. -/
def Word.ofBits (bits : List Bool) : Word :=
  bits.foldl (fun w b => w <<< 1 ||| if b then 1#32 else 0#32) 0#32

/-- The pattern that fixes the given bits, highest first. -/
def Pattern.ofCells (cells : List (Option Bool)) (width : Width) : Pattern where
  mask := .ofBits (cells.map Option.isSome)
  value := .ofBits (cells.map (· == some true))
  width := width

/-- A mnemonic and the pattern of its words. -/
structure CompiledLayout where
  /-- The mnemonic, in lower case. -/
  mnemonic : String
  /-- The fixed bits. -/
  pattern : Pattern
  deriving DecidableEq, Repr

namespace Layout

/-- The pattern of a layout for instructions of a given width, which its items
have to fill exactly. -/
def toPattern (layout : Layout) (width : Width) : Except Defect Pattern :=
  if layout.totalWidth = width.bits then .ok (.ofCells layout.cells width)
  else .error (.coverage layout.totalWidth width.bits)

/-- Read a layout and derive its pattern. -/
def compile (text : String) (width : Width) : Except DefinitionError CompiledLayout :=
  match parse text with
  | .error defect => .error ⟨text, defect⟩
  | .ok layout =>
    match layout.toPattern width with
    | .error defect => .error ⟨text, defect⟩
    | .ok pattern => .ok ⟨layout.mnemonic, pattern⟩

end Layout

end RiscV
