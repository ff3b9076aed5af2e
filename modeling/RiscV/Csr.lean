import RiscV.Text.Numeral

/-!
# Control and status register names

Most registers have a name of their own; counters, events and memory-protection
entries come in numbered families.  Any other address prints as a hexadecimal
literal of at least three digits.
-/

namespace RiscV.Csr

/-! ### The floating-point registers with mnemonics of their own -/

/-- The accrued floating-point exceptions. -/
def fflags : Nat := 0x001

/-- The dynamic rounding mode. -/
def frm : Nat := 0x002

/-- The floating-point control and status register. -/
def fcsr : Nat := 0x003

/-! ### Names -/

/-- The registers with a name of their own, by address. -/
def named : List (Nat × String) :=
  [ -- user
    (0x000, "ustatus"), (fflags, "fflags"), (frm, "frm"), (fcsr, "fcsr"),
    (0x004, "uie"), (0x005, "utvec"), (0x040, "uscratch"), (0x041, "uepc"),
    (0x042, "ucause"), (0x043, "utval"), (0x044, "uip"),
    (0xc00, "cycle"), (0xc01, "time"), (0xc02, "instret"),
    (0xc80, "cycleh"), (0xc81, "timeh"), (0xc82, "instreth"),
    -- supervisor
    (0x100, "sstatus"), (0x102, "sedeleg"), (0x103, "sideleg"), (0x104, "sie"),
    (0x105, "stvec"), (0x106, "scounteren"), (0x140, "sscratch"), (0x141, "sepc"),
    (0x142, "scause"), (0x143, "stval"), (0x144, "sip"), (0x180, "satp"),
    -- hypervisor
    (0x200, "hstatus"), (0x202, "hedeleg"), (0x203, "hideleg"), (0x204, "hie"),
    (0x205, "htvec"), (0x240, "hscratch"), (0x241, "hepc"), (0x242, "hcause"),
    (0x243, "hbadaddr"), (0x244, "hip"),
    -- machine
    (0xf11, "mvendorid"), (0xf12, "marchid"), (0xf13, "mimpid"), (0xf14, "mhartid"),
    (0x300, "mstatus"), (0x301, "misa"), (0x302, "medeleg"), (0x303, "mideleg"),
    (0x304, "mie"), (0x305, "mtvec"), (0x306, "mcounteren"), (0x320, "mucounteren"),
    (0x321, "mscounteren"), (0x322, "mhcounteren"), (0x340, "mscratch"), (0x341, "mepc"),
    (0x342, "mcause"), (0x343, "mtval"), (0x344, "mip"), (0x380, "mbase"),
    (0x381, "mbound"), (0x382, "mibase"), (0x383, "mibound"), (0x384, "mdbase"),
    (0x385, "mdbound"), (0xb00, "mcycle"), (0xb02, "minstret"), (0xb80, "mcycleh"),
    (0xb82, "minstreth"),
    -- debug and trigger
    (0x7a0, "tselect"), (0x7a1, "tdata1"), (0x7a2, "tdata2"), (0x7a3, "tdata3"),
    (0x7b0, "dcsr"), (0x7b1, "dpc"), (0x7b2, "dscratch") ]

/-- A numbered family: the member at address `first + i` is written
`stem ++ number ++ tail`, where the number is its distance from `origin`. -/
structure Family where
  /-- The address of the first member. -/
  first : Nat
  /-- The address of the last member. -/
  last : Nat
  /-- The address that has number zero, which may lie before the first member. -/
  origin : Nat
  /-- The text before the number. -/
  stem : String
  /-- The text after the number. -/
  tail : String

/-- The numbered families. -/
def families : List Family :=
  [ ⟨0xc03, 0xc1f, 0xc00, "hpmcounter", ""⟩,
    ⟨0xc83, 0xc9f, 0xc80, "hpmcounter", "h"⟩,
    ⟨0x323, 0x33f, 0x320, "mhpmevent", ""⟩,
    ⟨0x3a0, 0x3a3, 0x3a0, "pmpcfg", ""⟩,
    ⟨0x3b0, 0x3bf, 0x3b0, "pmpaddr", ""⟩,
    ⟨0xb03, 0xb1f, 0xb00, "mhpmcounter", ""⟩,
    ⟨0xb83, 0xb9f, 0xb80, "mhpmcounter", "h"⟩ ]

/-- Whether an address belongs to a family. -/
def Family.contains (f : Family) (address : Nat) : Bool :=
  f.first ≤ address && address ≤ f.last

/-- The name of a family's member. -/
def Family.name (f : Family) (address : Nat) : String :=
  f.stem ++ Text.natural (address - f.origin) ++ f.tail

/-- The name a register has of its own or as a member of a family. -/
def name? (address : Nat) : Option String :=
  (named.lookup address).or ((families.find? (·.contains address)).map (·.name address))

/-- The text a register prints as. -/
def name (address : Nat) : String :=
  (name? address).getD ("0x" ++ Text.hexPadded 3 address)

end RiscV.Csr
