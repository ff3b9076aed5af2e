import RiscV.Form
import RiscV.Proofs.Operands.Wires

/-!
# How operands are read

Whatever the form of an instruction, each operand is read in the same way: wires
carry a number from the word, which is taken as it is or as a signed number, and
counted from a base.  The decoding of every form is brought to that shape here,
so that what holds of all operands is proved once.

## Main definitions

* `Slot` — the operands by name.
* `Reading`, `Reading.value` — how a number is read off a word.
* `Form.reading` — how a form reads an operand.

## Main results

* `Form.get_operands` — the operands of a form are those of its readings.
* `Reading.Proper.determines` — a number read determines the word bits it is read
  from.
* `Form.bounded_operands` — operands are within the limits of their slots.
* `Reading.Agree.value_eq` — readings that differ in wires from zero bits only
  give the same number.
-/

namespace RiscV

/-! ### Slots -/

/-- The operands of an instruction, by name. -/
inductive Slot
  | rd | rs1 | rs2 | rs3 | imm | csr | shamt | rm | aq | rl
  deriving DecidableEq, Repr

namespace Slot

/-- The operand as a number.  A flag counts as one. -/
def get : Slot → Operands → Int
  | rd, o => o.rd
  | rs1, o => o.rs1
  | rs2, o => o.rs2
  | rs3, o => o.rs3
  | imm, o => o.imm
  | csr, o => o.csr
  | shamt, o => o.shamt
  | rm, o => o.rm
  | aq, o => o.aq.toNat
  | rl, o => o.rl.toNat

/-- All slots. -/
def all : List Slot := [rd, rs1, rs2, rs3, imm, csr, shamt, rm, aq, rl]

theorem mem_all (slot : Slot) : slot ∈ all := by cases slot <;> decide

end Slot

/-! ### Readings -/

/-- How a number is read off a word. -/
structure Reading where
  /-- Where its bits come from. -/
  wires : List Wire := []
  /-- The number of bits, if it is signed. -/
  signed : Option Nat := none
  /-- Where counting starts. -/
  base : Nat := 0
  deriving DecidableEq, Repr

namespace Reading

/-- The number read off a word. -/
def value (r : Reading) (w : Word) : Int :=
  r.base + match r.signed with
    | none => (wired r.wires w : Int)
    | some n => Int.bmod (wired r.wires w) (2 ^ n)

/-- No two wires end in one place, and each ends within the number. -/
def Proper (r : Reading) : Prop :=
  (r.wires.map Wire.place).Nodup ∧
    ∀ wire ∈ r.wires, wire.place < 32 ∧ ∀ n ∈ r.signed, wire.place < n

instance (r : Reading) : Decidable r.Proper := inferInstanceAs (Decidable (_ ∧ _))

/-- **A number read determines the word bits it is read from.** -/
theorem Proper.determines {r : Reading} (h : r.Proper) {w w' : Word}
    (heq : r.value w = r.value w') {wire : Wire} (hwire : wire ∈ r.wires) :
    w.getLsbD wire.bit = w'.getLsbD wire.bit := by
  refine getLsbD_eq_of_wired_eq h.1 ?_ hwire
  unfold value at heq
  cases hsigned : r.signed with
  | none =>
    simp only [hsigned] at heq
    omega
  | some n =>
    simp only [hsigned] at heq
    have hlt : ∀ v, wired r.wires v < 2 ^ n := fun v =>
      wired_lt (fun wire hwire => (h.2 wire hwire).2 n hsigned) v
    -- both numbers are below the modulus, so equal remainders make them equal
    have hmod : (wired r.wires w : Int) % ((2 ^ n : Nat) : Int)
        = (wired r.wires w' : Int) % ((2 ^ n : Nat) : Int) := by
      rw [← Int.bmod_emod, ← Int.bmod_emod (x := (wired r.wires w' : Int)),
        Int.add_left_cancel heq]
    have hw := hlt w
    have hw' := hlt w'
    rw [Int.emod_eq_of_lt (by omega) (by omega), Int.emod_eq_of_lt (by omega) (by omega)] at hmod
    omega

/-- Two readings have the same base and sign, and the same wires but for wires
from bits that `zero` holds of. -/
def Agree (zero : Nat → Bool) (r r' : Reading) : Prop :=
  r.base = r'.base ∧ r.signed = r'.signed ∧
    (∀ wire ∈ r.wires, wire ∈ r'.wires ∨ zero wire.bit = true) ∧
    ∀ wire ∈ r'.wires, wire ∈ r.wires ∨ zero wire.bit = true

instance (zero : Nat → Bool) (r r' : Reading) : Decidable (Agree zero r r') :=
  inferInstanceAs (Decidable (_ ∧ _ ∧ _ ∧ _))

/-- **Readings that differ in wires from zero bits only give the same number.** -/
theorem Agree.value_eq {zero : Nat → Bool} {r r' : Reading} (h : Agree zero r r') {w : Word}
    (hzero : ∀ i, zero i = true → w.getLsbD i = false) : r.value w = r'.value w := by
  obtain ⟨hbase, hsigned, hsub, hsub'⟩ := h
  have hwired : wired r.wires w = wired r'.wires w := by
    apply wired_congr
    intro wire hbit
    have hne : zero wire.bit ≠ true := fun hz => by simp [hzero _ hz] at hbit
    exact ⟨fun hwire => (hsub wire hwire).resolve_right hne,
      fun hwire => (hsub' wire hwire).resolve_right hne⟩
  rw [value, value, hbase, hsigned, hwired]

/-! ### The range of a number -/

/-- The least number that can be read. -/
def least (r : Reading) : Int :=
  match r.signed with
  | none => r.base
  | some n => r.base - 2 ^ (n - 1)

/-- What every number that can be read is below. -/
def bound (r : Reading) : Int :=
  match r.signed with
  | none => r.base + 2 ^ extent r.wires
  | some n => r.base + 2 ^ (n - 1)

/-- Every number read lies in the range of its reading. -/
theorem value_range {r : Reading} (hsigned : ∀ n ∈ r.signed, 0 < n) (w : Word) :
    r.least ≤ r.value w ∧ r.value w < r.bound := by
  cases hs : r.signed with
  | none =>
    have hlt : wired r.wires w < 2 ^ extent r.wires :=
      wired_lt (fun _ hwire => place_lt_extent hwire) w
    have hcast : ((2 ^ extent r.wires : Nat) : Int) = 2 ^ extent r.wires := by push_cast; rfl
    simp only [least, bound, value, hs]
    omega
  | some n =>
    obtain ⟨hle, hlt, -⟩ := (Word.bmod_two_pow_eq_iff (x := wired r.wires w) (hsigned n hs)).mp rfl
    simp only [least, bound, value, hs]
    omega

end Reading

/-! ### Sources -/

/-- A range of word bits is what its run makes up. -/
theorem toNat_bits_eq_wired (w : Word) {hi lo : Nat} (h : hi - lo < 32) :
    (w.bits hi lo).toNat = wired (Run.wires ⟨hi, lo, 0⟩) w := by
  have hplaces : ∀ wire ∈ [(⟨hi, lo, 0⟩ : Run)].flatMap Run.wires, wire.place < 32 := by
    intro wire hwire
    rw [List.flatMap_singleton] at hwire
    obtain ⟨k, hk, rfl⟩ := Run.mem_wires.mp hwire
    simp only at hk ⊢
    omega
  have hgather := toNat_gather hplaces w
  rw [List.flatMap_singleton] at hgather
  rw [← hgather, gather_cons, gather_nil, Run.read]
  simp

/-- How a register number is read. -/
def RegisterSource.reading : RegisterSource → Reading
  | absent => {}
  | fixed index => { base := index }
  | full lo => { wires := Run.wires ⟨lo + 4, lo, 0⟩ }
  | short lo => { wires := Run.wires ⟨lo + 2, lo, 0⟩, base := 8 }

theorem RegisterSource.read_eq (s : RegisterSource) (w : Word) :
    (s.read w : Int) = s.reading.value w := by
  cases s with
  | absent => rfl
  | fixed index => simp [read, reading, Reading.value]
  | full lo => simp [read, reading, Reading.value, toNat_bits_eq_wired w]
  | short lo => simp [read, reading, Reading.value, toNat_bits_eq_wired w]

/-- How an unsigned number in runs is read. -/
def runsReading (rs : List Run) : Reading := { wires := rs.flatMap Run.wires }

theorem toNat_gather_eq {rs : List Run} (h : (runsReading rs).Proper) (w : Word) :
    ((gather rs w).toNat : Int) = (runsReading rs).value w := by
  rw [toNat_gather (fun wire hwire => (h.2 wire hwire).1) w]
  simp [runsReading, Reading.value]

/-- How an immediate is read. -/
def ImmediateSource.reading : ImmediateSource → Reading
  | absent => {}
  | signed width runs => { wires := runs.flatMap Run.wires, signed := some width }
  | unsigned runs => runsReading runs

theorem ImmediateSource.read_eq {s : ImmediateSource} (h : s.reading.Proper)
    (hwidth : ∀ n ∈ s.reading.signed, 0 < n ∧ n ≤ 32) (w : Word) :
    s.read w = s.reading.value w := by
  cases s with
  | absent => rfl
  | signed width runs =>
    obtain ⟨hpos, hle⟩ := hwidth width rfl
    rw [read, Word.signExtend_eq_bmod _ hpos hle,
      toNat_gather (fun wire hwire => (h.2 wire hwire).1) w]
    simp [reading, Reading.value]
  | unsigned runs => exact toNat_gather_eq h w

/-- How a flag is read. -/
def flagReading : Option Nat → Reading
  | none => {}
  | some n => { wires := [⟨0, n⟩] }

theorem readFlag_eq (flag : Option Nat) (w : Word) :
    ((readFlag flag w).toNat : Int) = (flagReading flag).value w := by
  cases flag with
  | none => rfl
  | some n => cases h : w.getLsbD n <;> simp [readFlag, flagReading, Reading.value, h]

/-! ### Encodings and forms -/

/-- How an operand is read in an encoding. -/
def Encoding.reading (e : Encoding) : Slot → Reading
  | .rd => e.rd.reading
  | .rs1 => e.rs1.reading
  | .rs2 => e.rs2.reading
  | .rs3 => e.rs3.reading
  | .imm => e.imm.reading
  | .csr => runsReading e.csr
  | .shamt => runsReading e.shamt
  | .rm => runsReading e.rm
  | .aq => flagReading e.aq
  | .rl => flagReading e.rl

/-- Decoding reads every operand as its reading says. -/
theorem Encoding.get_decode {e : Encoding} (h : ∀ slot, (e.reading slot).Proper)
    (hwidth : ∀ n ∈ e.imm.reading.signed, 0 < n ∧ n ≤ 32) (slot : Slot) (w : Word) :
    slot.get (e.decode w) = (e.reading slot).value w := by
  cases slot with
  | rd => exact e.rd.read_eq w
  | rs1 => exact e.rs1.read_eq w
  | rs2 => exact e.rs2.read_eq w
  | rs3 => exact e.rs3.read_eq w
  | imm => exact ImmediateSource.read_eq (h .imm) hwidth w
  | csr => exact toNat_gather_eq (h .csr) w
  | shamt => exact toNat_gather_eq (h .shamt) w
  | rm => exact toNat_gather_eq (h .rm) w
  | aq => exact readFlag_eq e.aq w
  | rl => exact readFlag_eq e.rl w

/-- All encodings. -/
def Encoding.all : List Encoding :=
  [r, r4, i, iCsr, iShift, s, b, u, j, cr, ca, ci, ciAddi16sp, ciLui, ciShift, ciLwsp, ciLdsp,
    cssSwsp, cssSdsp, ciw, clWord, clDouble, cbShift, cbAndi, cbBranch, cj]

namespace Form

theorem encoding_mem_all {form : Form} {e : Encoding} (h : form.encoding = some e) :
    e ∈ Encoding.all := by
  unfold Form.encoding at h
  split at h <;> first
    | contradiction
    | (obtain rfl := Option.some.inj h; simp [Encoding.all])

/-- How a form reads an operand.  A form that reads none has zero for each. -/
def reading (form : Form) (slot : Slot) : Reading :=
  match form.encoding with
  | some e => e.reading slot
  | none => {}

/-- What holds of every operand of every encoding holds of every operand of every
form. -/
theorem reading_induction {P : Slot → Reading → Prop}
    (hencoding : ∀ e ∈ Encoding.all, ∀ slot ∈ Slot.all, P slot (e.reading slot))
    (hnone : ∀ slot, P slot {}) (form : Form) (slot : Slot) : P slot (form.reading slot) := by
  unfold reading
  split
  · next e he => exact hencoding e (encoding_mem_all he) slot slot.mem_all
  · exact hnone slot

theorem proper_reading (form : Form) (slot : Slot) : (form.reading slot).Proper :=
  reading_induction (P := fun _ r => r.Proper) (by decide +kernel) (fun _ => by decide) form slot

theorem signed_reading (form : Form) (slot : Slot) :
    ∀ n ∈ (form.reading slot).signed, 0 < n ∧ n ≤ 32 :=
  reading_induction (P := fun _ r => ∀ n ∈ r.signed, 0 < n ∧ n ≤ 32) (by decide +kernel)
    (fun _ => by decide) form slot

/-- **The operands of a form are those of its readings.** -/
theorem get_operands (form : Form) (slot : Slot) (w : Word) :
    slot.get (form.operands w) = (form.reading slot).value w := by
  have hproper := proper_reading form
  have hwidth := signed_reading form .imm
  cases hencoding : form.encoding with
  | some e =>
    simp only [operands, reading, hencoding] at hproper hwidth ⊢
    exact Encoding.get_decode hproper hwidth slot w
  | none =>
    simp only [operands, reading, hencoding]
    cases slot <;> rfl

end Form

/-! ### The range of operands -/

/-- What the numbers in a slot are below: registers are numbered to 31, and an
immediate is a signed number of 32 bits. -/
def Slot.limit : Slot → Int
  | rd | rs1 | rs2 | rs3 => 32
  | imm => 2 ^ 31
  | csr => 4096
  | shamt => 64
  | rm => 8
  | aq | rl => 2

/-- Every operand is within the limits of its slot. -/
def Operands.Bounded (o : Operands) : Prop :=
  ∀ slot : Slot, -slot.limit ≤ slot.get o ∧ slot.get o < slot.limit

namespace Form

theorem reading_within (form : Form) (slot : Slot) :
    -slot.limit ≤ (form.reading slot).least ∧ (form.reading slot).bound ≤ slot.limit :=
  reading_induction (P := fun slot r => -slot.limit ≤ r.least ∧ r.bound ≤ slot.limit)
    (by decide +kernel) (fun slot => by cases slot <;> decide) form slot

/-- **The operands of a form are within their limits.** -/
theorem bounded_operands (form : Form) (w : Word) : (form.operands w).Bounded := by
  intro slot
  obtain ⟨hleast, hbound⟩ := form.reading_within slot
  obtain ⟨hle, hlt⟩ := Reading.value_range (fun n hn => (form.signed_reading slot n hn).1) w
  rw [form.get_operands]
  omega

/-- The immediate of an upper form is a multiple of 4096. -/
theorem dvd_imm_operands {form : Form} (h : form = upper ∨ form = cUpper) (w : Word) :
    4096 ∣ (form.operands w).imm := by
  have hform : ∃ n, 12 ≤ n ∧ (form.reading .imm).signed = some n ∧
      (form.reading .imm).base = 0 ∧ ∀ wire ∈ (form.reading .imm).wires, 12 ≤ wire.place := by
    rcases h with rfl | rfl
    · exact ⟨32, by decide, rfl, rfl, by decide +kernel⟩
    · exact ⟨18, by decide, rfl, rfl, by decide +kernel⟩
  obtain ⟨n, hn, hsigned, hbase, hplaces⟩ := hform
  have hget : (form.operands w).imm = (form.reading .imm).value w := form.get_operands .imm w
  have hwired : (4096 : Int) ∣ wired (form.reading .imm).wires w :=
    Int.natCast_dvd_natCast.mpr (two_pow_dvd_wired hplaces w)
  have hmodulus : (4096 : Int) ∣ ((2 ^ n : Nat) : Int) :=
    Int.natCast_dvd_natCast.mpr (Nat.pow_dvd_pow 2 hn)
  -- the remainder differs from the number by a multiple of the modulus
  have hbmod : (4096 : Int) ∣ Int.bmod (wired (form.reading .imm).wires w) (2 ^ n) :=
    (Int.dvd_iff_dvd_of_dvd_sub (Int.dvd_trans hmodulus Int.dvd_bmod_sub_self)).mpr hwired
  rw [hget, Reading.value, hsigned, hbase]
  simpa using hbmod

end Form

end RiscV
