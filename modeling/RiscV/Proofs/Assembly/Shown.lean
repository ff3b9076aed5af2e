import RiscV.Proofs.Assembly.Text
import RiscV.Proofs.Operands.Reading
import RiscV.Xlen

/-!
# What a line shows of the operands

A form writes some operands of its instruction and leaves out others; shorthands
leave out more, but only where what is left out can be told from the shorthand.
So a line determines the operands that its form shows.

## Main definitions

* `Form.shown` — the operands that a form shows.
* `Form.mnemonics` — the mnemonics that a form can write.
* `Form.kinds` — the kinds of operands that a form writes.

## Main results

* `Form.mnemonic_mem` — a form writes no other mnemonics.
* `Form.get_eq_of_write_eq` — the line determines the operands shown.
* `Form.get_eq_of_text_eq` — **the text of a line determines the operands shown.**
-/

namespace RiscV
namespace Form

open Operand

/-! ### Mnemonics -/

/-- The mnemonics that a form can write for an instruction, by their
characters. -/
def mnemonics (form : Form) (name : List Char) : List (List Char) :=
  match form with
  | sub => [name, Mnemonic.replaceFirst ['s', 'u', 'b'] ['n', 'e', 'g'] name]
  | loadReserved | atomic =>
    [name, name ++ ['.', 'a', 'q'], name ++ ['.', 'r', 'l'], name ++ ['.', 'a', 'q', 'r', 'l']]
  | addImm => [name, ['n', 'o', 'p'], ['l', 'i'], ['m', 'v']]
  | xorImm => [name, ['n', 'o', 't']]
  | jumpRegister | cJumpRegister => [name, ['r', 'e', 't']]
  | jump => [name, ['j']]
  | branch => [name, name ++ ['z']]
  | csr =>
    name :: ('c' :: 's' :: 'r' :: name.drop 4) ::
      if name = ['c', 's', 'r', 'r', 'w'] then
        [['f', 's', 'c', 's', 'r'], ['f', 's', 'f', 'l', 'a', 'g', 's']]
      else if name = ['c', 's', 'r', 'r', 's'] then
        [['c', 's', 'r', 'r'], ['f', 'r', 'c', 's', 'r'], ['f', 'r', 'f', 'l', 'a', 'g', 's']]
      else []
  | csrImm =>
    name :: ('c' :: 's' :: 'r' :: name.drop 4) ::
      if name = ['c', 's', 'r', 'r', 'w', 'i'] then
        [['f', 's', 'r', 'm', 'i'], ['f', 's', 'f', 'l', 'a', 'g', 's', 'i']]
      else []
  | cIllegal => [['i', 'l', 'l', 'e', 'g', 'a', 'l']]
  | cNop => [['n', 'o', 'p']]
  | _ => [name]

theorem writeOnly_mem (name : String) {l : List (List Char)} :
    (Mnemonic.writeOnly name).toList
      ∈ name.toList :: ('c' :: 's' :: 'r' :: name.toList.drop 4) :: l := by
  unfold Mnemonic.writeOnly
  split <;> simp

theorem writePlainCsr_mnemonic (name : String) (o : Operands) :
    (writePlainCsr name o).mnemonic = Mnemonic.writeOnly name ∨
      (writePlainCsr name o).mnemonic = name ∨
      name = "csrrs" ∧ (writePlainCsr name o).mnemonic = "csrr" := by
  unfold writePlainCsr readsOnly
  split
  · exact Or.inl rfl
  · split
    · next h =>
      simp only [Bool.and_eq_true, beq_iff_eq] at h
      exact Or.inr (Or.inr ⟨h.1.1, rfl⟩)
    · exact Or.inr (Or.inl rfl)

/-- The registers with mnemonics of their own. -/
theorem floatStem?_eq_some {address : Nat} {stem : String} (h : floatStem? address = some stem) :
    address = Csr.fcsr ∧ stem = "csr" ∨ address = Csr.fflags ∧ stem = "flags" := by
  unfold floatStem? at h
  split at h
  · next hfcsr => exact Or.inl ⟨hfcsr, (Option.some.inj h).symm⟩
  · split at h
    · next hfflags => exact Or.inr ⟨hfflags, (Option.some.inj h).symm⟩
    · contradiction

/-- The registers with mnemonics of their own for an immediate write. -/
theorem floatWriteImm?_eq_some {address : Nat} {short : String}
    (h : floatWriteImm? address = some short) :
    address = Csr.frm ∧ short = "fsrmi" ∨ address = Csr.fflags ∧ short = "fsflagsi" := by
  unfold floatWriteImm? at h
  split at h
  · next hfrm => exact Or.inl ⟨hfrm, (Option.some.inj h).symm⟩
  · split at h
    · next hfflags => exact Or.inr ⟨hfflags, (Option.some.inj h).symm⟩
    · contradiction

/-- **A form writes no mnemonics but those listed.** -/
theorem mnemonic_mem (form : Form) (name : String) (o : Operands) (goal : Int → Address) :
    (form.write name o goal).mnemonic.toList ∈ form.mnemonics name.toList := by
  -- an access that has no mnemonic of its own
  have hplain : (writePlainCsr name o).mnemonic.toList ∈ Form.csr.mnemonics name.toList := by
    rcases writePlainCsr_mnemonic name o with h | h | ⟨rfl, h⟩
    · rw [h]
      exact writeOnly_mem name
    · rw [h]
      exact List.mem_cons_self
    · rw [h]
      decide +kernel
  cases form
  case csr =>
    simp only [write, writeCsr]
    split
    · exact hplain
    · next stem hstem =>
      split
      · next hname =>
        subst hname
        rcases floatStem?_eq_some hstem with ⟨-, rfl⟩ | ⟨-, rfl⟩ <;> dsimp only <;> decide +kernel
      · split
        · next hreads =>
          simp only [readsOnly, Bool.and_eq_true, beq_iff_eq] at hreads
          obtain ⟨⟨rfl, -⟩, -⟩ := hreads
          rcases floatStem?_eq_some hstem with ⟨-, rfl⟩ | ⟨-, rfl⟩ <;> dsimp only <;>
            decide +kernel
        · exact hplain
  case csrImm =>
    simp only [write, writeCsrImm]
    split
    · next short hshort =>
      rcases floatWriteImm?_eq_some hshort with ⟨-, rfl⟩ | ⟨-, rfl⟩ <;> dsimp only <;>
        decide +kernel
    · split
      · exact writeOnly_mem _
      · exact List.mem_cons_self
  case sub =>
    simp only [write]
    split <;> simp [mnemonics, Mnemonic.negation]
  case loadReserved =>
    simp only [write, Mnemonic.ordering]
    cases o.aq <;> cases o.rl <;> simp [mnemonics]
  case atomic =>
    simp only [write, Mnemonic.ordering]
    cases o.aq <;> cases o.rl <;> simp [mnemonics]
  case addImm =>
    simp only [write, writeAddImm]
    repeat' split
    all_goals simp [mnemonics]
  case jumpRegister =>
    simp only [write, writeJumpRegister]
    repeat' split
    all_goals simp [mnemonics]
  case xorImm | jump | branch | cJumpRegister =>
    simp only [write]
    split <;> simp [mnemonics]
  case cIllegal | cNop => simp [write, Assembly.illegal, mnemonics]
  case floatToIntRounded | fence =>
    simp only [write]
    split <;> exact List.mem_cons_self
  all_goals exact List.mem_cons_self

/-! ### Operands in range -/

/-- The operands written are in range. -/
theorem inRange_write (form : Form) (name : String) {o : Operands} (h : o.Bounded)
    (goal : Int → Address) : ∀ a ∈ (form.write name o goal).operands, a.InRange := by
  have hrd : o.rd < 32 := Int.ofNat_lt.mp (h .rd).2
  have hrs1 : o.rs1 < 32 := Int.ofNat_lt.mp (h .rs1).2
  have hrs2 : o.rs2 < 32 := Int.ofNat_lt.mp (h .rs2).2
  have hrs3 : o.rs3 < 32 := Int.ofNat_lt.mp (h .rs3).2
  have hrm : o.rm < 8 := Int.ofNat_lt.mp (h .rm).2
  have hsp : Register.sp < 32 := by decide
  have hra : Register.ra < 32 := by decide
  cases form
  all_goals
    simp only [write, writeAddImm, writeJumpRegister, writeCsr, writePlainCsr, writeCsrImm,
      Assembly.illegal]
    repeat' split
    all_goals
      simp only [List.forall_mem_cons, List.not_mem_nil, false_imp_iff, implies_true, InRange, hrd,
        hrs1, hrs2, hrs3, hrm, hsp, hra, and_true]

/-! ### Kinds of operands -/

/-- Whether an instruction with the given name is one that a form is made for.
Only forms whose shorthands depend on the instruction are choosy. -/
def suits (form : Form) (name : String) : Bool :=
  match form with
  | csr => name == "csrrw" || name == "csrrs" || name == "csrrc"
  | csrImm => name == "csrrwi" || name == "csrrsi" || name == "csrrci"
  | addImm => name == "addi"
  | cNop => name == "c.nop"
  | jumpRegister => name == "jalr"
  | cJumpRegister => name == "c.jr"
  | _ => true

/-- The kinds of operands that a form writes after a mnemonic, given their
number. -/
def kinds (form : Form) (mnemonic : String) (count : Nat) : List Kind :=
  match form with
  | loadReserved | atomic => List.replicate (count - 1) .location ++ [.indirect]
  | floatToIntRounded => [.location, .location, .rounding].take count
  | addImm =>
    if mnemonic = "li" ∧ count = 2 then [.location, .immediate]
    else [.location, .location, .immediate].take count
  | xorImm => [.location, .location, .immediate].take count
  | arithImm | cAddSpWide | cAddImm | cAndImm | cLoadImm | cAddSp =>
    List.replicate (count - 1) .location ++ [.immediate]
  | shiftImm | upper | cUpper | cShift | cShiftShort =>
    List.replicate (count - 1) .location ++ [.marked]
  | jump | branch | cJump | cJumpLink | cBranch =>
    List.replicate (count - 1) .location ++ [.target]
  | csr =>
    if count = 3 then [.location, .csr, .location]
    else if mnemonic = "csrr" then [.location, .csr]
    else if mnemonic = "csrw" ∨ mnemonic = "csrs" ∨ mnemonic = "csrc" then [.csr, .location]
    else List.replicate count .location
  | csrImm =>
    if count = 3 then [.location, .csr, .immediate]
    else if mnemonic = "fsrmi" ∨ mnemonic = "fsflagsi" then
      List.replicate (count - 1) .location ++ [.immediate]
    else [.csr, .immediate]
  | unimplemented => [.placeholder]
  | _ => List.replicate count .location

/-- The mnemonic and the number of operands tell the kinds of the operands. -/
theorem map_kind_write {form : Form} {name : String} (h : form.suits name = true) (o : Operands)
    (goal : Int → Address) :
    (form.write name o goal).operands.map kind
      = form.kinds (form.write name o goal).mnemonic
          (form.write name o goal).operands.length := by
  cases form
  case csr =>
    simp only [suits, Bool.or_eq_true, beq_iff_eq, or_assoc] at h
    have hwriteOnly : Mnemonic.writeOnly name = "csrw" ∨ Mnemonic.writeOnly name = "csrs" ∨
        Mnemonic.writeOnly name = "csrc" := by
      rcases h with rfl | rfl | rfl <;> decide +kernel
    have hplain : (writePlainCsr name o).operands.map kind
        = Form.csr.kinds (writePlainCsr name o).mnemonic
            (writePlainCsr name o).operands.length := by
      unfold writePlainCsr
      split
      · rcases hwriteOnly with h | h | h <;> simp [h, kinds, kind]
      · split <;> simp [kinds, kind]
    simp only [write, writeCsr]
    split
    · exact hplain
    · next stem hstem =>
      split
      · rcases floatStem?_eq_some hstem with ⟨-, rfl⟩ | ⟨-, rfl⟩ <;> split <;> simp [kinds, kind]
      · split
        · rcases floatStem?_eq_some hstem with ⟨-, rfl⟩ | ⟨-, rfl⟩ <;> simp [kinds, kind]
        · exact hplain
  case csrImm =>
    simp only [suits, Bool.or_eq_true, beq_iff_eq, or_assoc] at h
    have hwriteOnly : Mnemonic.writeOnly name = "csrwi" ∨ Mnemonic.writeOnly name = "csrsi" ∨
        Mnemonic.writeOnly name = "csrci" := by
      rcases h with rfl | rfl | rfl <;> decide +kernel
    simp only [write, writeCsrImm]
    split
    · next short hshort =>
      rcases floatWriteImm?_eq_some hshort with ⟨-, rfl⟩ | ⟨-, rfl⟩ <;> split <;>
        simp [kinds, kind]
    · split
      · rcases hwriteOnly with h | h | h <;> simp [h, kinds, kind]
      · simp [kinds, kind]
  case addImm =>
    simp only [write, writeAddImm]
    repeat' split
    all_goals simp [kinds, kind]
  case jumpRegister =>
    simp only [write, writeJumpRegister]
    repeat' split
    all_goals rfl
  case sub | xorImm | floatToIntRounded | jump | branch | fence | cJumpRegister =>
    simp only [write]
    split <;> rfl
  all_goals rfl

/-! ### What is shown -/

/-- The operands that a form shows. -/
def shown : Form → List Slot
  | arith | sub | floatArith | floatCompare => [.rd, .rs1, .rs2]
  | loadReserved => [.rd, .rs1, .aq, .rl]
  | atomic => [.rd, .rs1, .rs2, .aq, .rl]
  | floatUnary | floatToInt | intToFloat | intToFloatRounded => [.rd, .rs1]
  | floatToIntRounded => [.rd, .rs1, .rm]
  | fused => [.rd, .rs1, .rs2, .rs3]
  | arithImm | addImm | xorImm | load _ | jumpRegister | cMemory _ _ => [.rd, .rs1, .imm]
  | shiftImm => [.rd, .rs1, .shamt]
  | store _ | branch => [.rs1, .rs2, .imm]
  | csr | csrImm => [.rd, .rs1, .csr]
  | fence => [.rs1, .rs2]
  | upper | jump | cAddSpWide | cAddImm | cLoadImm | cUpper | cAndImm | cLoadSp _ _ => [.rd, .imm]
  | cAddSp | cJump | cJumpLink => [.imm]
  | cShift | cShiftShort => [.rd, .shamt]
  | cArith | cAdd | cMove => [.rd, .rs2]
  | cBranch => [.rs1, .imm]
  | cJumpRegister | cJumpLinkRegister => [.rs1]
  | cStoreSp _ _ => [.rs2, .imm]
  | bare | cIllegal | cNop | unimplemented => []

/-! Some shorthands leave operands out.  For the forms with several of them, the
operands are read back from the line. -/

/-- The destination, the source and the immediate of an addition, read back from
its line. -/
def additionOf : Assembly → Option (Nat × Nat × Int)
  | ⟨_, []⟩ => some (0, 0, 0)
  | ⟨_, [.register _ rd, .immediate n]⟩ => some (rd, 0, n)
  | ⟨_, [.register _ rd, .register _ rs1]⟩ => some (rd, rs1, 0)
  | ⟨_, [.register _ rd, .register _ rs1, .immediate n]⟩ => some (rd, rs1, n)
  | _ => none

theorem additionOf_writeAddImm (name : String) (o : Operands) :
    additionOf (writeAddImm name o) = some (o.rd, o.rs1, o.imm) := by
  unfold writeAddImm
  split
  · next h =>
    obtain ⟨hrd, hrs1, himm⟩ := h
    rw [additionOf, hrd, hrs1, himm, Register.zero]
  · split
    · next hrs1 => rw [additionOf, hrs1, Register.zero]
    · split
      · next himm => rw [additionOf, himm]
      · rfl

/-- The link, the base and the offset of a jump to a register, read back from its
line. -/
def jumpOf : Assembly → Option (Nat × Nat × Int)
  | ⟨_, []⟩ => some (Register.zero, Register.ra, 0)
  | ⟨_, [.register _ rs1]⟩ => some (Register.ra, rs1, 0)
  | ⟨_, [.memory offset rs1]⟩ => some (Register.ra, rs1, offset)
  | ⟨_, [.register _ rd, .register _ rs1]⟩ => some (rd, rs1, 0)
  | ⟨_, [.register _ rd, .memory offset rs1]⟩ => some (rd, rs1, offset)
  | _ => none

theorem jumpOf_writeJumpRegister (name : String) (o : Operands) :
    jumpOf (writeJumpRegister name o) = some (o.rd, o.rs1, o.imm) := by
  unfold writeJumpRegister
  dsimp only
  split
  · next h =>
    obtain ⟨hrd, hrs1, himm⟩ := h
    rw [jumpOf, hrd, hrs1, himm]
  · split
    · next hrd =>
      split
      · next himm => rw [jumpOf, hrd, himm]
      · rw [jumpOf, hrd]
    · split
      · next himm => rw [jumpOf, himm]
      · rfl

/-- The destination, the register accessed and the source of an access, read back
from its line. -/
def accessOf : Assembly → Option (Nat × Nat × Nat)
  | ⟨_, [.register _ rd, .csr c, .register _ rs1]⟩ => some (rd, c, rs1)
  | ⟨_, [.csr c, .register _ rs1]⟩ => some (0, c, rs1)
  | ⟨_, [.register _ rd, .csr c]⟩ => some (rd, c, 0)
  | ⟨m, [.register _ rd, .register _ rs1]⟩ =>
    some (rd, if m = "fscsr" then Csr.fcsr else Csr.fflags, rs1)
  | ⟨m, [.register _ r]⟩ =>
    if m = "fscsr" then some (0, Csr.fcsr, r)
    else if m = "fsflags" then some (0, Csr.fflags, r)
    else if m = "frcsr" then some (r, Csr.fcsr, 0)
    else some (r, Csr.fflags, 0)
  | _ => none

/-- The line of an access determines its operands. -/
theorem accessOf_writeCsr (name : String) (o : Operands) :
    accessOf (writeCsr name o) = some (o.rd, o.csr, o.rs1) := by
  have hreads : readsOnly name o = true → o.rs1 = 0 := by
    intro h
    simp only [readsOnly, Bool.and_eq_true, beq_iff_eq] at h
    exact h.1.2
  have hplain : accessOf (writePlainCsr name o) = some (o.rd, o.csr, o.rs1) := by
    unfold writePlainCsr
    split
    · next hrd => rw [accessOf, hrd, Register.zero]
    · split
      · next h => rw [accessOf, hreads h]
      · rfl
  unfold writeCsr
  split
  · exact hplain
  · next stem hstem =>
    split
    · rcases floatStem?_eq_some hstem with ⟨hcsr, rfl⟩ | ⟨hcsr, rfl⟩ <;> split <;>
        simp_all [accessOf, Register.zero]
    · split
      · next h =>
        rcases floatStem?_eq_some hstem with ⟨hcsr, rfl⟩ | ⟨hcsr, rfl⟩ <;>
          simp [accessOf, hcsr, hreads h]
      · exact hplain

/-- The destination, the register accessed and the immediate of an access, read
back from its line. -/
def immediateAccessOf : Assembly → Option (Nat × Nat × Int)
  | ⟨_, [.register _ rd, .csr c, .immediate n]⟩ => some (rd, c, n)
  | ⟨_, [.csr c, .immediate n]⟩ => some (0, c, n)
  | ⟨m, [.register _ rd, .immediate n]⟩ =>
    some (rd, if m = "fsrmi" then Csr.frm else Csr.fflags, n)
  | ⟨m, [.immediate n]⟩ => some (0, if m = "fsrmi" then Csr.frm else Csr.fflags, n)
  | _ => none

/-- The line of an immediate access determines its operands. -/
theorem immediateAccessOf_writeCsrImm (name : String) (o : Operands) :
    immediateAccessOf (writeCsrImm name o) = some (o.rd, o.csr, (o.rs1 : Int)) := by
  unfold writeCsrImm
  split
  · next short hshort =>
    rcases floatWriteImm?_eq_some hshort with ⟨hcsr, rfl⟩ | ⟨hcsr, rfl⟩ <;> split <;>
      simp_all [immediateAccessOf, Register.zero]
  · split
    · next hrd => rw [immediateAccessOf, hrd, Register.zero]
    · rfl

theorem ordering_injective {name : String} {o o' : Operands}
    (h : name ++ Mnemonic.ordering o = name ++ Mnemonic.ordering o') :
    o.aq = o'.aq ∧ o.rl = o'.rl := by
  have hordering := String.append_right_inj _ |>.mp h
  unfold Mnemonic.ordering at hordering
  revert hordering
  cases o.aq <;> cases o.rl <;> cases o'.aq <;> cases o'.rl <;> simp

/-- The upper field of a multiple of 4096 determines it. -/
theorem upperField_injective {m n : Int} (hm : 4096 ∣ m) (hn : 4096 ∣ n)
    (hm' : -2 ^ 31 ≤ m ∧ m < 2 ^ 31) (hn' : -2 ^ 31 ≤ n ∧ n < 2 ^ 31)
    (h : upperField m = upperField n) : m = n := by
  unfold upperField at h
  omega

/-- What is known of the operands that a form writes: they are within their
limits, and an upper immediate has its lowest twelve bits clear. -/
structure Admits (form : Form) (o : Operands) : Prop where
  /-- The operands are within their limits. -/
  bounded : o.Bounded
  /-- The lowest bits of an upper immediate are clear. -/
  upper : form = .upper ∨ form = .cUpper → 4096 ∣ o.imm

theorem admits_operands (form : Form) (w : Word) : form.Admits (form.operands w) :=
  ⟨form.bounded_operands w, fun h => dvd_imm_operands h w⟩

/-- **The line determines the operands shown**, as far as a target determines its
offset. -/
theorem get_eq_of_write_eq {form : Form} {name : String} {o o' : Operands}
    {goal : Int → Address} (ho : form.Admits o) (ho' : form.Admits o')
    (hgoal : goal o.imm = goal o'.imm → o.imm = o'.imm)
    (h : form.write name o goal = form.write name o' goal) :
    ∀ slot ∈ form.shown, slot.get o = slot.get o' := by
  cases form
  case csr =>
    have haccess := congrArg accessOf h
    simp only [write, accessOf_writeCsr, Option.some.injEq, Prod.mk.injEq] at haccess
    simp [shown, Slot.get, haccess]
  case csrImm =>
    have haccess := congrArg immediateAccessOf h
    simp only [write, immediateAccessOf_writeCsrImm, Option.some.injEq, Prod.mk.injEq] at haccess
    simp [shown, Slot.get, haccess]
  case loadReserved =>
    simp only [write, Assembly.mk.injEq] at h
    have hordering := ordering_injective h.1
    simp_all [shown, Slot.get]
  case atomic =>
    simp only [write, Assembly.mk.injEq] at h
    have hordering := ordering_injective h.1
    simp_all [shown, Slot.get]
  case upper =>
    simp only [write, Assembly.mk.injEq, List.cons.injEq, register.injEq, marked.injEq] at h
    have himm := upperField_injective (ho.upper (Or.inl rfl)) (ho'.upper (Or.inl rfl))
      (ho.bounded .imm) (ho'.bounded .imm) h.2.2.1
    simp [shown, Slot.get, h.2.1.2, himm]
  case cUpper =>
    simp only [write, Assembly.mk.injEq, List.cons.injEq, register.injEq, marked.injEq] at h
    have himm := upperField_injective (ho.upper (Or.inr rfl)) (ho'.upper (Or.inr rfl))
      (ho.bounded .imm) (ho'.bounded .imm) h.2.2.1
    simp [shown, Slot.get, h.2.1.2, himm]
  case addImm =>
    have hback := congrArg additionOf h
    simp only [write, additionOf_writeAddImm, Option.some.injEq, Prod.mk.injEq] at hback
    simp [shown, Slot.get, hback]
  case jumpRegister =>
    have hback := congrArg jumpOf h
    simp only [write, jumpOf_writeJumpRegister, Option.some.injEq, Prod.mk.injEq] at hback
    simp [shown, Slot.get, hback]
  -- these have a shorthand, which differs in length from the full line
  case sub | xorImm | floatToIntRounded | jump | branch | fence | cJumpRegister =>
    simp only [write] at h
    split at h <;> split at h <;> simp_all [shown, Slot.get]
  all_goals
    simp only [write, Assembly.mk.injEq, List.cons.injEq, register.injEq, immediate.injEq,
      marked.injEq, target.injEq, memory.injEq, true_and, and_true] at h
    simp [shown, Slot.get, h, hgoal]

/-- **The text of a line determines the operands shown.**  Two words of an
instruction whose mnemonics have no space are written alike only if they have the
same operands in the slots that the form shows. -/
theorem get_eq_of_text_eq {form : Form} {name : String} (hname : form.suits name = true)
    (hspace : ∀ m ∈ form.mnemonics name.toList, ' ' ∉ m) {o o' : Operands}
    {goal : Int → Address} (ho : form.Admits o) (ho' : form.Admits o')
    (hgoal : goal o.imm = goal o'.imm → o.imm = o'.imm)
    (h : (form.write name o goal).text = (form.write name o' goal).text) :
    ∀ slot ∈ form.shown, slot.get o = slot.get o' := by
  have hrange := inRange_write form name ho.bounded goal
  have hrange' := inRange_write form name ho'.bounded goal
  obtain ⟨hmnemonic, htexts⟩ := Assembly.text_inj (hspace _ (mnemonic_mem form name o goal))
    (hspace _ (mnemonic_mem form name o' goal)) hrange hrange' h
  -- the kinds are equal, so that operands can be compared by their texts
  have hcount : (form.write name o goal).operands.length
      = (form.write name o' goal).operands.length := by
    simpa using congrArg List.length htexts
  have hkinds : (form.write name o goal).operands.map kind
      = (form.write name o' goal).operands.map kind := by
    rw [map_kind_write hname, map_kind_write hname, hmnemonic, hcount]
  have hoperands := map_text_injective hkinds hrange hrange' htexts
  exact get_eq_of_write_eq ho ho' hgoal (Assembly.mk.injEq .. |>.mpr ⟨hmnemonic, hoperands⟩)

/-! ### Targets -/

/-- A target determines the offset that leads to it, for offsets of 32 bits: they
are told apart even where addresses have only 32 bits. -/
theorem goal_injective (xlen : Xlen) (pc : Address) {m n : Int}
    (hm : -2 ^ 31 ≤ m ∧ m < 2 ^ 31) (hn : -2 ^ 31 ≤ n ∧ n < 2 ^ 31)
    (h : goal pc (addressMask xlen.bits) m = goal pc (addressMask xlen.bits) n) : m = n := by
  have hlow : ∀ a : Address, (a &&& addressMask xlen.bits).toNat % 2 ^ 32 = a.toNat % 2 ^ 32 := by
    intro a
    cases xlen with
    | rv32 =>
      have hmask : (addressMask Xlen.rv32.bits).toNat = 2 ^ 32 - 1 := by decide
      rw [BitVec.toNat_and, hmask, Nat.and_two_pow_sub_one_eq_mod, Nat.mod_mod]
    | rv64 =>
      have hmask : addressMask Xlen.rv64.bits = BitVec.allOnes 64 := by decide
      rw [hmask, BitVec.and_allOnes]
    | rv128 =>
      have hmask : addressMask Xlen.rv128.bits = BitVec.allOnes 64 := by decide
      rw [hmask, BitVec.and_allOnes]
  -- two offsets with the same target differ by a multiple of the address space
  have hnat := congrArg (fun a : Address => a.toNat % 2 ^ 32) h
  simp only [goal, hlow, BitVec.toNat_add, BitVec.toNat_ofInt] at hnat
  omega

end Form
end RiscV
