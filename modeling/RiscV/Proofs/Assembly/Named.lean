import RiscV.Proofs.Assembly.Shown
import RiscV.Proofs.Text.Numeral

/-!
# Every operand has its name

The tables of names end somewhere: a register beyond 31 or a rounding mode beyond 7 prints
as a placeholder with question marks, and a control and status register beyond 4095 as a
longer numeral.  A form reads its operands from fields that are too narrow for that,
whatever the word is and whether or not a definition accepts it.  So no placeholder is
ever printed.

## Main definitions

* `Operand.Named` — the tables have a name for what an operand refers to.

## Main results

* `Form.named_write` — the operands written have names.
* `Form.question_notMem_mnemonics`, `Assembly.notMem_text` — neither the mnemonic nor what
  joins the operands adds a question mark.
* `Csr.spells_name` — a register without a name prints as three hexadecimal digits.
* `Form.named_render` — **no form prints a placeholder, for any word.**
-/

namespace RiscV

/-! ### Operands with a name -/

namespace Operand

/-- What the operand refers to has a name: its registers are below 32, its control and
status register is below 4096, and its rounding mode is one of the seven before the
dynamic one, which is not written. -/
def Named : Operand → Prop
  | register _ index => index < 32
  | indirect base | memory _ base => base < 32
  | csr address => address < 4096
  | rounding mode => mode < 7
  | _ => True

/-- The operand shows numbers of the instruction: a control and status register is the one
read off the word, and so is a rounding mode, which is not the dynamic one. -/
def Shows (o : Operands) : Operand → Prop
  | csr address => address = o.csr
  | rounding mode => mode = o.rm ∧ mode ≠ RoundingMode.dynamic
  | _ => True

theorem Named.inRange {a : Operand} (h : a.Named) : a.InRange := by
  cases a with
  | csr address => trivial
  | rounding mode => exact Nat.lt_succ_of_lt h
  | _ => exact h

end Operand

namespace Form

open Operand

theorem shows_write (form : Form) (name : String) (o : Operands) (goal : Int → Address) :
    ∀ a ∈ (form.write name o goal).operands, a.Shows o := by
  cases form
  case floatToIntRounded =>
    -- the one form that writes a mode, unless it is the dynamic one
    simp only [write]
    split
    · simp [Shows]
    · next hmode => simpa [Shows] using hmode
  all_goals
    simp only [write, writeAddImm, writeJumpRegister, writeCsr, writePlainCsr, writeCsrImm,
      Assembly.illegal]
    repeat' split
    all_goals
      simp only [List.forall_mem_cons, List.not_mem_nil, false_imp_iff, implies_true, Shows,
        and_true]

/-- **The operands written have names**, if the operands read are within their limits. -/
theorem named_write (form : Form) (name : String) {o : Operands} (h : o.Bounded)
    (goal : Int → Address) : ∀ a ∈ (form.write name o goal).operands, a.Named := by
  intro a ha
  have hrange := form.inRange_write name h goal a ha
  have hshows := form.shows_write name o goal a ha
  cases a with
  | csr address =>
    have hcsr : o.csr < 4096 := Int.ofNat_lt.mp (h .csr).2
    rwa [← show address = o.csr from hshows] at hcsr
  | rounding mode =>
    have hlt : mode < 8 := hrange
    have hne : mode ≠ 7 := hshows.2
    show mode < 7
    omega
  | _ => exact hrange

/-! ### Mnemonics -/

/-- What stands in a text after a replacement stood there before or is new. -/
theorem mem_replaceFirst {old new cs : List Char} {c : Char}
    (h : c ∈ Mnemonic.replaceFirst old new cs) : c ∈ new ∨ c ∈ cs := by
  induction cs with
  | nil => exact .inr h
  | cons d cs ih =>
    rw [Mnemonic.replaceFirst] at h
    split at h
    · rcases List.mem_append.mp h with h | h
      · exact .inl h
      · exact .inr (List.mem_of_mem_drop h)
    · rcases List.mem_cons.mp h with rfl | h
      · exact .inr List.mem_cons_self
      · exact (ih h).imp_right (List.mem_cons_of_mem d)

/-- No mnemonic has a question mark, unless the name of the instruction has one. -/
theorem question_notMem_mnemonics (form : Form) {name : List Char} (h : '?' ∉ name) :
    ∀ m ∈ form.mnemonics name, '?' ∉ m := by
  have hnegation : '?' ∉ Mnemonic.replaceFirst ['s', 'u', 'b'] ['n', 'e', 'g'] name := by
    intro hmem
    rcases mem_replaceFirst hmem with hmem | hmem
    · contradiction
    · exact h hmem
  have hdrop : '?' ∉ name.drop 4 := fun hmem => h (List.mem_of_mem_drop hmem)
  cases form
  case csr =>
    simp only [mnemonics]
    split
    · simp [h, hdrop]
    · split <;> simp [h, hdrop]
  case csrImm =>
    simp only [mnemonics]
    split <;> simp [h, hdrop]
  all_goals simp [mnemonics, h, hnegation]

end Form

/-! ### Lines -/

/-- What stands in neither the mnemonic nor an operand, and is not what joins them, does not
stand in the text. -/
theorem Assembly.notMem_text {a : Assembly} {c : Char} (hmnemonic : c ∉ a.mnemonic.toList)
    (hoperands : ∀ o ∈ a.operands, c ∉ o.text.toList) (hspace : c ≠ ' ') (hcomma : c ≠ ',') :
    c ∉ a.text.toList := by
  by_cases hnil : a.operands = []
  · rwa [text, hnil]
  · rw [toList_text hnil, List.mem_append, List.mem_cons, List.map_map]
    rintro (h | h | h)
    · exact hmnemonic h
    · exact hspace h
    · rcases Text.eq_or_mem_of_mem_intercalate h with h | ⟨part, hpart, h⟩
      · exact hcomma h
      · obtain ⟨o, ho, rfl⟩ := List.mem_map.mp hpart
        exact hoperands o ho h

/-- A control and status register without a name prints as three hexadecimal digits. -/
theorem Csr.spells_name {address : Nat} (hnone : name? address = none) (hlt : address < 4096) :
    ∃ digits, (name address).toList = '0' :: 'x' :: digits ∧ Text.Spells digits 3 address := by
  refine ⟨_, ?_, Text.spells_hexPadded (by decide) hlt⟩
  rw [name, hnone, Option.getD_none, String.toList_append]
  rfl

theorem RoundingMode.name_ne_dynamic {mode : Nat} (h : mode < 7) : name mode ≠ "dyn" := by
  intro hname
  have hdynamic := name_injective (i := mode) (j := 7) (by omega) (by decide) hname
  omega

namespace Form

/-- **No form prints a placeholder, for any word.**

For every form, name, word, address and mask, the registers that the line refers to are
below 32, its rounding mode below 7 and its control and status register below 4096.  So the
line has a question mark only if the name of the instruction has one, its rounding mode is
not `dyn`, and a control and status register without a name is written as `0x` and three
hexadecimal digits. -/
theorem named_render (form : Form) (name : String) (pc : Address) (w : Word) (mask : Address) :
    (∀ a ∈ (form.render name pc w mask).operands, a.Named) ∧
    ('?' ∉ name.toList → '?' ∉ (form.render name pc w mask).text.toList) ∧
    (∀ mode, .rounding mode ∈ (form.render name pc w mask).operands →
      (Operand.rounding mode).text ≠ "dyn") ∧
    ∀ address, .csr address ∈ (form.render name pc w mask).operands →
      Csr.name? address = none → ∃ digits,
        (Operand.csr address).text.toList = '0' :: 'x' :: digits ∧
          Text.Spells digits 3 address := by
  have hnamed : ∀ a ∈ (form.render name pc w mask).operands, a.Named :=
    form.named_write name (form.bounded_operands w) _
  refine ⟨hnamed, ?_, ?_, ?_⟩
  · intro hname
    refine Assembly.notMem_text ?_ ?_ (by decide) (by decide)
    · exact form.question_notMem_mnemonics hname _ (form.mnemonic_mem name _ _)
    · intro a ha
      exact (Operand.worded_text (hnamed a ha).inRange).notMem (by decide)
  · intro mode hmode
    exact RoundingMode.name_ne_dynamic (hnamed _ hmode)
  · intro address haddress hnone
    exact Csr.spells_name hnone (hnamed _ haddress)

/-- A conversion with all operand bits set but for the rounding mode, in a word that no
definition accepts, and an access to a register without a name.  A short register reads
only its three bits, whatever the high half of the word is. -/
theorem named_render_unmatched :
    (floatToIntRounded.render "fcvt.w.s" 0#64 0xffffefff#32 0#64).text = "fcvt.w.s t6,ft11,rm6" ∧
      (csr.render "csrrw" 0#64 0x7c0fffff#32 0#64).text = "csrrw t6,0x7c0,t6" ∧
      (cArith.render "c.sub" 0#64 0xffffffff#32 0#64).text = "c.sub a5,a5,a5" ∧
      '?' ∉ (cArith.render "c.sub" 0#64 0xffffffff#32 0#64).text.toList ∧
      (Operand.rounding 6).text ≠ "dyn" ∧
      ∃ digits, (Operand.csr 0x7c0).text.toList = '0' :: 'x' :: digits ∧
        Text.Spells digits 3 0x7c0 := by
  have hrounding := named_render floatToIntRounded "fcvt.w.s" 0#64 0xffffefff#32 0#64
  have hcsr := named_render csr "csrrw" 0#64 0x7c0fffff#32 0#64
  have hshort := named_render cArith "c.sub" 0#64 0xffffffff#32 0#64
  refine ⟨by decide +kernel, by decide +kernel, by decide +kernel, ?_, ?_, ?_⟩
  · exact hshort.2.1 (by decide)
  · exact hrounding.2.2.1 6 (by decide +kernel)
  · exact hcsr.2.2.2 0x7c0 (by decide +kernel) (by decide +kernel)

end Form
end RiscV
