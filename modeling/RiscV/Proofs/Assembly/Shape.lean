import Mathlib.Data.List.TakeWhile
import RiscV.Proofs.Assembly.Text

/-!
# The shape of assembly text

A text is a mnemonic, and if there are operands a space and the operands, with commas
between them.  Mnemonics and operands consist of visible characters other than the comma,
so the one space and the commas are where a reader expects them, and the operands can be
read off the text.

## Main definitions

* `Text.Plain` — visible characters without a comma, and at least one.
* `Assembly.Parts` — a text consists of a mnemonic and operands.
* `Assembly.operandsOf` — the operands of a text, as a reader finds them.

## Main results

* `Operand.plain_text` — the text of an operand is plain.
* `Assembly.parts_text` — the text of a line consists of its mnemonic and operands.
* `Assembly.Parts.count_space`, `Assembly.Parts.notMem` — a text has a space only before
  its operands, and no other blank.
* `Assembly.Parts.operandsOf_eq` — a reader finds the operands.
-/

namespace RiscV

/-! ### Plain text -/

namespace Text

/-- A visible character other than the comma. -/
def isPlain (c : Char) : Bool := 0x21 ≤ c.toNat && c.toNat ≤ 0x7e && c != ','

/-- The text is not empty and has visible characters only, without a comma. -/
def Plain (cs : List Char) : Prop := cs ≠ [] ∧ ∀ c ∈ cs, isPlain c = true

instance : DecidablePred Plain := fun cs =>
  decidable_of_iff ((!cs.isEmpty && cs.all isPlain) = true) (by simp [Plain])

theorem Plain.notMem {cs : List Char} (h : Plain cs) {c : Char} (hc : isPlain c = false) :
    c ∉ cs := by
  intro hmem
  rw [h.2 c hmem] at hc
  contradiction

theorem isPlain_of_isWorded {c : Char} (h : isWorded c = true) : isPlain c = true := by
  have hcomma : c ≠ ',' := by
    rintro rfl
    contradiction
  have hmarks : ['(', ')', '-', '<', '>'].all (fun d => 0x21 ≤ d.toNat && d.toNat ≤ 0x7e) = true :=
    rfl
  simp only [isWorded, Bool.or_eq_true, Bool.and_eq_true, decide_eq_true_eq, List.contains_iff_mem]
    at h
  simp only [isPlain, Bool.and_eq_true, decide_eq_true_eq, bne_iff_ne]
  refine ⟨?_, hcomma⟩
  rcases h with (h | h) | h
  · omega
  · omega
  · simpa using List.all_eq_true.mp hmarks c h

end Text

/-! ### Operands -/

/-- **The text of an operand is plain**, if the registers and modes it names exist. -/
theorem Operand.plain_text {a : Operand} (ha : a.InRange) : Text.Plain a.text.toList :=
  ⟨(worded_text ha).1, fun c hc => Text.isPlain_of_isWorded ((worded_text ha).2 c hc)⟩

/-! ### Lines -/

namespace Assembly

/-- The text is the mnemonic, with a space and the operands behind it if there are any,
which are joined by commas; all of them are plain. -/
structure Parts (text mnemonic : List Char) (operands : List (List Char)) : Prop where
  /-- The mnemonic is plain. -/
  plain_mnemonic : Text.Plain mnemonic
  /-- The operands are plain. -/
  plain_operands : ∀ o ∈ operands, Text.Plain o
  /-- What the text is made of. -/
  text_eq : text
    = if operands = [] then mnemonic else mnemonic ++ ' ' :: [','].intercalate operands

/-- **The text of a line consists of its mnemonic and operands.** -/
theorem parts_text {a : Assembly} (hmnemonic : Text.Plain a.mnemonic.toList)
    (hoperands : ∀ o ∈ a.operands, o.InRange) :
    Parts a.text.toList a.mnemonic.toList (a.operands.map fun o => o.text.toList) where
  plain_mnemonic := hmnemonic
  plain_operands := by
    intro cs hcs
    obtain ⟨o, ho, rfl⟩ := List.mem_map.mp hcs
    exact Operand.plain_text (hoperands o ho)
  text_eq := by
    by_cases hnil : a.operands = []
    · rw [hnil, List.map_nil, if_pos rfl, text, hnil]
    · rw [if_neg (by simpa using hnil), toList_text hnil, List.map_map]
      rfl

namespace Parts

variable {text mnemonic : List Char} {operands : List (List Char)}

theorem ne_nil (h : Parts text mnemonic operands) : text ≠ [] := by
  rw [h.text_eq]
  split
  · exact h.plain_mnemonic.1
  · simp

/-- Operands that are joined have plain characters and commas only. -/
theorem notMem_intercalate (h : Parts text mnemonic operands) {c : Char}
    (hc : Text.isPlain c = false) (hcomma : c ≠ ',') : c ∉ [','].intercalate operands := by
  intro hmem
  rcases Text.eq_or_mem_of_mem_intercalate hmem with heq | ⟨o, ho, hmem⟩
  · exact hcomma heq
  · exact (h.plain_operands o ho).notMem hc hmem

/-- A text has no blank but the space, and nothing invisible. -/
theorem notMem (h : Parts text mnemonic operands) {c : Char} (hc : Text.isPlain c = false)
    (hspace : c ≠ ' ') (hcomma : c ≠ ',') : c ∉ text := by
  have hmnemonic := h.plain_mnemonic.notMem hc
  have hoperands := h.notMem_intercalate hc hcomma
  rw [h.text_eq]
  split
  · exact hmnemonic
  · simp [hmnemonic, hoperands, hspace]

/-- A text has one space if there are operands, and otherwise none. -/
theorem count_space (h : Parts text mnemonic operands) :
    text.count ' ' = if operands = [] then 0 else 1 := by
  have hmnemonic := List.count_eq_zero.mpr (h.plain_mnemonic.notMem (c := ' ') (by decide))
  have hoperands := List.count_eq_zero.mpr (h.notMem_intercalate (c := ' ') (by decide) (by decide))
  rw [h.text_eq]
  split
  · exact hmnemonic
  · rw [List.count_append, List.count_cons_self, hmnemonic, hoperands]

end Parts

/-- The operands of a text: what stands behind the first space, cut at the commas. -/
def operandsOf (text : List Char) : List (List Char) :=
  match text.dropWhile (· != ' ') with
  | [] => []
  | _ :: rest => rest.splitOn ','

/-- A reader finds the operands. -/
theorem Parts.operandsOf_eq {text mnemonic : List Char} {operands : List (List Char)}
    (h : Parts text mnemonic operands) : operandsOf text = operands := by
  have hspace := h.plain_mnemonic.notMem (c := ' ') (by decide)
  have hbefore : ∀ c ∈ mnemonic, (c != ' ') = true := by
    intro c hc
    rw [bne_iff_ne]
    rintro rfl
    exact hspace hc
  have hcomma : ∀ o ∈ operands, ',' ∉ o := fun o ho =>
    (h.plain_operands o ho).notMem (by decide)
  unfold operandsOf
  rw [h.text_eq]
  by_cases hnil : operands = []
  · rw [if_pos hnil, List.dropWhile_eq_nil_iff.mpr hbefore, hnil]
  · rw [if_neg hnil, List.dropWhile_append_of_pos hbefore,
      List.dropWhile_cons_of_neg (by decide)]
    exact List.splitOn_intercalate ',' hcomma hnil

end Assembly
end RiscV
