import RiscV.Assembly
import RiscV.Proofs.Csr

/-!
# Assembly text is unambiguous

The text of a line determines its mnemonic and the texts of its operands.  The
text of an operand determines the operand, once it is known what kind it is: an
address may look like a number or a register.

## Main definitions

* `Operand.kind` — what an operand is, as far as it can be told from its place.
* `Operand.InRange` — an operand names registers and modes that exist.
* `Text.Worded` — letters, digits and the marks of operands.

## Main results

* `RegisterFile.name_injective` — the name of a register determines it.
* `Operand.text_injective` — the text of an operand of known kind determines it.
* `Operand.worded_text` — which characters the text of an operand consists of.
* `Assembly.text_inj` — the text of a line determines its mnemonic and the texts
  of its operands.
-/

namespace RiscV

/-! ### Letters, digits and marks -/

namespace Text

/-- A lower-case letter, a digit, or a mark that operands are written with. -/
def isWorded (c : Char) : Bool :=
  (0x61 ≤ c.toNat && c.toNat ≤ 0x7a) || (0x30 ≤ c.toNat && c.toNat ≤ 0x39) ||
    ['(', ')', '-', '<', '>'].contains c

/-- The text is not empty and has lower-case letters, digits and marks only. -/
def Worded (cs : List Char) : Prop := cs ≠ [] ∧ ∀ c ∈ cs, isWorded c = true

instance : DecidablePred Worded := fun cs =>
  decidable_of_iff ((!cs.isEmpty && cs.all isWorded) = true) (by simp [Worded])

theorem Worded.notMem {cs : List Char} (h : Worded cs) {c : Char} (hc : isWorded c = false) :
    c ∉ cs := by
  intro hmem
  rw [h.2 c hmem] at hc
  contradiction

theorem Worded.append {cs ds : List Char} (h : Worded cs) (h' : ∀ c ∈ ds, isWorded c = true) :
    Worded (cs ++ ds) := by
  refine ⟨by simp [h.1], ?_⟩
  intro c hc
  rcases List.mem_append.mp hc with hc | hc
  · exact h.2 c hc
  · exact h' c hc

theorem Worded.cons {c : Char} {cs : List Char} (hc : isWorded c = true) (h : Worded cs) :
    Worded (c :: cs) :=
  ⟨by simp, List.forall_mem_cons.mpr ⟨hc, h.2⟩⟩

theorem worded_toDigits {b : Nat} (hb : 1 < b) (hb' : b ≤ 16) (n : Nat) :
    Worded (Nat.toDigits b n) := by
  have hall : ∀ d < 16, isWorded d.digitChar = true := by decide
  refine ⟨Nat.toDigits_ne_nil, ?_⟩
  intro c hc
  obtain ⟨d, hd, rfl⟩ := eq_digitChar_of_mem_toDigits hb hc
  exact hall d (by omega)

theorem worded_decimal (n : Int) : Worded (decimal n).toList := by
  cases n with
  | ofNat n =>
    rw [decimal, toList_natural]
    exact worded_toDigits (by decide) (by decide) n
  | negSucc n =>
    rw [decimal, String.toList_append, toList_natural]
    exact (worded_toDigits (by decide) (by decide) (n + 1)).cons (by decide)

end Text

/-! ### Registers and rounding modes -/

namespace RegisterFile

/-- No two registers of either file have the same name. -/
theorem nodup_names : (integer.names ++ float.names).Nodup := by
  refine List.Nodup.of_map String.toList (Text.nodup_of_key ?_)
  decide +kernel

/-- Register names have no mark that stands around operands. -/
theorem paren_notMem_names : ∀ s ∈ integer.names ++ float.names, ')' ∉ s.toList := by
  decide +kernel

theorem getElem?_names (file : RegisterFile) {i : Nat} (hi : i < 32) :
    file.names[i]? = some (file.name i) := by
  rw [name, List.getElem?_eq_getElem (by simpa using hi), Option.getD_some]

theorem name_mem (file : RegisterFile) {i : Nat} (hi : i < 32) : file.name i ∈ file.names :=
  List.mem_of_getElem? (file.getElem?_names hi)

theorem name_mem_append (file : RegisterFile) {i : Nat} (hi : i < 32) :
    file.name i ∈ integer.names ++ float.names := by
  have hmem := file.name_mem hi
  cases file with
  | integer => exact List.mem_append_left _ hmem
  | float => exact List.mem_append_right _ hmem

/-- The name of a register determines its file and its index. -/
theorem name_injective {f g : RegisterFile} {i j : Nat} (hi : i < 32) (hj : j < 32)
    (h : f.name i = g.name j) : f = g ∧ i = j := by
  obtain ⟨hinteger, hfloat, hdisjoint⟩ := List.nodup_append.mp nodup_names
  have hsame : f = g := by
    have hf := f.name_mem hi
    have hg := g.name_mem hj
    cases f <;> cases g
    · rfl
    · exact absurd h (hdisjoint _ hf _ hg)
    · exact absurd h.symm (hdisjoint _ hg _ hf)
    · rfl
  subst hsame
  have hnodup : f.names.Nodup := by cases f <;> assumption
  refine ⟨rfl, (List.getElem?_inj (by simpa using hi) hnodup).mp ?_⟩
  rw [f.getElem?_names hi, f.getElem?_names hj, h]

theorem worded_name (file : RegisterFile) {i : Nat} (hi : i < 32) :
    Text.Worded (file.name i).toList := by
  have hall : ∀ s ∈ integer.names ++ float.names, Text.Worded s.toList := by decide +kernel
  exact hall _ (file.name_mem_append hi)

end RegisterFile

namespace RoundingMode

theorem name_injective {i j : Nat} (hi : i < 8) (hj : j < 8) (h : name i = name j) : i = j := by
  have hnodup : names.Nodup := by
    refine List.Nodup.of_map String.toList (Text.nodup_of_key ?_)
    decide +kernel
  have hname : ∀ i < 8, names[i]? = some (name i) := by decide +kernel
  refine (List.getElem?_inj hi hnodup).mp ?_
  rw [hname i hi, hname j hj, h]

theorem worded_name {i : Nat} (hi : i < 8) : Text.Worded (name i).toList := by
  have hall : ∀ i < 8, Text.Worded (name i).toList := by decide +kernel
  exact hall i hi

end RoundingMode

theorem Csr.worded_name (address : Nat) : Text.Worded (name address).toList := by
  have hall : ∀ x ∈ spellings, Text.Worded x.2 := by decide +kernel
  unfold name
  cases h : name? address with
  | some text => exact hall _ (mem_spellings h)
  | none =>
    have hdigits := Text.worded_toDigits (show 1 < 16 by decide) (by decide) address
    have hpadded : ∀ c ∈ (Text.hexPadded 3 address).toList, Text.isWorded c = true := by
      intro c hc
      rw [Text.hexPadded, String.toList_ofList] at hc
      rcases List.mem_append.mp hc with hc | hc
      · rw [List.eq_of_mem_replicate hc]
        decide
      · exact hdigits.2 c hc
    rw [Option.getD_none, String.toList_append]
    exact Text.Worded.append (by decide) hpadded

/-! ### Operands -/

namespace Operand

/-- What an operand is, as far as it can be told from its place in the line.  A
register and an address in memory may stand in the same place. -/
inductive Kind
  | location | immediate | marked | target | indirect | csr | rounding | placeholder
  deriving DecidableEq, Repr

/-- The kind of an operand. -/
def kind : Operand → Kind
  | register _ _ | memory _ _ => .location
  | immediate _ => .immediate
  | marked _ => .marked
  | target _ => .target
  | indirect _ => .indirect
  | csr _ => .csr
  | rounding _ => .rounding
  | placeholder => .placeholder

/-- The registers and modes that an operand names exist. -/
def InRange : Operand → Prop
  | register _ index => index < 32
  | indirect base | memory _ base => base < 32
  | rounding mode => mode < 8
  | _ => True

/-- The characters of an address in memory: the offset ends at the parenthesis. -/
theorem toList_text_memory (offset : Int) (base : Nat) :
    (memory offset base).text.toList
      = (Text.decimal offset).toList ++
          '(' :: ((RegisterFile.integer.name base).toList ++ [')']) := by
  simp [text]

theorem paren_notMem_register {file : RegisterFile} {index : Nat} (h : index < 32) :
    ')' ∉ (register file index).text.toList :=
  RegisterFile.paren_notMem_names _ (file.name_mem_append h)

theorem text_memory_injective {offset offset' : Int} {base base' : Nat} (hb : base < 32)
    (hb' : base' < 32) (h : (memory offset base).text = (memory offset' base').text) :
    offset = offset' ∧ base = base' := by
  have hchars := congrArg String.toList h
  rw [toList_text_memory, toList_text_memory] at hchars
  have hparen : ∀ n, '(' ∉ (Text.decimal n).toList := Text.notMem_decimal (by decide) (by decide)
  obtain ⟨hoffset, hrest⟩ := Text.append_cons_inj (hparen offset) (hparen offset') hchars
  have hname := String.toList_inj.mp (List.append_cancel_right hrest)
  exact ⟨Text.decimal_injective (String.toList_inj.mp hoffset),
    (RegisterFile.name_injective hb hb' hname).2⟩

/-- **The text of an operand of known kind determines it.** -/
theorem text_injective {a b : Operand} (hkind : a.kind = b.kind) (ha : a.InRange)
    (hb : b.InRange) (h : a.text = b.text) : a = b := by
  have hmemory : ∀ offset base, ')' ∈ (memory offset base).text.toList := by
    intro offset base
    simp [toList_text_memory]
  cases a with
  | register file index =>
    cases b with
    | register file' index' =>
      obtain ⟨rfl, rfl⟩ := RegisterFile.name_injective ha hb h
      rfl
    | memory offset base =>
      -- only an address in memory has a parenthesis
      exact absurd (h ▸ hmemory offset base) (paren_notMem_register ha)
    | _ => contradiction
  | memory offset base =>
    cases b with
    | register file' index' =>
      exact absurd (h ▸ hmemory offset base) (paren_notMem_register hb)
    | memory offset' base' =>
      obtain ⟨rfl, rfl⟩ := text_memory_injective ha hb h
      rfl
    | _ => contradiction
  | immediate value =>
    cases b with
    | immediate value' => rw [Text.decimal_injective h]
    | _ => contradiction
  | marked value =>
    cases b with
    | marked value' => rw [Text.hexMarked_injective h]
    | _ => contradiction
  | target address =>
    cases b with
    | target address' => rw [BitVec.eq_of_toNat_eq (Text.hex_injective h)]
    | _ => contradiction
  | indirect base =>
    cases b with
    | indirect base' =>
      have hname : RegisterFile.integer.name base = RegisterFile.integer.name base' := by
        simpa [text, ← String.toList_inj] using h
      rw [(RegisterFile.name_injective ha hb hname).2]
    | _ => contradiction
  | csr address =>
    cases b with
    | csr address' => rw [Csr.name_injective h]
    | _ => contradiction
  | rounding mode =>
    cases b with
    | rounding mode' => rw [RoundingMode.name_injective ha hb h]
    | _ => contradiction
  | placeholder =>
    cases b with
    | placeholder => rfl
    | _ => contradiction

/-- The text of an operand consists of letters, digits and marks, if the registers and
modes it names exist. -/
theorem worded_text {a : Operand} (ha : a.InRange) : Text.Worded a.text.toList := by
  have hhex : ∀ n, Text.Worded (Nat.toDigits 16 n) :=
    Text.worded_toDigits (by decide) (by decide)
  have hclose : ∀ c ∈ [')'], Text.isWorded c = true := List.forall_mem_singleton.mpr rfl
  cases a with
  | register file index => exact file.worded_name ha
  | immediate value => exact Text.worded_decimal value
  | marked value =>
    rw [text, Text.hexMarked, String.toList_append, Text.toList_hex]
    exact Text.Worded.append (by decide) (hhex value).2
  | target address =>
    rw [text, Text.toList_hex]
    exact hhex address.toNat
  | indirect base =>
    have hname := RegisterFile.integer.worded_name ha
    simpa [text] using (hname.append hclose).cons (by decide)
  | memory offset base =>
    have hname := RegisterFile.integer.worded_name ha
    rw [toList_text_memory]
    exact (Text.worded_decimal offset).append ((hname.append hclose).cons (by decide)).2
  | csr address => exact Csr.worded_name address
  | rounding mode => exact RoundingMode.worded_name ha
  | placeholder => decide +kernel

/-- The texts of operands of known kinds determine them. -/
theorem map_text_injective {l l' : List Operand} (hkind : l.map kind = l'.map kind)
    (hl : ∀ o ∈ l, o.InRange) (hl' : ∀ o ∈ l', o.InRange) (h : l.map text = l'.map text) :
    l = l' := by
  induction l generalizing l' with
  | nil => exact (List.map_eq_nil_iff.mp h.symm).symm
  | cons a l ih =>
    cases l' with
    | nil => simp at h
    | cons b l' =>
      obtain ⟨hka, hkl⟩ := List.cons.inj hkind
      obtain ⟨hta, htl⟩ := List.cons.inj h
      rw [List.forall_mem_cons] at hl hl'
      rw [text_injective hka hl.1 hl'.1 hta, ih hkl hl.2 hl'.2 htl]

end Operand

/-! ### Lines -/

namespace Assembly

/-- The characters of a line with operands: the mnemonic ends at the space. -/
theorem toList_text {a : Assembly} (h : a.operands ≠ []) :
    a.text.toList
      = a.mnemonic.toList ++
          ' ' :: [','].intercalate ((a.operands.map Operand.text).map String.toList) := by
  obtain ⟨mnemonic, operands⟩ := a
  cases operands with
  | nil => contradiction
  | cons o os => simp [text, String.toList_intercalate]

/-- **The text of a line determines its mnemonic and the texts of its operands.** -/
theorem text_inj {a b : Assembly} (ha : ' ' ∉ a.mnemonic.toList) (hb : ' ' ∉ b.mnemonic.toList)
    (hoa : ∀ o ∈ a.operands, o.InRange) (hob : ∀ o ∈ b.operands, o.InRange)
    (h : a.text = b.text) :
    a.mnemonic = b.mnemonic ∧ a.operands.map Operand.text = b.operands.map Operand.text := by
  have hcomma : ∀ l : List Operand, (∀ o ∈ l, o.InRange) →
      ∀ s ∈ l.map Operand.text, ',' ∉ s.toList := by
    intro l hl s hs
    obtain ⟨o, ho, rfl⟩ := List.mem_map.mp hs
    exact (Operand.worded_text (hl o ho)).notMem (by decide)
  have hbare : ∀ {c : Assembly}, c.operands = [] → c.text = c.mnemonic := by
    intro c hc
    rw [text, hc]
  -- a line has a space exactly when it has operands
  by_cases hna : a.operands = [] <;> by_cases hnb : b.operands = []
  · rw [hbare hna, hbare hnb] at h
    rw [hna, hnb]
    exact ⟨h, rfl⟩
  · have hspace : ' ' ∈ b.text.toList := by simp [toList_text hnb]
    rw [← h, hbare hna] at hspace
    contradiction
  · have hspace : ' ' ∈ a.text.toList := by simp [toList_text hna]
    rw [h, hbare hnb] at hspace
    contradiction
  · have hchars := congrArg String.toList h
    rw [toList_text hna, toList_text hnb] at hchars
    obtain ⟨hmnemonic, hoperands⟩ := Text.append_cons_inj ha hb hchars
    refine ⟨String.toList_inj.mp hmnemonic, ?_⟩
    exact Text.intercalate_injective (hcomma _ hoa) (hcomma _ hob) (by simpa using hna)
      (by simpa using hnb) hoperands

end Assembly
end RiscV
