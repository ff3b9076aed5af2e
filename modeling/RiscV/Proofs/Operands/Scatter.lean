import RiscV.Proofs.Operands.Reading

/-!
# Operands are scattered without loss

Decoding gathers the bits of each operand from the word.  Here the way back is
defined: the bits of an operand, as a number in two's complement, are scattered
over the word bits that its wires start from.  An encoding is then an exact
correspondence between settings of those word bits and the operands of a domain,
which gives a span of numbers for each operand and names the operands that are
read from the same bits.

## Main definitions

* `Span` — the multiples of a step between two bounds.
* `Reading.span`, `Reading.Complete` — the numbers a reading can give, and the
  wires it takes to give all of them.
* `Encoding.encode`, `Encoding.operandBits` — scattering operands over a word,
  and the word bits that are used for it.
* `Domain` — the operands an encoding can hold.

## Main results

* `Reading.value_eq_iff_carries` — which word bits make up a number.
* `Encoding.Holds.decode_encode`, `Encoding.Holds.encode_decode` — decoding and
  encoding are inverse to each other.
* `Encoding.decode_encode_inverse` — **every encoding holds exactly the operands of its
  domain.**
-/

namespace RiscV

/-! ### Spans -/

/-- The multiples of `step` from `low` up to, but not including, `high`. -/
structure Span where
  /-- The least number that may occur. -/
  low : Int
  /-- What every number is below. -/
  high : Int
  /-- What every number is a multiple of. -/
  step : Nat := 1
  deriving DecidableEq, Repr

namespace Span

/-- A number lies in the span. -/
def Contains (s : Span) (n : Int) : Prop := s.low ≤ n ∧ n < s.high ∧ (s.step : Int) ∣ n

instance (s : Span) (n : Int) : Decidable (s.Contains n) := inferInstanceAs (Decidable (_ ∧ _))

/-- One number only. -/
def only (n : Nat) : Span := ⟨n, n + 1, 1⟩

/-- The registers that five bits number. -/
def full : Span := ⟨0, 32, 1⟩

/-- The registers that three bits number. -/
def short : Span := ⟨8, 16, 1⟩

/-- The two values of a flag. -/
def flag : Span := ⟨0, 2, 1⟩

end Span

/-! ### Scattering a number -/

namespace Reading

variable {r : Reading} {w : Word} {n : Int}

/-- The bits of a number as they are carried, in two's complement. -/
def field (r : Reading) (n : Int) : Word := BitVec.ofInt 32 (n - r.base)

/-- The word has the bits of a number where the wires start. -/
def Carries (r : Reading) (w : Word) (n : Int) : Prop :=
  ∀ wire ∈ r.wires, w.getLsbD wire.bit = (r.field n).getLsbD wire.place

/-- The lowest place that a wire ends in. -/
def lowest (r : Reading) : Nat := (r.wires.map Wire.place).min?.getD 0

/-- The numbers that can be read. -/
def span (r : Reading) : Span := ⟨r.least, r.bound, 2 ^ r.lowest⟩

/-- The wires end in all places from the lowest to the highest, which is that of the
sign if there is one. -/
def Complete (r : Reading) : Prop :=
  r.Proper ∧ (∀ p < extent r.wires, r.lowest ≤ p → p ∈ r.wires.map Wire.place) ∧
    (∀ n ∈ r.signed, 0 < n ∧ n = extent r.wires) ∧ 2 ^ r.lowest ∣ r.base

instance (r : Reading) : Decidable r.Complete := inferInstanceAs (Decidable (_ ∧ _ ∧ _ ∧ _))

theorem lowest_le {wire : Wire} (hwire : wire ∈ r.wires) : r.lowest ≤ wire.place := by
  have hmem : wire.place ∈ r.wires.map Wire.place := List.mem_map_of_mem hwire
  unfold lowest
  cases hmin : (r.wires.map Wire.place).min? with
  | none => exact Nat.zero_le _
  | some p => exact (List.min?_eq_some_iff.mp hmin).2 _ hmem

theorem lowest_le_extent (r : Reading) : r.lowest ≤ extent r.wires := by
  cases hwires : r.wires with
  | nil => rw [lowest, hwires]; exact Nat.zero_le _
  | cons wire ws =>
    have hwire : wire ∈ r.wires := by rw [hwires]; exact List.mem_cons_self
    rw [← hwires]
    exact Nat.le_of_lt (Nat.lt_of_le_of_lt (lowest_le hwire) (place_lt_extent hwire))

/-- The lowest bits of the field are those of the number's remainder. -/
theorem getLsbD_field (r : Reading) (n : Int) {m p : Nat} (hm : m ≤ 32) (hp : p < m) :
    (r.field n).getLsbD p = ((n - r.base) % (2 ^ m : Nat)).toNat.testBit p := by
  have hsplit : ((n - r.base) % (2 ^ m : Nat)).toNat = (r.field n).toNat % 2 ^ m := by
    have hdvd : ((2 ^ m : Nat) : Int) ∣ (2 ^ 32 : Nat) :=
      Int.natCast_dvd_natCast.mpr (Nat.pow_dvd_pow 2 hm)
    have hnonneg : 0 ≤ (n - r.base) % ((2 ^ 32 : Nat) : Int) :=
      Int.emod_nonneg _ (by decide)
    rw [field, BitVec.toNat_ofInt, ← Int.emod_emod_of_dvd _ hdvd]
    exact Int.toNat_emod hnonneg (Int.natCast_nonneg _)
  rw [hsplit, Nat.testBit_mod_two_pow, decide_eq_true hp, Bool.true_and, BitVec.testBit_toNat]

theorem Complete.extent_le (h : r.Complete) : extent r.wires ≤ 32 :=
  RiscV.extent_le fun wire hwire => (h.1.2 wire hwire).1

/-- The word has the bits of the number that is read off it. -/
theorem carries_value (h : r.Complete) (w : Word) : r.Carries w (r.value w) := by
  have hextent := h.extent_le
  obtain ⟨hproper, -, hsigned, -⟩ := h
  intro wire hwire
  rw [← testBit_wired_place hproper.1 hwire w]
  cases hs : r.signed with
  | none =>
    have hvalue : r.value w - r.base = wired r.wires w := by
      simp only [value, hs]
      omega
    have hplace := (hproper.2 wire hwire).1
    rw [getLsbD_field r _ (Nat.le_refl 32) hplace, hvalue, ← Int.natCast_emod, Int.toNat_natCast,
      Nat.testBit_mod_two_pow, decide_eq_true hplace, Bool.true_and]
  | some m =>
    have hvalue : r.value w - r.base = Int.bmod (wired r.wires w) (2 ^ m) := by
      simp only [value, hs]
      omega
    have hplace := (hproper.2 wire hwire).2 m hs
    have hm : m ≤ 32 := by rw [(hsigned m hs).2]; exact hextent
    rw [getLsbD_field r _ hm hplace, hvalue, Int.bmod_emod, ← Int.natCast_emod,
      Int.toNat_natCast, Nat.testBit_mod_two_pow, decide_eq_true hplace, Bool.true_and]

/-- What the wires carry from a word that has the bits of a number. -/
theorem wired_of_carries (h : r.Complete) (hstep : ((2 ^ r.lowest : Nat) : Int) ∣ n)
    (hcarries : r.Carries w n) :
    wired r.wires w = ((n - r.base) % (2 ^ extent r.wires : Nat)).toNat := by
  have hextent := h.extent_le
  obtain ⟨hproper, hplaces, -, hbase⟩ := h
  apply Nat.eq_of_testBit_eq
  intro j
  rcases Nat.lt_or_ge j (extent r.wires) with hj | hj
  · rcases Nat.lt_or_ge j r.lowest with hlow | hlow
    · -- no wire ends here, and the number is a multiple of a higher power
      have hnone : (wired r.wires w).testBit j = false := by
        rw [testBit_wired, List.any_eq_false]
        intro wire hwire
        have hplace := lowest_le hwire
        rw [beq_eq_false_iff_ne.mpr (by omega), Bool.false_and]
        decide
      have hdvd : ((2 ^ (j + 1) : Nat) : Int) ∣ n - r.base := by
        have hpow : ((2 ^ (j + 1) : Nat) : Int) ∣ (2 ^ r.lowest : Nat) :=
          Int.natCast_dvd_natCast.mpr (Nat.pow_dvd_pow 2 hlow)
        exact Int.dvd_trans hpow (Int.dvd_sub hstep (Int.natCast_dvd_natCast.mpr hbase))
      rw [hnone, ← getLsbD_field r n hextent hj,
        getLsbD_field r n (show j + 1 ≤ 32 by omega) (Nat.lt_succ_self j),
        Int.emod_eq_zero_of_dvd hdvd, Int.toNat_zero, Nat.zero_testBit]
    · obtain ⟨wire, hwire, rfl⟩ := List.mem_map.mp (hplaces j hj hlow)
      rw [testBit_wired_place hproper.1 hwire, hcarries wire hwire, getLsbD_field r n hextent hj]
  · -- above the highest place there is nothing on either side
    have hpow : 2 ^ extent r.wires ≤ 2 ^ j := Nat.pow_le_pow_right (by decide) hj
    have hwired : wired r.wires w < 2 ^ extent r.wires :=
      wired_lt (fun _ hwire => place_lt_extent hwire) w
    have hmod : (n - r.base) % ((2 ^ extent r.wires : Nat) : Int) < (2 ^ extent r.wires : Nat) :=
      Int.emod_lt_of_pos _ (Int.natCast_pos.mpr (Nat.two_pow_pos _))
    rw [Nat.testBit_lt_two_pow (by omega), Nat.testBit_lt_two_pow (by omega)]

/-- **Which word bits make up a number**, if it is one that can be read. -/
theorem value_eq_iff_carries (h : r.Complete) (hn : r.span.Contains n) :
    r.value w = n ↔ r.Carries w n := by
  constructor
  · rintro rfl
    exact carries_value h w
  · intro hcarries
    obtain ⟨hlow, hhigh, hstep⟩ := hn
    have hwired := wired_of_carries h hstep hcarries
    have hpow : ((2 ^ extent r.wires : Nat) : Int) = 2 ^ extent r.wires := by push_cast; rfl
    have hpos : (0 : Int) < (2 ^ extent r.wires : Nat) := Int.natCast_pos.mpr (Nat.two_pow_pos _)
    have hcast : (wired r.wires w : Int) = (n - r.base) % (2 ^ extent r.wires : Nat) := by
      rw [hwired, Int.toNat_of_nonneg (Int.emod_nonneg _ (by omega))]
    cases hs : r.signed with
    | none =>
      simp only [span, least, bound, hs] at hlow hhigh
      simp only [value, hs, hcast]
      rw [Int.emod_eq_of_lt (by omega) (by omega)]
      omega
    | some m =>
      obtain ⟨hm, hextent⟩ := h.2.2.1 m hs
      have hhalf : (2 ^ m : Int) = 2 * 2 ^ (m - 1) := by
        obtain ⟨k, rfl⟩ : ∃ k, m = k + 1 := ⟨m - 1, by omega⟩
        rw [Nat.add_sub_cancel, Int.pow_succ, Int.mul_comm]
      rw [← hextent] at hcast hpow
      simp only [span, least, bound, hs] at hlow hhigh
      simp only [value, hs, hcast]
      rw [Int.emod_bmod, Int.bmod_eq_of_le_mul_two (by omega) (by omega)]
      omega

/-- A number that is read is one that can be read. -/
theorem contains_value (h : r.Complete) (w : Word) : r.span.Contains (r.value w) := by
  obtain ⟨-, -, hsigned, hbase⟩ := h
  have hrange := value_range (fun n hn => (hsigned n hn).1) w
  refine ⟨hrange.1, hrange.2, ?_⟩
  have hwired : ((2 ^ r.lowest : Nat) : Int) ∣ wired r.wires w :=
    Int.natCast_dvd_natCast.mpr (two_pow_dvd_wired (fun _ hwire => lowest_le hwire) w)
  refine Int.dvd_add (Int.natCast_dvd_natCast.mpr hbase) ?_
  cases hs : r.signed with
  | none => exact hwired
  | some m =>
    -- the remainder differs from the number by a multiple of the modulus
    have hle : r.lowest ≤ m := (hsigned m hs).2 ▸ r.lowest_le_extent
    have hmodulus : ((2 ^ r.lowest : Nat) : Int) ∣ (2 ^ m : Nat) :=
      Int.natCast_dvd_natCast.mpr (Nat.pow_dvd_pow 2 hle)
    exact (Int.dvd_iff_dvd_of_dvd_sub (Int.dvd_trans hmodulus Int.dvd_bmod_sub_self)).mpr hwired

end Reading

/-! ### Scattering all operands -/

/-- The word in which just the bits at the given positions are set. -/
def Word.ofSetBits (is : List Nat) : Word := is.foldr (fun i w => 1#32 <<< i ||| w) 0#32

theorem Word.getLsbD_ofSetBits (is : List Nat) {i : Nat} (hi : i < 32) :
    (Word.ofSetBits is).getLsbD i = decide (i ∈ is) := by
  unfold ofSetBits
  induction is with
  | nil => simp
  | cons j is ih =>
    have hone : (1#32 <<< j : Word).getLsbD i = decide (i = j) := by
      rw [BitVec.getLsbD_shiftLeft, BitVec.getLsbD_one, decide_eq_true hi]
      rw [Bool.eq_iff_iff]
      simp only [Bool.true_and, Bool.and_eq_true, Bool.not_eq_true', decide_eq_false_iff_not,
        decide_eq_true_eq]
      omega
    rw [List.foldr_cons, BitVec.getLsbD_or, hone, ih, Bool.eq_iff_iff]
    simp

/-- Operands that agree in every slot are equal. -/
theorem Operands.ext_get {o o' : Operands} (h : ∀ slot : Slot, slot.get o = slot.get o') :
    o = o' := by
  have hflag : ∀ b b' : Bool, (b.toNat : Int) = b'.toNat → b = b' := by decide
  have hrd := h .rd
  have hrs1 := h .rs1
  have hrs2 := h .rs2
  have hrs3 := h .rs3
  have himm := h .imm
  have hcsr := h .csr
  have hshamt := h .shamt
  have hrm := h .rm
  have haq := hflag _ _ (h .aq)
  have hrl := hflag _ _ (h .rl)
  obtain ⟨rd, rs1, rs2, rs3, imm, csr, shamt, rm, aq, rl⟩ := o
  obtain ⟨rd', rs1', rs2', rs3', imm', csr', shamt', rm', aq', rl'⟩ := o'
  simp only [Slot.get, Int.natCast_inj] at *
  subst hrd hrs1 hrs2 hrs3 himm hcsr hshamt hrm haq hrl
  rfl

namespace Encoding

/-- The wires to all operands. -/
def wires (e : Encoding) : List (Slot × Wire) :=
  Slot.all.flatMap fun slot => (e.reading slot).wires.map (slot, ·)

theorem mem_wires {e : Encoding} {slot : Slot} {wire : Wire} :
    (slot, wire) ∈ e.wires ↔ wire ∈ (e.reading slot).wires := by
  simp [wires, slot.mem_all]

/-- The word bits that operands are read from. -/
def operandBits (e : Encoding) : Word := Word.ofSetBits (e.wires.map fun x => x.2.bit)

/-- The operands scattered over a word: a word bit is set if a wire leads from it to a
bit of an operand that is set. -/
def encode (e : Encoding) (o : Operands) : Word :=
  Word.ofSetBits ((e.wires.filter fun x =>
    ((e.reading x.1).field (x.1.get o)).getLsbD x.2.place).map fun x => x.2.bit)

theorem getLsbD_operandBits (e : Encoding) {i : Nat} (hi : i < 32) :
    e.operandBits.getLsbD i = true ↔
      ∃ slot, ∃ wire ∈ (e.reading slot).wires, wire.bit = i := by
  rw [operandBits, Word.getLsbD_ofSetBits _ hi]
  simp only [decide_eq_true_eq, List.mem_map, Prod.exists, mem_wires]

theorem getLsbD_encode (e : Encoding) (o : Operands) {i : Nat} (hi : i < 32) :
    (e.encode o).getLsbD i = true ↔ ∃ slot, ∃ wire ∈ (e.reading slot).wires, wire.bit = i ∧
      ((e.reading slot).field (slot.get o)).getLsbD wire.place = true := by
  rw [encode, Word.getLsbD_ofSetBits _ hi]
  simp only [decide_eq_true_eq, List.mem_map, List.mem_filter, Prod.exists, mem_wires]
  constructor
  · rintro ⟨slot, wire, ⟨hwire, hset⟩, hbit⟩
    exact ⟨slot, wire, hwire, hbit, hset⟩
  · rintro ⟨slot, wire, hwire, hbit, hset⟩
    exact ⟨slot, wire, ⟨hwire, hset⟩, hbit⟩

end Encoding

/-! ### Domains -/

/-- The operands that an encoding can hold: a span for each, which is zero alone for an
operand that the encoding does not have, and the pairs of operands that are equal because
they are read from the same bits. -/
structure Domain where
  /-- The destination register. -/
  rd : Span := .only 0
  /-- The first source register. -/
  rs1 : Span := .only 0
  /-- The second source register. -/
  rs2 : Span := .only 0
  /-- The third source register. -/
  rs3 : Span := .only 0
  /-- The immediate. -/
  imm : Span := .only 0
  /-- The address of a control and status register. -/
  csr : Span := .only 0
  /-- The shift amount. -/
  shamt : Span := .only 0
  /-- The rounding mode. -/
  rm : Span := .only 0
  /-- The acquire flag. -/
  aq : Span := .only 0
  /-- The release flag. -/
  rl : Span := .only 0
  /-- The operands that are read from the same bits. -/
  same : List (Slot × Slot) := []
  deriving DecidableEq, Repr

namespace Domain

/-- The span of an operand. -/
def span (d : Domain) : Slot → Span
  | .rd => d.rd
  | .rs1 => d.rs1
  | .rs2 => d.rs2
  | .rs3 => d.rs3
  | .imm => d.imm
  | .csr => d.csr
  | .shamt => d.shamt
  | .rm => d.rm
  | .aq => d.aq
  | .rl => d.rl

/-- The operands belong to the domain. -/
def Contains (d : Domain) (o : Operands) : Prop :=
  (∀ slot, (d.span slot).Contains (slot.get o)) ∧ ∀ pair ∈ d.same, pair.1.get o = pair.2.get o

/-- Two slots are one, or are read from the same bits. -/
def Shares (d : Domain) (a b : Slot) : Prop := a = b ∨ (a, b) ∈ d.same ∨ (b, a) ∈ d.same

instance (d : Domain) (a b : Slot) : Decidable (d.Shares a b) :=
  inferInstanceAs (Decidable (_ ∨ _ ∨ _))

theorem Contains.get_eq {d : Domain} {o : Operands} (h : d.Contains o) {a b : Slot}
    (hab : d.Shares a b) : a.get o = b.get o := by
  rcases hab with rfl | hab | hba
  · rfl
  · exact h.2 _ hab
  · exact (h.2 _ hba).symm

end Domain

namespace Encoding

/-- The encoding has room for just the operands of the domain: each operand has its span,
and only those that are named as equal have word bits in common. -/
structure Holds (e : Encoding) (d : Domain) : Prop where
  /-- Every number of a span can be read, and no other. -/
  complete : ∀ slot ∈ Slot.all, (e.reading slot).Complete ∧ (e.reading slot).span = d.span slot
  /-- Operands that are named as equal are read alike. -/
  reading_eq : ∀ pair ∈ d.same, e.reading pair.1 = e.reading pair.2
  /-- Wires that start from one bit of the word lead to one place, in one operand or in
  two that are equal. -/
  separate : ∀ x ∈ e.wires, ∀ y ∈ e.wires, x.2.bit = y.2.bit → x.2 = y.2 ∧ d.Shares x.1 y.1
  /-- Wires start within the word. -/
  bit_lt : ∀ x ∈ e.wires, x.2.bit < 32

instance (e : Encoding) (d : Domain) : Decidable (e.Holds d) :=
  decidable_of_iff
    ((∀ slot ∈ Slot.all, (e.reading slot).Complete ∧ (e.reading slot).span = d.span slot) ∧
      (∀ pair ∈ d.same, e.reading pair.1 = e.reading pair.2) ∧
      (∀ x ∈ e.wires, ∀ y ∈ e.wires, x.2.bit = y.2.bit → x.2 = y.2 ∧ d.Shares x.1 y.1) ∧
      ∀ x ∈ e.wires, x.2.bit < 32)
    ⟨fun h => ⟨h.1, h.2.1, h.2.2.1, h.2.2.2⟩,
      fun h => ⟨h.complete, h.reading_eq, h.separate, h.bit_lt⟩⟩

namespace Holds

variable {e : Encoding} {d : Domain} {o : Operands}

theorem proper (h : e.Holds d) (slot : Slot) : (e.reading slot).Proper :=
  (h.complete slot slot.mem_all).1.1

/-- Decoding reads every operand as its reading says. -/
theorem get_decode (h : e.Holds d) (slot : Slot) (w : Word) :
    slot.get (e.decode w) = (e.reading slot).value w := by
  refine Encoding.get_decode h.proper (fun n hn => ?_) slot w
  obtain ⟨hcomplete, -⟩ := h.complete .imm Slot.imm.mem_all
  obtain ⟨hpos, heq⟩ := hcomplete.2.2.1 n hn
  exact ⟨hpos, heq ▸ hcomplete.extent_le⟩

theorem reading_eq_of_shares (h : e.Holds d) {a b : Slot} (hab : d.Shares a b) :
    e.reading a = e.reading b := by
  rcases hab with rfl | hab | hba
  · rfl
  · exact h.reading_eq _ hab
  · exact (h.reading_eq _ hba).symm

/-- What is decoded belongs to the domain. -/
theorem contains_decode (h : e.Holds d) (w : Word) : d.Contains (e.decode w) := by
  constructor
  · intro slot
    obtain ⟨hcomplete, hspan⟩ := h.complete slot slot.mem_all
    rw [h.get_decode, ← hspan]
    exact Reading.contains_value hcomplete w
  · intro pair hpair
    rw [h.get_decode, h.get_decode, h.reading_eq pair hpair]

/-- A bit of an encoded word is that of the operand its wire leads to. -/
theorem getLsbD_encode_bit (h : e.Holds d) (ho : d.Contains o) {slot : Slot} {wire : Wire}
    (hwire : wire ∈ (e.reading slot).wires) :
    (e.encode o).getLsbD wire.bit
      = ((e.reading slot).field (slot.get o)).getLsbD wire.place := by
  have hmem := mem_wires.mpr hwire
  rw [Bool.eq_iff_iff, getLsbD_encode e o (h.bit_lt _ hmem)]
  constructor
  · rintro ⟨slot', wire', hwire', hbit, hset⟩
    -- the other wire leads to the same bit of an equal operand
    obtain ⟨hplace, hshares⟩ := h.separate _ (mem_wires.mpr hwire') _ hmem hbit
    obtain rfl : wire' = wire := hplace
    rwa [h.reading_eq_of_shares hshares, ho.get_eq hshares] at hset
  · intro hset
    exact ⟨slot, wire, hwire, rfl, hset⟩

/-- **Operands that are encoded are decoded again**, whatever the other bits are. -/
theorem decode_encode (h : e.Holds d) (ho : d.Contains o) (rest : Word) :
    e.decode (e.encode o ||| rest &&& ~~~e.operandBits) = o := by
  apply Operands.ext_get
  intro slot
  obtain ⟨hcomplete, hspan⟩ := h.complete slot slot.mem_all
  rw [h.get_decode, Reading.value_eq_iff_carries hcomplete (hspan ▸ ho.1 slot)]
  intro wire hwire
  have hlt := h.bit_lt _ (mem_wires.mpr hwire)
  have hoperand := (e.getLsbD_operandBits hlt).mpr ⟨slot, wire, hwire, rfl⟩
  rw [BitVec.getLsbD_or, BitVec.getLsbD_and, BitVec.getLsbD_not, hoperand, Bool.not_true,
    Bool.and_false, Bool.and_false, Bool.or_false, h.getLsbD_encode_bit ho hwire]

/-- **What is decoded is encoded to the operand bits of the word.** -/
theorem encode_decode (h : e.Holds d) (w : Word) :
    e.encode (e.decode w) = w &&& e.operandBits := by
  apply BitVec.eq_of_getLsbD_eq
  intro i hi
  rw [BitVec.getLsbD_and]
  cases hbit : e.operandBits.getLsbD i with
  | true =>
    obtain ⟨slot, wire, hwire, rfl⟩ := (e.getLsbD_operandBits hi).mp hbit
    obtain ⟨hcomplete, -⟩ := h.complete slot slot.mem_all
    rw [h.getLsbD_encode_bit (h.contains_decode w) hwire, h.get_decode, Bool.and_true,
      Reading.carries_value hcomplete w wire hwire]
  | false =>
    rw [Bool.and_false, Bool.eq_false_iff]
    intro hset
    obtain ⟨slot, wire, hwire, heq, -⟩ := (e.getLsbD_encode _ hi).mp hset
    rw [(e.getLsbD_operandBits hi).mpr ⟨slot, wire, hwire, heq⟩] at hbit
    contradiction

end Holds

/-! ### The domains of the encodings -/

/-- The domain of every encoding. -/
def domains : List (Encoding × Domain) :=
  [ (r, { rd := .full, rs1 := .full, rs2 := .full, rm := ⟨0, 8, 1⟩, aq := .flag, rl := .flag }),
    (r4, { rd := .full, rs1 := .full, rs2 := .full, rs3 := .full, rm := ⟨0, 8, 1⟩, aq := .flag,
           rl := .flag }),
    (i, { rd := .full, rs1 := .full, imm := ⟨-2048, 2048, 1⟩ }),
    (iCsr, { rd := .full, rs1 := .full, csr := ⟨0, 4096, 1⟩ }),
    (iShift, { rd := .full, rs1 := .full, shamt := ⟨0, 64, 1⟩ }),
    (s, { rs1 := .full, rs2 := .full, imm := ⟨-2048, 2048, 1⟩ }),
    (b, { rs1 := .full, rs2 := .full, imm := ⟨-4096, 4096, 2⟩ }),
    (u, { rd := .full, imm := ⟨-2 ^ 31, 2 ^ 31, 4096⟩ }),
    (j, { rd := .full, imm := ⟨-2 ^ 20, 2 ^ 20, 2⟩ }),
    (cr, { rd := .full, rs1 := .full, rs2 := .full, same := [(.rd, .rs1)] }),
    (ca, { rd := .short, rs1 := .short, rs2 := .short, same := [(.rd, .rs1)] }),
    (ci, { rd := .full, rs1 := .full, imm := ⟨-32, 32, 1⟩, same := [(.rd, .rs1)] }),
    (ciAddi16sp, { rd := .only 2, rs1 := .only 2, imm := ⟨-512, 512, 16⟩ }),
    (ciLui, { rd := .full, imm := ⟨-2 ^ 17, 2 ^ 17, 4096⟩ }),
    (ciShift, { rd := .full, rs1 := .full, shamt := ⟨0, 64, 1⟩, same := [(.rd, .rs1)] }),
    (ciLwsp, { rd := .full, rs1 := .only 2, imm := ⟨0, 256, 4⟩ }),
    (ciLdsp, { rd := .full, rs1 := .only 2, imm := ⟨0, 512, 8⟩ }),
    (cssSwsp, { rs1 := .only 2, rs2 := .full, imm := ⟨0, 256, 4⟩ }),
    (cssSdsp, { rs1 := .only 2, rs2 := .full, imm := ⟨0, 512, 8⟩ }),
    (ciw, { rd := .short, rs1 := .only 2, imm := ⟨0, 1024, 4⟩ }),
    (clWord, { rd := .short, rs1 := .short, rs2 := .short, imm := ⟨0, 128, 4⟩,
               same := [(.rd, .rs2)] }),
    (clDouble, { rd := .short, rs1 := .short, rs2 := .short, imm := ⟨0, 256, 8⟩,
                 same := [(.rd, .rs2)] }),
    (cbShift, { rd := .short, rs1 := .short, shamt := ⟨0, 64, 1⟩, same := [(.rd, .rs1)] }),
    (cbAndi, { rd := .short, rs1 := .short, imm := ⟨-32, 32, 1⟩, same := [(.rd, .rs1)] }),
    (cbBranch, { rs1 := .short, imm := ⟨-256, 256, 2⟩ }),
    (cj, { imm := ⟨-2048, 2048, 2⟩ }) ]

theorem holds_domains : ∀ x ∈ domains, x.1.Holds x.2 := by decide +kernel

/-- Encoding sets no other bits than those that operands are read from. -/
theorem encode_and_not_operandBits (e : Encoding) (o : Operands) :
    e.encode o &&& ~~~e.operandBits = 0#32 := by
  apply BitVec.eq_of_getLsbD_eq
  intro k hk
  rw [BitVec.getLsbD_and, BitVec.getLsbD_not, decide_eq_true hk, Bool.true_and,
    BitVec.getLsbD_zero, Bool.and_eq_false_iff]
  cases hset : (e.encode o).getLsbD k with
  | false => exact Or.inl rfl
  | true =>
    obtain ⟨slot, wire, hwire, hbit, -⟩ := (e.getLsbD_encode o hk).mp hset
    rw [(e.getLsbD_operandBits hk).mpr ⟨slot, wire, hwire, hbit⟩]
    exact Or.inr rfl

/-- **Every encoding holds exactly the operands of its domain.**

Operands of the domain are scattered over fixed bits of the word.  Whatever the other bits
are, decoding gives the operands back.  What is decoded from any word belongs to the domain,
and encoding it again restores the bits of the word that operands are read from. -/
theorem decode_encode_inverse :
    domains.map Prod.fst = all ∧ ∀ e d, (e, d) ∈ domains →
      (∀ o, e.encode o &&& ~~~e.operandBits = 0#32) ∧
      (∀ o, d.Contains o → ∀ rest, e.decode (e.encode o ||| rest &&& ~~~e.operandBits) = o) ∧
      ∀ w, d.Contains (e.decode w) ∧ e.encode (e.decode w) = w &&& e.operandBits := by
  refine ⟨rfl, ?_⟩
  intro e d hmem
  have hholds := holds_domains (e, d) hmem
  exact ⟨e.encode_and_not_operandBits, fun o ho rest => hholds.decode_encode ho rest,
    fun w => ⟨hholds.contains_decode w, hholds.encode_decode w⟩⟩

/-- The longest compressed branch backwards, on the last of the short registers. -/
theorem decode_encode_inverse_branch :
    let o : Operands := { rs1 := 15, imm := -256 }
    ∃ d, (cbBranch, d) ∈ domains ∧ d.Contains o ∧ cbBranch.encode o = 0x1380#32 ∧
      cbBranch.decode (0x1380#32 ||| 0xffffc001#32 &&& ~~~cbBranch.operandBits) = o := by
  intro o
  have hmem : (cbBranch, ({ rs1 := .short, imm := ⟨-256, 256, 2⟩ } : Domain)) ∈ domains := by
    simp [domains]
  have hcontains : ({ rs1 := .short, imm := ⟨-256, 256, 2⟩ } : Domain).Contains o :=
    ⟨fun slot => by cases slot <;> decide, by simp⟩
  have hencode : cbBranch.encode o = 0x1380#32 := by decide +kernel
  obtain ⟨-, hdecode, -⟩ := decode_encode_inverse.2 _ _ hmem
  exact ⟨_, hmem, hcontains, hencode, hencode ▸ hdecode o hcontains 0xffffc001#32⟩

end Encoding
end RiscV
