import RiscV.Image
import RiscV.Proofs.Word

/-!
# The lines of an image tile it

An image is cut into parcels from the front, and each parcel becomes a line.  Here
the lines are compared with the bytes they come from: line by line, the address is
that of the bytes, the bytes are those of the word, and the assembly is that of the
word that starts there.  Nothing is skipped and nothing is read twice; only a last
byte can be left over, and only a last parcel can be torn.

## Main definitions

* `Parcel.Starts` — what the first parcel of an image can be.
* `Line.bytes`, `Line.offset` — the bytes of a line, and where a line starts.
* `Tiles` — lines tile an image.

## Main results

* `parcels_cases` — one step of cutting an image.
* `InstructionSet.drop_listing` — the lines from some line on are those of the rest
  of the image.
* `InstructionSet.tiles_listing` — **the lines of an image tile it.**
-/

namespace RiscV

/-! ### Addresses -/

/-- An address is kept modulo the number of addresses. -/
theorem toNat_and_addressMask (xlen : Xlen) (a : Address) :
    (a &&& addressMask xlen.bits).toNat = a.toNat % 2 ^ xlen.bits := by
  have hlt : a.toNat < 2 ^ 64 := a.isLt
  cases xlen with
  | rv32 =>
    have hmask : (addressMask Xlen.rv32.bits).toNat = 2 ^ 32 - 1 := by decide
    rw [BitVec.toNat_and, hmask, Nat.and_two_pow_sub_one_eq_mod]
    rfl
  | rv64 =>
    have hmask : addressMask Xlen.rv64.bits = BitVec.allOnes 64 := by decide
    rw [hmask, BitVec.and_allOnes]
    exact (Nat.mod_eq_of_lt hlt).symm
  | rv128 =>
    -- addresses have 64 bits also for wider registers
    have hmask : addressMask Xlen.rv128.bits = BitVec.allOnes 64 := by decide
    have hle : 2 ^ 64 ≤ 2 ^ Xlen.rv128.bits := by decide
    rw [hmask, BitVec.and_allOnes]
    exact (Nat.mod_eq_of_lt (Nat.lt_of_lt_of_le hlt hle)).symm

/-! ### Words and their bytes -/

/-- The lowest bytes of a word, lowest first. -/
def Word.bytes (w : Word) (n : Nat) : List UInt8 :=
  (List.range n).map fun i => ⟨w.extractLsb' (8 * i) 8⟩

/-- Bit `i` of a word of four bytes is bit `i % 8` of byte `i / 8`. -/
theorem getLsbD_fullWord (b₀ b₁ b₂ b₃ : UInt8) {i : Nat} (hi : i < 32) :
    (fullWord b₀ b₁ b₂ b₃).getLsbD i
      = ([b₀, b₁, b₂, b₃].getD (i / 8) 0).toBitVec.getLsbD (i % 8) := by
  unfold fullWord
  rw [BitVec.getLsbD_append, BitVec.getLsbD_append, BitVec.getLsbD_append]
  split
  · next h =>
    rw [Nat.div_eq_of_lt h, Nat.mod_eq_of_lt h]
    rfl
  · split
    · have hdiv : i / 8 = 1 := by omega
      have hmod : i % 8 = i - 8 := by omega
      rw [hdiv, hmod]
      rfl
    · split
      · have hdiv : i / 8 = 2 := by omega
        have hmod : i % 8 = i - 8 - 8 := by omega
        rw [hdiv, hmod]
        rfl
      · have hdiv : i / 8 = 3 := by omega
        have hmod : i % 8 = i - 8 - 8 - 8 := by omega
        rw [hdiv, hmod]
        rfl

/-- A word of two bytes is one of four whose upper half is zero. -/
theorem halfWord_eq (b₀ b₁ : UInt8) : halfWord b₀ b₁ = fullWord b₀ b₁ 0 0 := by
  apply BitVec.eq_of_getLsbD_eq
  intro i hi
  unfold halfWord fullWord
  rw [BitVec.getLsbD_setWidth, BitVec.getLsbD_append, BitVec.getLsbD_append,
    BitVec.getLsbD_append, BitVec.getLsbD_append, decide_eq_true hi, Bool.true_and]
  split
  · rfl
  · split
    · rfl
    · -- above both bytes everything is zero
      rw [BitVec.getLsbD_of_ge b₁.toBitVec (i - 8) (by omega)]
      split <;> simp

theorem bytes_fullWord (b₀ b₁ b₂ b₃ : UInt8) :
    (fullWord b₀ b₁ b₂ b₃).bytes 4 = [b₀, b₁, b₂, b₃] := by
  apply List.ext_getElem
  · rfl
  · intro j _ hj
    have hj4 : j < 4 := hj
    simp only [Word.bytes, List.getElem_map, List.getElem_range]
    apply UInt8.toBitVec_inj.mp
    apply BitVec.eq_of_getLsbD_eq
    intro i hi
    have hdiv : (8 * j + i) / 8 = j := by omega
    have hmod : (8 * j + i) % 8 = i := by omega
    rw [BitVec.getLsbD_extractLsb', getLsbD_fullWord _ _ _ _ (by omega), hdiv, hmod]
    simp [hi, hj4]

theorem bytes_halfWord (b₀ b₁ : UInt8) : (halfWord b₀ b₁).bytes 2 = [b₀, b₁] := by
  have htake : ∀ w : Word, w.bytes 2 = (w.bytes 4).take 2 := fun _ => rfl
  rw [halfWord_eq, htake, bytes_fullWord]
  rfl

/-- The first two bytes are the low half of the word. -/
theorem getLsbD_halfWord (b₀ b₁ b₂ b₃ : UInt8) {i : Nat} (hi : i < 32) :
    (halfWord b₀ b₁).getLsbD i
      = (decide (i < 16) && (fullWord b₀ b₁ b₂ b₃).getLsbD i) := by
  rw [halfWord_eq, getLsbD_fullWord _ _ _ _ hi, getLsbD_fullWord _ _ _ _ hi]
  have hcases : i / 8 = 0 ∨ i / 8 = 1 ∨ i / 8 = 2 ∨ i / 8 = 3 := by omega
  rcases hcases with h | h | h | h
  · rw [h, decide_eq_true (by omega), Bool.true_and]
    rfl
  · rw [h, decide_eq_true (by omega), Bool.true_and]
    rfl
  · rw [h, decide_eq_false (by omega), Bool.false_and]
    simp
  · rw [h, decide_eq_false (by omega), Bool.false_and]
    simp

theorem isStandard_fullWord (b₀ b₁ b₂ b₃ : UInt8) :
    (fullWord b₀ b₁ b₂ b₃).isStandard = (halfWord b₀ b₁).isStandard := by
  rw [Bool.eq_iff_iff, Word.isStandard_iff, Word.isStandard_iff,
    getLsbD_halfWord b₀ b₁ b₂ b₃ (by decide), getLsbD_halfWord b₀ b₁ b₂ b₃ (by decide)]
  simp

/-- The bits of a 16-bit instruction are its two bytes, whatever follows them. -/
theorem parcel_fullWord {b₀ b₁ : UInt8} (h : (halfWord b₀ b₁).isStandard = false)
    (b₂ b₃ : UInt8) : (fullWord b₀ b₁ b₂ b₃).parcel = halfWord b₀ b₁ := by
  apply BitVec.eq_of_getLsbD_eq
  intro i hi
  have hwidth : (fullWord b₀ b₁ b₂ b₃).width = .compressed := by
    rw [Word.width, isStandard_fullWord, h]
    rfl
  rw [Word.getLsbD_parcel, hwidth, getLsbD_halfWord b₀ b₁ b₂ b₃ hi]
  rfl

theorem parcel_halfWord {b₀ b₁ : UInt8} (h : (halfWord b₀ b₁).isStandard = false) :
    (halfWord b₀ b₁).parcel = halfWord b₀ b₁ := by
  rw [← parcel_fullWord h 0 0, Word.parcel_parcel]

theorem Word.length_of_isStandard {w : Word} (h : w.isStandard = true) : w.length = 4 := by
  rw [length, width, if_pos h]
  rfl

theorem Word.length_of_not_isStandard {w : Word} (h : w.isStandard = false) :
    w.length = 2 := by
  rw [length, width, h]
  rfl

/-! ### Cutting an image -/

/-- What the first parcel of an image can be. -/
inductive Parcel.Starts : Parcel → List UInt8 → Prop
  /-- An instruction of 16 bits. -/
  | short {b₀ b₁ : UInt8} (rest : List UInt8) (h : (halfWord b₀ b₁).isStandard = false) :
    Starts (.whole (halfWord b₀ b₁)) (b₀ :: b₁ :: rest)
  /-- An instruction of 32 bits. -/
  | long {b₀ b₁ : UInt8} (b₂ b₃ : UInt8) (rest : List UInt8)
    (h : (halfWord b₀ b₁).isStandard = true) :
    Starts (.whole (fullWord b₀ b₁ b₂ b₃)) (b₀ :: b₁ :: b₂ :: b₃ :: rest)
  /-- The first half of an instruction of 32 bits, at the end. -/
  | torn {b₀ b₁ : UInt8} {rest : List UInt8} (h : (halfWord b₀ b₁).isStandard = true)
    (hrest : rest.length < 2) : Starts (.torn (halfWord b₀ b₁)) (b₀ :: b₁ :: rest)

theorem parcels_short {b₀ b₁ : UInt8} (h : (halfWord b₀ b₁).isStandard = false)
    (rest : List UInt8) :
    parcels (b₀ :: b₁ :: rest) = .whole (halfWord b₀ b₁) :: parcels rest := by
  rw [parcels.eq_def]
  simp [h]

theorem parcels_long {b₀ b₁ : UInt8} (h : (halfWord b₀ b₁).isStandard = true)
    (b₂ b₃ : UInt8) (rest : List UInt8) :
    parcels (b₀ :: b₁ :: b₂ :: b₃ :: rest)
      = .whole (fullWord b₀ b₁ b₂ b₃) :: parcels rest := by
  rw [parcels.eq_def]
  simp [h]

theorem parcels_torn {b₀ b₁ : UInt8} (h : (halfWord b₀ b₁).isStandard = true)
    {rest : List UInt8} (hrest : rest.length < 2) :
    parcels (b₀ :: b₁ :: rest) = [.torn (halfWord b₀ b₁)] := by
  match rest with
  | [] => rw [parcels.eq_def]; simp [h]
  | [_] => rw [parcels.eq_def]; simp [h]
  | _ :: _ :: _ => exact absurd hrest (by simp)

theorem parcels_of_length_lt {bytes : List UInt8} (h : bytes.length < 2) :
    parcels bytes = [] := by
  match bytes with
  | [] => rfl
  | [_] => rfl
  | _ :: _ :: _ => exact absurd h (by simp)

/-- **One step of cutting an image**: less than two bytes give nothing; otherwise
there is a first parcel, and the others are those of the bytes behind it. -/
theorem parcels_cases (bytes : List UInt8) :
    (bytes.length < 2 ∧ parcels bytes = []) ∨
    ∃ p : Parcel, p.Starts bytes ∧ parcels bytes = p :: parcels (bytes.drop p.length) := by
  rcases Nat.lt_or_ge bytes.length 2 with hlt | hge
  · exact Or.inl ⟨hlt, parcels_of_length_lt hlt⟩
  · refine Or.inr ?_
    match bytes with
    | b₀ :: b₁ :: rest =>
      cases h : (halfWord b₀ b₁).isStandard with
      | false =>
        refine ⟨_, .short rest h, ?_⟩
        rw [parcels_short h, Parcel.length, Word.length_of_not_isStandard h]
        rfl
      | true =>
        rcases Nat.lt_or_ge rest.length 2 with hrest | hrest
        · -- the bytes behind a torn parcel are too few for another
          refine ⟨_, .torn h hrest, ?_⟩
          rw [parcels_torn h hrest, Parcel.length]
          simp only [List.drop_succ_cons, List.drop_zero]
          rw [parcels_of_length_lt hrest]
        · match rest with
          | b₂ :: b₃ :: rest =>
            have hlength : (fullWord b₀ b₁ b₂ b₃).length = 4 :=
              Word.length_of_isStandard (isStandard_fullWord b₀ b₁ b₂ b₃ ▸ h)
            refine ⟨_, .long b₂ b₃ rest h, ?_⟩
            rw [parcels_long h, Parcel.length, hlength]
            rfl

theorem Parcel.Starts.length_cases {p : Parcel} {bytes : List UInt8} (h : p.Starts bytes) :
    (p.length = 2 ∨ p.length = 4) ∧ p.length ≤ bytes.length := by
  cases h with
  | short rest h =>
    rw [length, Word.length_of_not_isStandard h]
    simp
  | @long b₀ b₁ b₂ b₃ rest h =>
    rw [length, Word.length_of_isStandard (isStandard_fullWord b₀ b₁ b₂ b₃ ▸ h)]
    simp
  | torn h hrest => simp [length]

/-- Where the bytes of a 32-bit instruction are missing, the first parcel is torn. -/
theorem Parcel.Starts.eq_torn {p : Parcel} {b₀ b₁ : UInt8} {rest : List UInt8}
    (h : p.Starts (b₀ :: b₁ :: rest)) (hrest : rest.length < 2)
    (hstandard : (halfWord b₀ b₁).isStandard = true) : p = .torn (halfWord b₀ b₁) := by
  cases h with
  | short _ hshort =>
    rw [hstandard] at hshort
    contradiction
  | long b₂ b₃ rest _ => exact absurd hrest (by simp)
  | torn _ _ => rfl

/-! ### Lines -/

namespace Line

/-- The bytes of a line, lowest first. -/
def bytes (l : Line) : List UInt8 := l.word.bytes l.length

/-- Where line `k` starts: the lengths of the lines before it, taken together. -/
def offset : List Line → Nat → Nat
  | _, 0 => 0
  | [], _ + 1 => 0
  | l :: lines, k + 1 => l.length + offset lines k

@[simp] theorem offset_zero (lines : List Line) : offset lines 0 = 0 := by
  cases lines <;> rfl

theorem offset_cons_succ (l : Line) (lines : List Line) (k : Nat) :
    offset (l :: lines) (k + 1) = l.length + offset lines k := rfl

theorem offset_succ {lines : List Line} {k : Nat} (h : k < lines.length) :
    offset lines (k + 1) = offset lines k + lines[k].length := by
  induction k generalizing lines with
  | zero =>
    cases lines with
    | nil => contradiction
    | cons l lines =>
      rw [offset_cons_succ, offset_zero, offset_zero, Nat.add_zero, Nat.zero_add]
      rfl
  | succ k ih =>
    cases lines with
    | nil => contradiction
    | cons l lines =>
      have hlt : k < lines.length := Nat.lt_of_succ_lt_succ h
      rw [offset_cons_succ, ih hlt, offset_cons_succ, Nat.add_assoc]
      rfl

end Line

namespace InstructionSet

variable (s : InstructionSet)

@[simp] theorem length_lineOf (address : Address) (p : Parcel) :
    (s.lineOf address p).length = p.length := by
  cases p <;> rfl

@[simp] theorem address_lineOf (address : Address) (p : Parcel) :
    (s.lineOf address p).address = address &&& s.addressMask := by
  cases p <;> rfl

/-- A line has the bytes of its parcel. -/
theorem bytes_lineOf (address : Address) {p : Parcel} {bytes : List UInt8}
    (h : p.Starts bytes) : (s.lineOf address p).bytes = bytes.take p.length := by
  cases h with
  | @short b₀ b₁ rest h =>
    have hlength := Word.length_of_not_isStandard h
    rw [Parcel.length, hlength]
    change (halfWord b₀ b₁).parcel.bytes (halfWord b₀ b₁).length = _
    rw [hlength, parcel_halfWord h, bytes_halfWord]
    rfl
  | @long b₀ b₁ b₂ b₃ rest h =>
    have hstandard : (fullWord b₀ b₁ b₂ b₃).isStandard = true := by
      rw [isStandard_fullWord, h]
    have hlength := Word.length_of_isStandard hstandard
    rw [Parcel.length, hlength]
    change (fullWord b₀ b₁ b₂ b₃).parcel.bytes (fullWord b₀ b₁ b₂ b₃).length = _
    rw [hlength, Word.parcel, if_pos hstandard, bytes_fullWord]
    rfl
  | torn h hrest => exact bytes_halfWord _ _

/-- **The lines from line `k` on are those of the image from there on**, at the
address that the lines before it lead to. -/
theorem drop_listing (base : Address) (bytes : List UInt8) (k : Nat) :
    (s.listing base (parcels bytes)).drop k
      = s.listing
        (base + BitVec.ofNat 64 (Line.offset (s.listing base (parcels bytes)) k))
        (parcels (bytes.drop (Line.offset (s.listing base (parcels bytes)) k))) := by
  induction k generalizing base bytes with
  | zero => simp
  | succ k ih =>
    rcases parcels_cases bytes with ⟨-, hnil⟩ | ⟨p, -, hcons⟩
    · rw [hnil, listing, Line.offset, List.drop_zero, hnil, List.drop_nil, listing]
    · rw [hcons, listing, List.drop_succ_cons, Line.offset_cons_succ, length_lineOf, ih,
        List.drop_drop, BitVec.ofNat_add, BitVec.add_assoc]

/-- The bytes of the lines are those of the image, as far as they go in pairs. -/
theorem flatMap_bytes_listing (base : Address) (bytes : List UInt8) :
    (s.listing base (parcels bytes)).flatMap Line.bytes
      = bytes.take (2 * (bytes.length / 2)) := by
  -- the image gets shorter by two or four bytes at a time
  induction hn : bytes.length using Nat.strongRecOn generalizing base bytes with
  | ind n ih =>
    rcases parcels_cases bytes with ⟨hlt, hnil⟩ | ⟨p, hp, hcons⟩
    · have hzero : 2 * (n / 2) = 0 := by omega
      rw [hnil, hzero]
      rfl
    · obtain ⟨hlength, hle⟩ := hp.length_cases
      have hrest := ih (bytes.length - p.length) (by omega)
        (base + BitVec.ofNat 64 p.length) (bytes.drop p.length) (by rw [List.length_drop])
      have hsum : 2 * (n / 2) = p.length + 2 * ((bytes.length - p.length) / 2) := by omega
      rw [hcons, listing, List.flatMap_cons, bytes_lineOf s base hp, hrest, hsum,
        List.take_add]

/-- Line `k` is that of the first parcel of the image from there on. -/
theorem exists_parcel_at (base : Address) (bytes : List UInt8) {k : Nat}
    (h : k < (s.listing base (parcels bytes)).length) :
    ∃ p : Parcel,
      p.Starts (bytes.drop (Line.offset (s.listing base (parcels bytes)) k)) ∧
      (s.listing base (parcels bytes))[k]
        = s.lineOf
          (base + BitVec.ofNat 64 (Line.offset (s.listing base (parcels bytes)) k)) p := by
  have hdrop := s.drop_listing base bytes k
  rw [List.drop_eq_getElem_cons h] at hdrop
  rcases parcels_cases
      (bytes.drop (Line.offset (s.listing base (parcels bytes)) k)) with
    ⟨-, hnil⟩ | ⟨p, hp, hcons⟩
  · rw [hnil] at hdrop
    contradiction
  · rw [hcons] at hdrop
    exact ⟨p, hp, (List.cons.inj hdrop).1⟩

/-- There is a line `k` exactly if two bytes remain where it would start. -/
theorem lt_length_listing_iff (base : Address) (bytes : List UInt8) (k : Nat) :
    k < (s.listing base (parcels bytes)).length ↔
      Line.offset (s.listing base (parcels bytes)) k + 2 ≤ bytes.length := by
  -- the lines that remain are those of the bytes that remain
  have hdrop := congrArg List.length (s.drop_listing base bytes k)
  rw [List.length_drop] at hdrop
  rcases parcels_cases
      (bytes.drop (Line.offset (s.listing base (parcels bytes)) k)) with
    ⟨hlt, hnil⟩ | ⟨p, hp, hcons⟩
  · rw [hnil, listing, List.length_nil] at hdrop
    rw [List.length_drop] at hlt
    omega
  · rw [hcons, listing, List.length_cons] at hdrop
    have hlength := hp.length_cases
    rw [List.length_drop] at hlength
    omega

/-- Only the bits that belong to the instruction count. -/
theorem disassemble_congr (address : Address) {w w' : Word} (h : w.parcel = w'.parcel) :
    s.disassemble address w = s.disassemble address w' := by
  have hlength : w.length = w'.length := by
    rw [Word.length, Word.length, ← w.width_parcel, ← w'.width_parcel, h]
  unfold disassemble
  rw [h, hlength]

end InstructionSet

/-! ### Tiling -/

/-- Lines tile an image, starting from a base address. -/
structure Tiles (s : InstructionSet) (base : Address) (bytes : List UInt8)
    (lines : List Line) : Prop where
  /-- The bytes of the lines are those of the image, without the last byte if their
  number is odd. -/
  bytes_eq : lines.flatMap Line.bytes = if bytes.length % 2 = 0 then bytes else bytes.dropLast
  /-- There is a line exactly where two bytes remain. -/
  lt_length_iff : ∀ k, k < lines.length ↔ Line.offset lines k + 2 ≤ bytes.length
  /-- A line has the address of its bytes, modulo the addresses of the set. -/
  address_eq : ∀ k (_ : k < lines.length), lines[k].address.toNat
    = (base.toNat + Line.offset lines k) % 2 ^ 64 % 2 ^ s.xlen.bits
  /-- Where four bytes remain, a line is that of the word they make. -/
  disassemble_eq : ∀ k (_ : k < lines.length) b₀ b₁ b₂ b₃ rest,
    bytes.drop (Line.offset lines k) = b₀ :: b₁ :: b₂ :: b₃ :: rest →
      lines[k] = s.disassemble (base + BitVec.ofNat 64 (Line.offset lines k))
        (fullWord b₀ b₁ b₂ b₃)
  /-- Where two bytes announce no more, a line is that of these two alone, also at the
  end of the image. -/
  short_eq : ∀ k (_ : k < lines.length) b₀ b₁ rest,
    bytes.drop (Line.offset lines k) = b₀ :: b₁ :: rest →
      (halfWord b₀ b₁).isStandard = false →
      lines[k] = s.disassemble (base + BitVec.ofNat 64 (Line.offset lines k))
        (halfWord b₀ b₁)
  /-- A line is shorter than its word announces exactly where two or three bytes remain
  and announce more. -/
  torn_iff : ∀ k (_ : k < lines.length), lines[k].length ≠ lines[k].word.length ↔
    ∃ b₀ b₁ rest, bytes.drop (Line.offset lines k) = b₀ :: b₁ :: rest ∧ rest.length < 2 ∧
      (halfWord b₀ b₁).isStandard = true
  /-- Such a line is the last, two bytes long, and shows no instruction. -/
  torn_last : ∀ k (_ : k < lines.length), lines[k].length ≠ lines[k].word.length →
    k + 1 = lines.length ∧ lines[k].length = 2 ∧ lines[k].assembly = "illegal"

namespace InstructionSet

/-- A line that is torn comes from a torn parcel. -/
theorem length_ne_iff (s : InstructionSet) (address : Address) {p : Parcel}
    {bytes : List UInt8} (h : p.Starts bytes) :
    (s.lineOf address p).length ≠ (s.lineOf address p).word.length ↔
      ∃ b₀ b₁ rest, bytes = b₀ :: b₁ :: rest ∧ rest.length < 2 ∧
        (halfWord b₀ b₁).isStandard = true := by
  -- the line of a whole parcel has the length that its word announces
  have hwhole : ∀ w : Word,
      (s.lineOf address (.whole w)).length = (s.lineOf address (.whole w)).word.length := by
    intro w
    change w.length = w.parcel.length
    rw [Word.length, Word.length, Word.width_parcel]
  cases h with
  | short rest h =>
    refine iff_of_false (fun hne => hne (hwhole _)) ?_
    rintro ⟨b₀, b₁, rest', heq, -, hstandard⟩
    obtain ⟨rfl, htail⟩ := List.cons.inj heq
    obtain ⟨rfl, -⟩ := List.cons.inj htail
    rw [h] at hstandard
    contradiction
  | long b₂ b₃ rest h =>
    refine iff_of_false (fun hne => hne (hwhole _)) ?_
    rintro ⟨b₀, b₁, rest', heq, hrest, -⟩
    have hlength := congrArg List.length heq
    simp only [List.length_cons] at hlength
    omega
  | @torn b₀ b₁ rest h hrest =>
    refine iff_of_true ?_ ⟨b₀, b₁, rest, rfl, hrest, h⟩
    change 2 ≠ (halfWord b₀ b₁).length
    rw [Word.length_of_isStandard h]
    decide

/-- **The lines of an image tile it**, for every set, base address and image. -/
theorem tiles_listing (s : InstructionSet) (base : Address) (bytes : List UInt8) :
    Tiles s base bytes (s.listing base (parcels bytes)) where
  bytes_eq := by
    rw [flatMap_bytes_listing]
    split
    · exact List.take_of_length_le (by omega)
    · rw [List.dropLast_eq_take]
      congr 1
      omega
  lt_length_iff k := s.lt_length_listing_iff base bytes k
  address_eq k h := by
    obtain ⟨p, -, hline⟩ := s.exists_parcel_at base bytes h
    rw [hline, address_lineOf, addressMask, toNat_and_addressMask, BitVec.toNat_add,
      BitVec.toNat_ofNat, Nat.add_mod_mod]
  disassemble_eq k h b₀ b₁ b₂ b₃ rest hbytes := by
    obtain ⟨p, hp, hline⟩ := s.exists_parcel_at base bytes h
    rw [hbytes] at hp
    rw [hline]
    cases hp with
    | short rest h =>
      -- the two bytes behind a short instruction do not count
      exact s.disassemble_congr _ (by rw [parcel_halfWord h, parcel_fullWord h])
    | long b₂ b₃ rest h => rfl
    | torn h hrest => exact absurd hrest (by simp)  -- four bytes are enough
  short_eq k h b₀ b₁ rest hbytes hshort := by
    obtain ⟨p, hp, hline⟩ := s.exists_parcel_at base bytes h
    rw [hbytes] at hp
    rw [hline]
    cases hp with
    | short rest h => rfl
    | long b₂ b₃ rest h =>
      rw [h] at hshort
      contradiction
    | torn h hrest =>
      rw [h] at hshort
      contradiction
  torn_iff k h := by
    obtain ⟨p, hp, hline⟩ := s.exists_parcel_at base bytes h
    rw [hline]
    exact s.length_ne_iff _ hp
  torn_last k h hne := by
    obtain ⟨p, hp, hline⟩ := s.exists_parcel_at base bytes h
    rw [hline] at hne
    obtain ⟨b₀, b₁, rest, hbytes, hrest, hstandard⟩ := (s.length_ne_iff _ hp).mp hne
    rw [hbytes] at hp
    obtain rfl := hp.eq_torn hrest hstandard
    -- behind the torn parcel less than two bytes remain
    have hnext := s.lt_length_listing_iff base bytes (k + 1)
    have hremain := congrArg List.length hbytes
    rw [Line.offset_succ h, hline, length_lineOf, Parcel.length] at hnext
    rw [List.length_drop, List.length_cons, List.length_cons] at hremain
    rw [hline]
    exact ⟨by omega, rfl, rfl⟩

end InstructionSet

end RiscV
