import Mathlib.Data.Finset.Union
import Mathlib.Order.Interval.Finset.Nat
import RiscV.Proofs.Except
import RiscV.Proofs.Layout.Cells
import RiscV.Proofs.Text.Numeral

/-!
# What a layout draws

A layout that compiles is a drawing of the instruction.  Its words, up to the
mnemonic, stand for the bits of the word from the highest down: a run of literal
characters for as many bits, a part of the immediate for one bit per index that
its ranges name, and a bare field for the bits of that field.

The drawing is defined on the text alone, next to the reading that compiling
does, and the two are shown to agree.

## Main definitions

* `Layout.fieldWidth`, `Layout.drawn` — the bits one word of the layout stands
  for, with the literal character of each.
* `Layout.column` — what the layout draws at a bit of the word.
* `Layout.Depicts` — a compiled layout has the fixed bits that were drawn.

## Main results

* `Layout.cells_of_readItem` — reading a word of the layout gives the cells drawn.
* `Layout.depicts_of_compile` — **a layout that compiles depicts its pattern.**
-/

namespace RiscV
namespace Layout

/-! ### The drawing -/

/-- The number a bit index stands for.  A plus sign in front does not count. -/
def indexValue (text : List Char) : Nat :=
  Nat.ofDigitChars 10 (if text.head? = some '+' then text.tail else text) 0

/-- The bits that one range names: those from its lower to its upper end, or the
one bit of a single index. -/
def rangeIndices (text : List Char) : Finset Nat :=
  match text.span (· != ':') with
  | (hi, _ :: lo) => Finset.Icc (indexValue lo) (indexValue hi)
  | (index, []) => {indexValue index}

/-- The bits that ranges separated by bars name together. -/
def indices (ranges : List Char) : Finset Nat :=
  (Text.splitAt (· == '|') ranges).toFinset.biUnion rangeIndices

/-- The number of bits a field stands for: one for each distinct index in its
ranges, or the width that goes with its name. -/
def fieldWidth (token : List Char) : Nat :=
  match (beforeRemark token).span (· != '[') with
  | (_, _ :: rest) => (indices rest.dropLast).card
  | (name, []) => ((BareField.ofName? name).map BareField.width).getD 0

/-- The bits that a word of the layout stands for, highest first, each with its
literal character if it has one. -/
def drawn (token : List Char) : List (Option Char) :=
  if isLiteral token then token.map some else List.replicate (fieldWidth token) none

/-- What the words of a layout draw at bit `i`, when they are laid out from the
highest bit of the width down: a literal character, or nothing. -/
def column (width : Width) (fields : List (List Char)) (i : Nat) : Option Char :=
  if i < width.bits then (fields.flatMap drawn)[width.bits - 1 - i]?.join else none

/-! ### Reading ranges -/

theorem indexValue_of_readIndex {text : List Char} {n : Nat}
    (h : readIndex text = .ok n) : indexValue text = n := by
  have hmagnitude : ∀ cs, Text.readMagnitude 10 63 .tooLarge cs = .ok n →
      Nat.ofDigitChars 10 cs 0 = n := by
    intro cs hcs
    unfold Text.readMagnitude at hcs
    split at hcs
    · contradiction
    · exact Text.ofDigitChars_of_readDigits hcs
  unfold readIndex at h
  cases hread : Text.readNatural 10 63 text with
  | error e => simp [hread] at h
  | ok m =>
    obtain rfl : m = n := by simpa [hread] using h
    unfold Text.readNatural at hread
    split at hread
    · contradiction
    · next cs => exact hmagnitude cs hread
    · next hplus =>
      have hhead : ¬text.head? = some '+' := by
        intro hhead
        obtain ⟨cs, rfl⟩ := List.head?_eq_some_iff.mp hhead
        exact hplus cs rfl
      rw [indexValue, if_neg hhead]
      exact hmagnitude text hread

theorem rangeIndices_of_readRange {text : List Char} {hi lo : Nat}
    (h : readRange text = .ok (hi, lo)) : lo ≤ hi ∧ rangeIndices text = Finset.Icc lo hi := by
  unfold readRange at h
  unfold rangeIndices
  generalize text.span (· != ':') = parts at h ⊢
  obtain ⟨head, rest⟩ := parts
  cases rest with
  | cons c loText =>
    obtain ⟨m, hm, h⟩ := Except.bind_eq_ok.mp h
    obtain ⟨n, hn, h⟩ := Except.bind_eq_ok.mp h
    split at h
    · contradiction
    · next hle =>
      obtain ⟨rfl, rfl⟩ := Prod.mk.inj (Except.ok.inj h)
      simp only [indexValue_of_readIndex hm, indexValue_of_readIndex hn]
      exact ⟨by omega, trivial⟩
  | nil =>
    obtain ⟨n, hn, h⟩ := Except.bind_eq_ok.mp h
    obtain ⟨rfl, rfl⟩ := Prod.mk.inj (Except.ok.inj h)
    simp only [indexValue_of_readIndex hn, Finset.Icc_self]
    exact ⟨le_rfl, trivial⟩

theorem nodup_descending (hi lo : Nat) : (descending hi lo).Nodup := by
  unfold descending
  refine List.Nodup.map_on ?_ List.nodup_range
  intro a ha b hb hab
  rw [List.mem_range] at ha hb
  omega

theorem toFinset_descending {hi lo : Nat} (h : lo ≤ hi) :
    (descending hi lo).toFinset = Finset.Icc lo hi := by
  ext n
  simp only [descending, List.mem_toFinset, List.mem_map, List.mem_range, Finset.mem_Icc]
  constructor
  · rintro ⟨k, hk, rfl⟩
    omega
  · rintro ⟨hlo, hhi⟩
    exact ⟨hi - n, by omega, by omega⟩

/-- No common bit is found exactly when there is none. -/
theorem lowestCommon?_eq_none_iff {old new : List Nat} :
    lowestCommon? old new = none ↔ ∀ bit ∈ new, bit ∉ old := by
  simp [lowestCommon?, List.filter_eq_nil_iff]

/-- The places read from ranges are the bits that the ranges name, each once. -/
theorem places_of_readRanges {ranges : List Char} {texts : List (List Char)}
    {held places : List Nat} (hheld : held.Nodup)
    (h : readRanges ranges held texts = .ok places) :
    places.Nodup ∧
      places.toFinset = held.toFinset ∪ texts.toFinset.biUnion rangeIndices := by
  induction texts generalizing held with
  | nil =>
    rw [readRanges] at h
    obtain rfl := Except.ok.inj h
    simpa using hheld
  | cons text texts ih =>
    rw [readRanges] at h
    obtain ⟨⟨hi, lo⟩, hrange, h⟩ := Except.bind_eq_ok.mp h
    obtain ⟨hle, hindices⟩ := rangeIndices_of_readRange hrange
    dsimp only at h
    split at h
    · contradiction
    · next hcommon =>
      rw [lowestCommon?_eq_none_iff] at hcommon
      have hnodup : (held ++ descending hi lo).Nodup := by
        rw [List.nodup_append]
        refine ⟨hheld, nodup_descending hi lo, ?_⟩
        intro a ha b hb hab
        exact hcommon b hb (hab ▸ ha)
      obtain ⟨hplaces, hset⟩ := ih hnodup h
      refine ⟨hplaces, ?_⟩
      rw [hset, List.toFinset_append, toFinset_descending hle, List.toFinset_cons,
        Finset.biUnion_insert, hindices, Finset.union_assoc]

/-! ### Reading words -/

/-- A part of the immediate that is read takes one bit for each index. -/
theorem cells_of_readImmediate {token name rest : List Char} {item : Item}
    (h : readImmediate token name rest = .ok item) :
    item.cells = List.replicate (indices rest.dropLast).card none := by
  unfold readImmediate at h
  split at h
  · contradiction
  · split at h
    · obtain ⟨places, hplaces, h⟩ := Except.bind_eq_ok.mp h
      obtain rfl := Except.ok.inj h
      obtain ⟨hnodup, hset⟩ := places_of_readRanges List.nodup_nil hplaces
      have hcard : (indices rest.dropLast).card = places.length := by
        rw [← List.toFinset_card_of_nodup hnodup, hset, indices, List.toFinset_nil,
          Finset.empty_union]
      rw [hcard]
      rfl
    · contradiction

/-- A field that is read takes the bits that it is drawn with. -/
theorem cells_of_readField {token : List Char} {item : Item}
    (h : readField token = .ok item) :
    item.cells = List.replicate (fieldWidth token) none := by
  unfold readField at h
  unfold fieldWidth
  generalize (beforeRemark token).span (· != '[') = parts at h ⊢
  obtain ⟨name, rest⟩ := parts
  cases rest with
  | cons c rest => exact cells_of_readImmediate h
  | nil =>
    cases hname : BareField.ofName? name with
    | some field =>
      simp only [hname] at h
      obtain rfl := Except.ok.inj h
      simp [Item.cells, Item.width, hname]
    | none =>
      simp only [hname] at h
      contradiction

/-- **Reading a word of the layout gives the cells drawn.** -/
theorem cells_of_readItem {token : List Char} {item : Item}
    (h : readItem token = .ok item) :
    item.cells = (drawn token).map (Option.map (· == '1')) := by
  unfold readItem at h
  unfold drawn
  split at h
  · next hliteral =>
    obtain rfl := Except.ok.inj h
    simp [hliteral, Item.cells]
  · next hfield => simp [hfield, cells_of_readField h]

theorem cells_of_readItems {tokens : List (List Char)} {earlier items : List Item}
    (h : readItems earlier tokens = .ok items) :
    items.flatMap Item.cells
      = earlier.flatMap Item.cells ++ (tokens.flatMap drawn).map (Option.map (· == '1')) := by
  induction tokens generalizing earlier with
  | nil =>
    rw [readItems] at h
    obtain rfl := Except.ok.inj h
    simp
  | cons token tokens ih =>
    rw [readItems] at h
    obtain ⟨item, hitem, h⟩ := Except.bind_eq_ok.mp h
    split at h
    · contradiction
    · rw [ih h]
      simp [cells_of_readItem hitem]

/-- A layout that is read has a last word, which gives the mnemonic, and items
read from the words before it. -/
theorem ofWords_eq_ok {tokens : List (List Char)} {layout : Layout}
    (h : ofWords tokens = .ok layout) :
    ∃ fields name, tokens = fields ++ [name] ∧ readItems [] fields = .ok layout.items ∧
      layout.mnemonic = String.ofList (name.map Char.toLower) := by
  unfold ofWords at h
  split at h
  · contradiction
  · next last hlast =>
    split at h
    · split at h
      · contradiction
      · obtain ⟨items, hitems, h⟩ := Except.bind_eq_ok.mp h
        obtain rfl := Except.ok.inj h
        refine ⟨tokens.dropLast, last, ?_, hitems, rfl⟩
        exact (List.dropLast_append_getLast? last hlast).symm
    · contradiction

/-! ### The drawing and the pattern -/

/-- Only literal characters are drawn. -/
theorem eq_zero_or_one_of_mem_drawn {token : List Char} {c : Char}
    (h : some c ∈ drawn token) : c = '0' ∨ c = '1' := by
  unfold drawn at h
  split at h
  · next hliteral =>
    obtain ⟨c', hc', heq⟩ := List.mem_map.mp h
    obtain rfl := Option.some.inj heq
    simpa using List.all_eq_true.mp hliteral c' hc'
  · simp at h

theorem eq_zero_or_one_of_column {width : Width} {fields : List (List Char)} {i : Nat}
    {c : Char} (h : column width fields i = some c) : c = '0' ∨ c = '1' := by
  unfold column at h
  split at h
  · have hmem := List.mem_of_getElem? (Option.join_eq_some_iff.mp h)
    obtain ⟨token, -, hc⟩ := List.mem_flatMap.mp hmem
    exact eq_zero_or_one_of_mem_drawn hc
  · contradiction

/-- The cells of a width have the characters of the columns. -/
theorem cellAt_eq_column {width : Width} {fields : List (List Char)}
    (hlen : (fields.flatMap drawn).length = width.bits) (i : Nat) :
    cellAt ((fields.flatMap drawn).map (Option.map (· == '1'))) i
      = (column width fields i).map (· == '1') := by
  unfold column
  split
  · next hi =>
    rw [cellAt, List.getElem?_reverse (by simpa [hlen] using hi), List.length_map, hlen,
      List.getElem?_map]
    cases (fields.flatMap drawn)[width.bits - 1 - i]? with
    | none => rfl
    | some c => cases c <;> rfl
  · next hi => rw [cellAt_eq_none (by simp only [List.length_map]; omega), Option.map_none]

/-- A compiled layout has the fixed bits that the words `fields` draw, and the
mnemonic `name`. -/
structure Depicts (c : CompiledLayout) (width : Width) (fields : List (List Char))
    (name : List Char) : Prop where
  /-- The mnemonic is the last word in lower case. -/
  mnemonic_eq : c.mnemonic = String.ofList (name.map Char.toLower)
  /-- The pattern is of the width asked for. -/
  width_eq : c.pattern.width = width
  /-- The words take every bit of the width once, and none is left over. -/
  length_eq : (fields.flatMap drawn).length = width.bits
  /-- At no word do the bits run out. -/
  length_take_le : ∀ k, ((fields.take k).flatMap drawn).length ≤ width.bits
  /-- A bit is in the mask when a literal character stands there. -/
  mask_iff : ∀ i, c.pattern.mask.getLsbD i = true ↔ ∃ ch, column width fields i = some ch
  /-- A bit is in the value when that character is `1`. -/
  value_iff : ∀ i, c.pattern.value.getLsbD i = true ↔ column width fields i = some '1'
  /-- The value has no bit outside the mask. -/
  value_and_not_mask : c.pattern.value &&& ~~~c.pattern.mask = 0#32
  /-- The mask has no bit beyond the width. -/
  mask_of_ge : ∀ i, width.bits ≤ i → c.pattern.mask.getLsbD i = false
  /-- A word is accepted when it has every literal character at its place. -/
  accepts_iff : ∀ w, c.pattern.accepts w = true ↔
    ∀ i ch, column width fields i = some ch → ch = if w.getLsbD i then '1' else '0'

/-- The pattern of cells that are drawn has the fixed bits of the drawing. -/
theorem depicts_ofCells {width : Width} {fields : List (List Char)} {name : List Char}
    (hlen : (fields.flatMap drawn).length = width.bits) :
    Depicts ⟨String.ofList (name.map Char.toLower),
      .ofCells ((fields.flatMap drawn).map (Option.map (· == '1'))) width⟩ width fields name := by
  have hle : ((fields.flatMap drawn).map (Option.map (· == '1'))).length ≤ 32 := by
    rw [List.length_map, hlen]
    exact width.bits_le
  have hmask : ∀ i, (Pattern.ofCells ((fields.flatMap drawn).map (Option.map (· == '1')))
      width).mask.getLsbD i = (column width fields i).isSome := by
    intro i
    rw [Pattern.getLsbD_mask_ofCells hle, cellAt_eq_column hlen, Option.isSome_map]
  have hvalue : ∀ i, (Pattern.ofCells ((fields.flatMap drawn).map (Option.map (· == '1')))
      width).value.getLsbD i = (column width fields i == some '1') := by
    intro i
    rw [Pattern.getLsbD_value_ofCells hle, cellAt_eq_column hlen]
    cases column width fields i with
    | none => rfl
    | some c => cases hc : c == '1' <;> simp_all
  refine ⟨rfl, rfl, hlen, ?_, ?_, ?_, ?_, ?_, ?_⟩
  · intro k
    rw [← hlen]
    exact ((List.take_sublist k fields).flatMap drawn).length_le
  · intro i
    rw [hmask, Option.isSome_iff_exists]
  · intro i
    rw [hvalue, beq_iff_eq]
  · apply BitVec.eq_of_getLsbD_eq
    intro i hi
    rw [BitVec.getLsbD_and, BitVec.getLsbD_not, hmask, hvalue]
    cases column width fields i <;> simp
  · intro i hi
    rw [hmask, column, if_neg (by omega), Option.isSome_none]
  · intro w
    rw [Pattern.accepts_ofCells_iff hle]
    constructor
    · intro h i ch hch
      have hbit := h i (ch == '1') (by rw [cellAt_eq_column hlen, hch, Option.map_some])
      rw [hbit]
      rcases eq_zero_or_one_of_column hch with rfl | rfl <;> rfl
    · intro h i b hb
      rw [cellAt_eq_column hlen] at hb
      obtain ⟨ch, hch, rfl⟩ := Option.map_eq_some_iff.mp hb
      rw [h i ch hch]
      cases w.getLsbD i <;> rfl

/-- **A layout that compiles depicts its pattern.**  The words before the
mnemonic, laid out from the highest bit of the width down, take each of its bits
once; the fixed bits are those under a literal character, with its value; and the
mnemonic is the last word in lower case. -/
theorem depicts_of_compile {text : String} {width : Width} {c : CompiledLayout}
    (h : compile text width = .ok c) :
    ∃ fields name, Text.words text.toList = fields ++ [name] ∧
      Depicts c width fields name := by
  obtain ⟨layout, hparse, hwidth, rfl⟩ := compile_eq_ok_iff.mp h
  obtain ⟨fields, name, hwords, hitems, hmnemonic⟩ := ofWords_eq_ok hparse
  have hcells : layout.cells = (fields.flatMap drawn).map (Option.map (· == '1')) := by
    rw [Layout.cells, cells_of_readItems hitems, List.flatMap_nil, List.nil_append]
  refine ⟨fields, name, hwords, ?_⟩
  rw [hmnemonic, hcells]
  apply depicts_ofCells
  rw [← hwidth, ← length_cells, hcells, List.length_map]

/-- A conditional branch, whose immediate is in two parts. -/
theorem depicts_of_compile_beq :
    compile "imm[12|10:5] rs2 rs1 000 imm[4:1|11] 1100011 BEQ" .standard
        = .ok ⟨"beq", ⟨0x707f#32, 0x63#32, .standard⟩⟩ ∧
      ∃ fields name,
        Text.words "imm[12|10:5] rs2 rs1 000 imm[4:1|11] 1100011 BEQ".toList
          = fields ++ [name] ∧
        Depicts ⟨"beq", ⟨0x707f#32, 0x63#32, .standard⟩⟩ .standard fields name := by
  have h : compile "imm[12|10:5] rs2 rs1 000 imm[4:1|11] 1100011 BEQ" .standard
      = .ok ⟨"beq", ⟨0x707f#32, 0x63#32, .standard⟩⟩ := by decide +kernel
  exact ⟨h, depicts_of_compile h⟩

end Layout
end RiscV
