import RiscV.Csr
import RiscV.Proofs.Text.Numeral
import RiscV.Proofs.Text.Separation

/-!
# Control and status register names are unambiguous

A register prints by its own name, as a member of a family or as a hexadecimal
literal.  No two registers print alike.

## Main definitions

* `Csr.spellings` — all names, with the address of each.

## Main results

* `Csr.mem_spellings` — every name is listed.
* `Csr.name_injective` — **the text of a register determines its address.**
-/

namespace RiscV.Csr

/-- The members of a family, with the characters of their names. -/
def Family.spellings (f : Family) : List (Nat × List Char) :=
  (List.range (f.last - f.first + 1)).map fun i =>
    (f.first + i, f.stem.toList ++ Nat.toDigits 10 (f.first + i - f.origin) ++ f.tail.toList)

/-- All registers with a name, with the characters of the name. -/
def spellings : List (Nat × List Char) :=
  named.map (fun (address, text) => (address, text.toList)) ++
    families.flatMap Family.spellings

theorem Family.mem_spellings {f : Family} {address : Nat} (h : f.contains address = true) :
    (address, (f.name address).toList) ∈ f.spellings := by
  simp only [contains, Bool.and_eq_true, decide_eq_true_eq] at h
  refine List.mem_map.mpr ⟨address - f.first, List.mem_range.mpr (by omega), ?_⟩
  have haddress : f.first + (address - f.first) = address := by omega
  simp [haddress, name]

/-- Every name is listed with its address. -/
theorem mem_spellings {address : Nat} {text : String} (h : name? address = some text) :
    (address, text.toList) ∈ spellings := by
  rw [name?, Option.or_eq_some_iff] at h
  rcases h with h | ⟨-, h⟩
  · obtain ⟨l, l', hnamed, -⟩ := List.lookup_eq_some_iff.mp h
    refine List.mem_append_left _ (List.mem_map.mpr ⟨(address, text), ?_, rfl⟩)
    rw [hnamed]
    exact List.mem_append_right _ List.mem_cons_self
  · obtain ⟨f, hf, rfl⟩ := Option.map_eq_some_iff.mp h
    refine List.mem_append_right _ (List.mem_flatMap.mpr ⟨f, List.mem_of_find?_eq_some hf, ?_⟩)
    have hcontains : f.contains address = true := by simpa using List.find?_some hf
    exact Family.mem_spellings hcontains

theorem nodup_spellings : (spellings.map Prod.snd).Nodup :=
  Text.nodup_of_key (by decide +kernel)

/-- No name starts like a numeral. -/
theorem head_spellings : ∀ x ∈ spellings, x.2.head? ≠ some '0' := by
  decide +kernel

/-- **The text of a register determines its address.** -/
theorem name_injective {a b : Nat} (h : name a = name b) : a = b := by
  unfold name at h
  cases ha : name? a with
  | some s =>
    have hs := mem_spellings ha
    cases hb : name? b with
    | some t =>
      rw [ha, hb] at h
      obtain rfl : s = t := h
      exact congrArg Prod.fst
        (List.inj_on_of_nodup_map nodup_spellings hs (mem_spellings hb) rfl)
    | none =>
      -- a numeral starts with zero, a name does not
      rw [ha, hb] at h
      obtain rfl : s = _ := h
      exact absurd (by simp) (head_spellings _ hs)
  | none =>
    cases hb : name? b with
    | some t =>
      rw [ha, hb] at h
      obtain rfl : _ = t := h
      exact absurd (by simp) (head_spellings _ (mem_spellings hb))
    | none =>
      rw [ha, hb] at h
      exact Text.hexPadded_injective (String.append_right_inj _ |>.mp h)

end RiscV.Csr
