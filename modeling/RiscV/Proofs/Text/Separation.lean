import Mathlib.Data.List.Nodup

/-!
# Telling texts apart

Two texts that are put together from parts are equal only if their parts are,
provided that what separates the parts does not occur in them.  Tables of texts
are told apart by a number for each, since numbers are quickly compared.

## Main definitions

* `Text.key` — a number for a text.
* `Text.pairwise` — a test of every two members of a list.

## Main results

* `Text.append_cons_inj` — a text is split at its first separator in one way.
* `Text.intercalate_injective` — parts can be recovered from the joined text.
-/

namespace RiscV.Text

/-! ### Separators -/

/-- What stands before the first separator, and what stands behind it, are
determined by the text. -/
theorem append_cons_inj {sep : Char} {a b s t : List Char} (ha : sep ∉ a) (hb : sep ∉ b)
    (h : a ++ sep :: s = b ++ sep :: t) : a = b ∧ s = t := by
  induction a generalizing b with
  | nil =>
    cases b with
    | nil => exact ⟨rfl, (List.cons.inj h).2⟩
    | cons c b =>
      obtain ⟨rfl, -⟩ := List.cons.inj h
      exact absurd List.mem_cons_self hb
  | cons c a ih =>
    cases b with
    | nil =>
      obtain ⟨rfl, -⟩ := List.cons.inj h
      exact absurd List.mem_cons_self ha
    | cons c' b =>
      obtain ⟨rfl, htail⟩ := List.cons.inj h
      obtain ⟨rfl, hst⟩ := ih (List.not_mem_of_not_mem_cons ha)
        (List.not_mem_of_not_mem_cons hb) htail
      exact ⟨rfl, hst⟩

/-- What stands in a joined text is the separator or stands in a part. -/
theorem eq_or_mem_of_mem_intercalate {sep c : Char} {l : List (List Char)}
    (h : c ∈ [sep].intercalate l) : c = sep ∨ ∃ part ∈ l, c ∈ part := by
  induction l with
  | nil => simp at h
  | cons part l ih =>
    cases l with
    | nil => exact Or.inr ⟨part, List.mem_cons_self, by simpa using h⟩
    | cons part' l =>
      rw [List.intercalate_cons_cons] at h
      rcases List.mem_append.mp h with h | h
      · rcases List.mem_append.mp h with h | h
        · exact Or.inr ⟨part, List.mem_cons_self, h⟩
        · exact Or.inl (List.mem_singleton.mp h)
      · rcases ih h with h | ⟨other, hother, h⟩
        · exact Or.inl h
        · exact Or.inr ⟨other, List.mem_cons_of_mem part hother, h⟩

/-- Parts without the separator can be recovered from the joined text. -/
theorem intercalate_injective {sep : Char} {l l' : List String}
    (hl : ∀ s ∈ l, sep ∉ s.toList) (hl' : ∀ s ∈ l', sep ∉ s.toList) (hne : l ≠ [])
    (hne' : l' ≠ [])
    (h : [sep].intercalate (l.map String.toList) = [sep].intercalate (l'.map String.toList)) :
    l = l' := by
  have hsplit := congrArg (List.splitOn sep) h
  rw [List.splitOn_intercalate sep (by simpa using hl) (by simpa using hne),
    List.splitOn_intercalate sep (by simpa using hl') (by simpa using hne')] at hsplit
  exact List.map_injective_iff.mpr (fun _ _ => String.toList_inj.mp) hsplit

/-! ### Tables of texts -/

/-- A number for a text: its characters as the digits of base 256. -/
def key (cs : List Char) : Nat := cs.foldl (fun n c => n * 256 + c.toNat) 0

/-- A test of every two members of a list, the earlier one first. -/
def pairwise {α : Type} (test : α → α → Bool) : List α → Bool
  | [] => true
  | a :: l => l.all (test a) && pairwise test l

theorem pairwise_iff {α : Type} {test : α → α → Bool} {l : List α} :
    pairwise test l = true ↔ l.Pairwise fun a b => test a b = true := by
  induction l with
  | nil => simp [pairwise]
  | cons a l ih => rw [pairwise, Bool.and_eq_true, List.all_eq_true, ih, List.pairwise_cons]

/-- Texts with different numbers are different. -/
theorem nodup_of_key {l : List (List Char)}
    (h : pairwise (fun a b => !Nat.beq a b) (l.map key) = true) : l.Nodup := by
  refine List.Nodup.of_map key ?_
  refine (pairwise_iff.mp h).imp fun {a b} hab heq => ?_
  rw [heq, Nat.beq_refl] at hab
  contradiction

end RiscV.Text
