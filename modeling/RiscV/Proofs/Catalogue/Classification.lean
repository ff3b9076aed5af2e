import Mathlib.Data.List.Nodup
import RiscV.Proofs.Catalogue.Acceptance
import RiscV.Proofs.InstructionSet.Provenance
import RiscV.Proofs.Pattern.Words

/-!
# What becomes of a new definition

Adding a definition compares masks and values with those of the earlier definitions,
from the front, and stops at the first that decides.  What comes of it can be told
from the sets of words alone, and from all earlier definitions of the width at once:
whether one has the same words, and else whether one has some of the words and others
as well.

## Main definitions

* `Definition.Obstructs` — an earlier definition stands in the way of a later one.
* `Catalogue.outcome` — what adding a definition returns.
* `Catalogue.FirstObstacle` — the first definition that stands in the way.
* `Catalogue.Classified` — what becomes of a definition is told by sets of words.

## Main results

* `Definition.mayPrecede_iff` — the order of a catalogue in terms of words.
* `Catalogue.outcome_eq_duplicate_iff`, `Catalogue.outcome_eq_added_iff`,
  `Catalogue.exists_outcome_eq_error_iff` — the three outcomes.
* `Catalogue.outcome_eq_error` — an error names the first definition in the way.
* `Catalogue.classified_ofAttempts` — **what becomes of a definition is told by sets
  of words**, after any run of attempts.
-/

namespace RiscV

/-- `old` stands in the way of `new`: it has some of the words of `new`, and not as a
special case, since it has others as well. -/
def Definition.Obstructs (old new : Definition) : Prop :=
  (old.pattern.words ∩ new.pattern.words).Nonempty ∧ ¬old.pattern.words ⊆ new.pattern.words

namespace Definition

variable {old new : Definition}

theorem obstructs_iff (hold : old.pattern.WellFormed) (hnew : new.pattern.WellFormed) :
    old.Obstructs new ↔
      old.pattern.meets new.pattern = true ∧ old.pattern.refines new.pattern = false := by
  rw [Obstructs, ← Pattern.meets_iff_nonempty hold hnew, Pattern.words_subset_iff hold hnew]
  constructor
  · rintro ⟨hmeets, hsubset⟩
    refine ⟨hmeets, Bool.eq_false_iff.mpr ?_⟩
    intro hrefines
    exact hsubset ⟨hmeets, hrefines⟩
  · rintro ⟨hmeets, hrefines⟩
    refine ⟨hmeets, ?_⟩
    rintro ⟨-, hrefines'⟩
    rw [hrefines] at hrefines'
    contradiction

/-- A definition may precede another exactly if the two have different patterns and
the first does not stand in the way. -/
theorem mayPrecede_iff (hold : old.pattern.WellFormed) (hnew : new.pattern.WellFormed) :
    old.pattern.MayPrecede new.pattern ↔
      old.pattern ≠ new.pattern ∧ ¬old.Obstructs new := by
  rw [obstructs_iff hold hnew]
  constructor
  · intro hprecede
    refine ⟨hprecede.ne, ?_⟩
    rintro ⟨hmeets, hrefines⟩
    rw [(hprecede hmeets).2] at hrefines
    contradiction
  · rintro ⟨hne, hfree⟩ hmeets
    refine ⟨hne, ?_⟩
    by_contra hrefines
    exact hfree ⟨hmeets, Bool.eq_false_iff.mpr hrefines⟩

end Definition

namespace Catalogue

/-- What adding a definition returns. -/
def outcome (c : Catalogue) (d : Definition) : Except DefinitionError Insertion :=
  (c.push d).map Prod.snd

/-- `old` is the first of a list that stands in the way of `new`. -/
def FirstObstacle (l : List Definition) (new old : Definition) : Prop :=
  ∃ before after, l = before ++ old :: after ∧ old.Obstructs new ∧
    ∀ e ∈ before, ¬e.Obstructs new

theorem FirstObstacle.mem {l : List Definition} {new old : Definition}
    (h : FirstObstacle l new old) : old ∈ l := by
  obtain ⟨before, after, rfl, -⟩ := h
  exact List.mem_append_right _ List.mem_cons_self

theorem FirstObstacle.obstructs {l : List Definition} {new old : Definition}
    (h : FirstObstacle l new old) : old.Obstructs new := by
  obtain ⟨-, -, -, hobstructs, -⟩ := h
  exact hobstructs

/-! ### The three outcomes -/

/-- What is returned is told by the verdict. -/
theorem outcome_eq (c : Catalogue) (d : Definition) :
    c.outcome d = match verdict d (c.list d.pattern.width) with
      | .fits => .ok .added
      | .duplicate kept => .ok (.duplicate kept.mnemonic)
      | .clash old => .error ⟨d.mnemonic, .overlap old.mnemonic old.pattern d.pattern⟩ := by
  unfold outcome push
  cases verdict d (c.list d.pattern.width) <;> rfl

theorem outcome_eq_added_iff_fits (c : Catalogue) (d : Definition) :
    c.outcome d = .ok .added ↔ verdict d (c.list d.pattern.width) = .fits := by
  rw [outcome_eq]
  cases verdict d (c.list d.pattern.width) <;> simp

/-- The definitions before the one that a verdict blames can all be passed over. -/
theorem verdict_before_clash {new old : Definition} {l : List Definition}
    (h : verdict new l = .clash old) :
    ∃ before after, l = before ++ old :: after ∧ verdict new before = .fits := by
  induction l with
  | nil => contradiction
  | cons a l ih =>
    -- an `a` that is passed over goes in front of those behind it
    have hpassed : verdict new l = .clash old →
        (∀ before, verdict new before = .fits → verdict new (a :: before) = .fits) →
        ∃ before after, a :: l = before ++ old :: after ∧ verdict new before = .fits := by
      intro hrest hcons
      obtain ⟨before, after, heq, hfits⟩ := ih hrest
      exact ⟨a :: before, after, by rw [heq, List.cons_append], hcons before hfits⟩
    rw [verdict] at h
    split at h
    · next hmeets =>
      split at h
      · contradiction
      · next hne =>
        split at h
        · next hrefines =>
          refine hpassed h ?_
          intro before hfits
          rw [verdict, if_pos hmeets, if_neg hne, if_pos hrefines, hfits]
        · obtain rfl := Verdict.clash.inj h
          exact ⟨[], l, rfl, rfl⟩
    · next hmeets =>
      refine hpassed h ?_
      intro before hfits
      rw [verdict, if_neg hmeets, hfits]

/-- In order, no two definitions of one list have the same pattern. -/
theorem Ordered.eq_of_pattern_eq {c : Catalogue} (h : c.Ordered) {width : Width}
    {a b : Definition} (ha : a ∈ c.list width) (hb : b ∈ c.list width)
    (heq : a.pattern = b.pattern) : a = b := by
  have hnodup : ((c.list width).map Definition.pattern).Nodup := by
    rw [List.Nodup, List.pairwise_map]
    refine (h.mayPrecede width).imp ?_
    intro a b hprecede
    exact hprecede.ne
  exact List.inj_on_of_nodup_map hnodup ha hb heq

section Outcomes

variable {c : Catalogue} {d : Definition}

/-- In order, a definition is dropped exactly if its pattern is there. -/
theorem outcome_eq_duplicate_iff (h : c.Ordered) (kept : String) :
    c.outcome d = .ok (.duplicate kept) ↔
      ∃ e ∈ c.list d.pattern.width, e.pattern = d.pattern ∧ e.mnemonic = kept := by
  rw [outcome_eq]
  constructor
  · intro hout
    cases hv : verdict d (c.list d.pattern.width) with
    | fits => simp [hv] at hout
    | clash old => simp [hv] at hout
    | duplicate e =>
      obtain ⟨he, hpattern⟩ := verdict_eq_duplicate hv
      have hkept : e.mnemonic = kept := by simpa [hv] using hout
      exact ⟨e, he, hpattern, hkept⟩
  · rintro ⟨e, he, hpattern, rfl⟩
    obtain ⟨e', hv⟩ := verdict_of_mem (h.mayPrecede _)
      (List.mem_map.mpr ⟨e, he, hpattern⟩)
    obtain ⟨he', hpattern'⟩ := verdict_eq_duplicate hv
    rw [hv, h.eq_of_pattern_eq he' he (hpattern'.trans hpattern.symm)]

variable (hc : ∀ e ∈ c.list d.pattern.width, e.pattern.WellFormed) (hd : d.pattern.WellFormed)

include hc hd

/-- A definition is appended exactly if its pattern is new and nothing stands in its
way. -/
theorem outcome_eq_added_iff :
    c.outcome d = .ok .added ↔
      (∀ e ∈ c.list d.pattern.width, e.pattern ≠ d.pattern) ∧
        ∀ e ∈ c.list d.pattern.width, ¬e.Obstructs d := by
  rw [outcome_eq_added_iff_fits, verdict_eq_fits_iff, ← forall₂_and]
  refine forall₂_congr ?_
  intro e he
  exact Definition.mayPrecede_iff (hc e he) hd

/-- An error names the first definition that stands in the way. -/
theorem outcome_eq_error {error : DefinitionError} (h : c.outcome d = .error error) :
    ∃ e, FirstObstacle (c.list d.pattern.width) d e ∧
      error = ⟨d.mnemonic, .overlap e.mnemonic e.pattern d.pattern⟩ := by
  rw [outcome_eq] at h
  cases hv : verdict d (c.list d.pattern.width) with
  | fits => simp [hv] at h
  | duplicate kept => simp [hv] at h
  | clash old =>
    have herror : error = ⟨d.mnemonic, .overlap old.mnemonic old.pattern d.pattern⟩ := by
      simpa [hv] using h.symm
    obtain ⟨hold, hmeets, hrefines⟩ := verdict_eq_clash hv
    obtain ⟨before, after, heq, hfits⟩ := verdict_before_clash hv
    have hobstructs : old.Obstructs d :=
      (Definition.obstructs_iff (hc old hold) hd).mpr ⟨hmeets, hrefines⟩
    refine ⟨old, ⟨before, after, heq, hobstructs, ?_⟩, herror⟩
    intro e he
    have hmem : e ∈ c.list d.pattern.width := by
      rw [heq]
      exact List.mem_append_left _ he
    have hprecede := (verdict_eq_fits_iff d before).mp hfits e he
    exact ((Definition.mayPrecede_iff (hc e hmem) hd).mp hprecede).2

/-- In order, a definition is refused exactly if its pattern is new and something
stands in its way: neither of the other two outcomes is possible then. -/
theorem exists_outcome_eq_error_iff (h : c.Ordered) :
    (∃ error, c.outcome d = .error error) ↔
      (∀ e ∈ c.list d.pattern.width, e.pattern ≠ d.pattern) ∧
        ∃ e ∈ c.list d.pattern.width, e.Obstructs d := by
  constructor
  · rintro ⟨error, herror⟩
    obtain ⟨e, hfirst, -⟩ := outcome_eq_error hc hd herror
    refine ⟨?_, e, hfirst.mem, hfirst.obstructs⟩
    intro e' he' hpattern
    have hdropped := (outcome_eq_duplicate_iff h e'.mnemonic).mpr ⟨e', he', hpattern, rfl⟩
    rw [hdropped] at herror
    contradiction
  · rintro ⟨hnew, e, he, hobstructs⟩
    cases hout : c.outcome d with
    | error error => exact ⟨error, rfl⟩
    | ok insertion =>
      cases insertion with
      | added => exact absurd hobstructs (((outcome_eq_added_iff hc hd).mp hout).2 e he)
      | duplicate kept =>
        obtain ⟨e', he', hpattern, -⟩ := (outcome_eq_duplicate_iff h kept).mp hout
        exact absurd hpattern (hnew e' he')

end Outcomes

/-! ### Classification -/

/-- What becomes of a definition is told by the words of the definitions of its
width. -/
structure Classified (c : Catalogue) (d : Definition) : Prop where
  /-- It is dropped exactly if a definition has the same words; that one is kept. -/
  duplicate_iff : ∀ kept, c.outcome d = .ok (.duplicate kept) ↔
    ∃ e ∈ c.list d.pattern.width, e.pattern.words = d.pattern.words ∧ e.mnemonic = kept
  /-- Otherwise it is refused exactly if a definition stands in its way. -/
  error_iff : (∃ error, c.outcome d = .error error) ↔
    (∀ e ∈ c.list d.pattern.width, e.pattern.words ≠ d.pattern.words) ∧
      ∃ e ∈ c.list d.pattern.width, e.Obstructs d
  /-- The error names the first that does. -/
  error_eq : ∀ error, c.outcome d = .error error →
    ∃ e, FirstObstacle (c.list d.pattern.width) d e ∧
      error = ⟨d.mnemonic, .overlap e.mnemonic e.pattern d.pattern⟩
  /-- Otherwise it is added. -/
  added_iff : c.outcome d = .ok .added ↔
    (∀ e ∈ c.list d.pattern.width, e.pattern.words ≠ d.pattern.words) ∧
      ∀ e ∈ c.list d.pattern.width, ¬e.Obstructs d
  /-- If it is not added, nothing changes. -/
  attempt_eq_self : c.outcome d ≠ .ok .added → c.attempt d = c
  /-- If it is added, it stands at the end of the list of its width, and nothing else
  changes. -/
  list_attempt : c.outcome d = .ok .added → ∀ width, (c.attempt d).list width
    = if d.pattern.width = width then c.list width ++ [d] else c.list width

/-- **What becomes of a definition is told by sets of words.**

Let a catalogue come of any run of attempts to add well-formed definitions, and let
one more be added.  Among the definitions of its width: it is dropped exactly if one
has the same words; otherwise it is refused exactly if one has some of its words and
others as well, and the error names the first such; otherwise it is added, at the end
of its list.  In the first two cases nothing changes. -/
theorem classified_ofAttempts {ds : List Definition} (hds : ∀ e ∈ ds, e.pattern.WellFormed)
    {d : Definition} (hd : d.pattern.WellFormed) : (ofAttempts ds).Classified d := by
  have hordered := ordered_ofAttempts ds
  have hc : ∀ e ∈ (ofAttempts ds).list d.pattern.width, e.pattern.WellFormed := by
    intro e he
    exact hds e (mem_of_mem_ofAttempts he)
  -- well-formed patterns of one width are told by their words
  have hsame : ∀ e ∈ (ofAttempts ds).list d.pattern.width,
      (e.pattern.words = d.pattern.words ↔ e.pattern = d.pattern) := by
    intro e he
    constructor
    · exact Pattern.eq_of_words_eq (hc e he) hd (hordered.width_eq _ e he)
    · intro heq
      rw [heq]
  have hnew : (∀ e ∈ (ofAttempts ds).list d.pattern.width, e.pattern ≠ d.pattern) ↔
      ∀ e ∈ (ofAttempts ds).list d.pattern.width, e.pattern.words ≠ d.pattern.words :=
    forall₂_congr fun e he => not_congr (hsame e he).symm
  refine
    { duplicate_iff := ?_
      error_iff := ?_
      error_eq := ?_
      added_iff := ?_
      attempt_eq_self := ?_
      list_attempt := ?_ }
  · intro kept
    rw [outcome_eq_duplicate_iff hordered kept]
    refine exists_congr fun e => and_congr_right fun he => ?_
    rw [hsame e he]
  · rw [exists_outcome_eq_error_iff hc hd hordered, hnew]
  · intro error herror
    exact outcome_eq_error hc hd herror
  · rw [outcome_eq_added_iff hc hd, hnew]
  · intro hout
    rw [Ne, outcome_eq_added_iff_fits] at hout
    rw [attempt_eq, if_neg hout]
  · intro hout width
    rw [outcome_eq_added_iff_fits] at hout
    rw [attempt_eq, if_pos hout, list_append]

/-- Adding one to a register, behind no operation and behind the addition of any
constant: both stand in its way, and the first is named.  What is wider than both can
still be added. -/
theorem classified_ofAttempts_increment :
    let nop : Definition := ⟨"c.nop", ⟨0xef83#32, 0x1#32, .compressed⟩, .cNop, .c⟩
    let addi : Definition := ⟨"c.addi", ⟨0xe003#32, 0x1#32, .compressed⟩, .cAddImm, .c⟩
    let inc : Definition := ⟨"c.inc", ⟨0xf07f#32, 0x5#32, .compressed⟩, .cAddImm, .c⟩
    let wide : Definition := ⟨"c.wide", ⟨0x3#32, 0x1#32, .compressed⟩, .cAddImm, .c⟩
    (∃ e, FirstObstacle [nop, addi] inc e ∧ e.mnemonic = "c.nop") ∧
    (∀ e ∈ [nop, addi], e.pattern.words ≠ inc.pattern.words) ∧
    (∀ e ∈ [nop, addi], ¬e.Obstructs wide) ∧
    ((ofAttempts [nop, addi]).attempt wide).list .compressed = [nop, addi, wide] := by
  intro nop addi inc wide
  have hds : ∀ e ∈ [nop, addi], e.pattern.WellFormed := by decide
  have hinc : inc.pattern.WellFormed := by decide
  have hwide : wide.pattern.WellFormed := by decide
  have hrefused : (ofAttempts [nop, addi]).outcome inc
      = .error ⟨"c.inc", .overlap "c.nop" nop.pattern inc.pattern⟩ := by decide
  have hadded : (ofAttempts [nop, addi]).outcome wide = .ok .added := by decide
  have hlist : (ofAttempts [nop, addi]).list .compressed = [nop, addi] := by decide
  have hnarrow := classified_ofAttempts hds hinc
  have hwider := classified_ofAttempts hds hwide
  obtain ⟨e, hfirst, heq⟩ := hnarrow.error_eq _ hrefused
  have hname : "c.nop" = e.mnemonic := by
    injection heq with _ hdefect
    injection hdefect
  have hnew := (hnarrow.error_iff.mp ⟨_, hrefused⟩).1
  have hfree := (hwider.added_iff.mp hadded).2
  have happended := hwider.list_attempt hadded .compressed
  rw [hlist] at happended
  change FirstObstacle ((ofAttempts [nop, addi]).list .compressed) inc e at hfirst
  change ∀ e ∈ (ofAttempts [nop, addi]).list .compressed, _ at hnew hfree
  rw [hlist] at hfirst hnew hfree
  exact ⟨⟨e, hfirst, hname.symm⟩, hnew, hfree, happended⟩

end Catalogue
end RiscV
