import Mathlib.Data.List.TakeDrop
import RiscV.Text.Blank

/-!
# The words of a text

Splitting a text at blanks gives its words.  Here that is said without splitting: words
are the words of a text when the text consists of them, in this order, with blanks
between them and possibly around them.

## Main definitions

* `Text.Spaced` — a text consists of words and the blanks around them.

## Main results

* `Text.splitAt_eq_splitOnP` — the pieces between separators are those of the library.
* `Text.span_cases` — a text up to its first separator.
* `Text.spaced_iff` — **the words of a text are those it consists of.**
-/

namespace RiscV.Text

/-! ### Separators -/

theorem splitAt_eq_splitOnP (p : Char → Bool) (cs : List Char) :
    splitAt p cs = cs.splitOnP p := by
  induction cs with
  | nil => rfl
  | cons c cs ih =>
    rw [splitAt, ih, List.splitOnP_cons_eq_if_modifyHead]
    split
    · rfl
    · cases hpieces : cs.splitOnP p with
      | nil => exact absurd (ih.trans hpieces) (splitAt_ne_nil p cs)
      | cons piece pieces => rfl

/-- What stands in front of the first separator is cut off. -/
theorem span_append {sep : Char} {before behind : List Char} (h : sep ∉ before)
    (hend : ∀ c, behind.head? = some c → c = sep) :
    (before ++ behind).span (· != sep) = (before, behind) := by
  have hkept : ∀ c ∈ before, (c != sep) = true := by
    intro c hc
    rw [bne_iff_ne]
    rintro rfl
    exact h hc
  rw [List.span_eq_takeWhile_dropWhile, List.takeWhile_append_of_pos hkept,
    List.dropWhile_append_of_pos hkept]
  cases behind with
  | nil => rw [List.takeWhile_nil, List.dropWhile_nil, List.append_nil]
  | cons c behind =>
    rw [hend c rfl, List.takeWhile_cons_of_neg (by simp), List.dropWhile_cons_of_neg (by simp),
      List.append_nil]

/-- Cutting at a separator that occurs. -/
theorem span_append_cons {sep : Char} {before : List Char} (h : sep ∉ before)
    (behind : List Char) :
    (before ++ sep :: behind).span (· != sep) = (before, sep :: behind) :=
  span_append h fun _ hc => (Option.some.inj hc).symm

/-- Cutting at a separator that does not occur. -/
theorem span_of_notMem {sep : Char} {text : List Char} (h : sep ∉ text) :
    text.span (· != sep) = (text, []) := by
  conv_lhs => rw [← List.append_nil text]
  exact span_append h (by simp)

/-- A text is cut at its first separator, if there is one. -/
theorem span_cases (sep : Char) (text : List Char) :
    (∃ before behind, sep ∉ before ∧ text = before ++ sep :: behind ∧
        text.span (· != sep) = (before, sep :: behind)) ∨
      sep ∉ text ∧ text.span (· != sep) = (text, []) := by
  by_cases h : sep ∈ text
  · obtain ⟨before, behind, rfl, hbefore⟩ := List.eq_append_cons_of_mem h
    exact .inl ⟨before, behind, hbefore, rfl, span_append_cons hbefore behind⟩
  · exact .inr ⟨h, span_of_notMem h⟩

/-! ### Words -/

/-- The text consists of the words, in this order, with blanks between them and possibly
in front of the first and behind the last. -/
inductive Spaced : List Char → List (List Char) → Prop
  /-- Blanks alone. -/
  | blank {gap : List Char} (hgap : ∀ c ∈ gap, isBlank c = true) : Spaced gap []
  /-- A word, which ends where a blank follows or the text ends. -/
  | word {gap w rest : List Char} {ws : List (List Char)} (hgap : ∀ c ∈ gap, isBlank c = true)
      (hne : w ≠ []) (hw : ∀ c ∈ w, isBlank c = false)
      (hend : ∀ c, rest.head? = some c → isBlank c = true) (hrest : Spaced rest ws) :
      Spaced (gap ++ (w ++ rest)) (w :: ws)

theorem words_cons_of_blank {c : Char} (hc : isBlank c = true) (cs : List Char) :
    words (c :: cs) = words cs := by
  rw [words, splitAt, if_pos hc, List.filter_cons_of_neg (by simp), words]

theorem words_append_of_blank {gap : List Char} (h : ∀ c ∈ gap, isBlank c = true)
    (cs : List Char) : words (gap ++ cs) = words cs := by
  induction gap with
  | nil => rfl
  | cons c gap ih =>
    rw [List.cons_append, words_cons_of_blank (h c List.mem_cons_self)]
    exact ih fun d hd => h d (List.mem_cons_of_mem c hd)

/-- A word is split off where a blank follows. -/
theorem words_append_of_end {w rest : List Char} (hne : w ≠ [])
    (hw : ∀ c ∈ w, isBlank c = false) (hend : ∀ c, rest.head? = some c → isBlank c = true) :
    words (w ++ rest) = w :: words rest := by
  have hkept : (!w.isEmpty) = true := by simpa using hne
  cases rest with
  | nil =>
    rw [List.append_nil, words, splitAt_eq_splitOnP, List.splitOnP_eq_singleton hw,
      List.filter_cons, if_pos hkept]
    rfl
  | cons c rest =>
    have hc : isBlank c = true := hend c rfl
    rw [words_cons_of_blank hc, words, splitAt_eq_splitOnP,
      List.splitOnP_append_cons_of_forall_mem hw c hc, List.filter_cons, if_pos hkept, words,
      splitAt_eq_splitOnP]

theorem words_of_spaced {cs : List Char} {ws : List (List Char)} (h : Spaced cs ws) :
    words cs = ws := by
  induction h with
  | @blank gap hgap =>
    rw [← List.append_nil gap, words_append_of_blank hgap]
    rfl
  | word hgap hne hw hend _ ih =>
    rw [words_append_of_blank hgap, words_append_of_end hne hw hend, ih]

/-- Every text consists of some words. -/
theorem exists_spaced (cs : List Char) : ∃ ws, Spaced cs ws := by
  induction cs with
  | nil => exact ⟨[], .blank (by simp)⟩
  | cons c cs ih =>
    obtain ⟨ws, hws⟩ := ih
    by_cases hc : isBlank c = true
    · -- one more blank in front
      cases hws with
      | blank hgap => exact ⟨[], .blank (List.forall_mem_cons.mpr ⟨hc, hgap⟩)⟩
      | @word gap w rest ws hgap hne hw hend hrest =>
        exact ⟨w :: ws, @Spaced.word (c :: gap) w rest ws (List.forall_mem_cons.mpr ⟨hc, hgap⟩)
          hne hw hend hrest⟩
    · have hword : ∀ w : List Char, (∀ d ∈ w, isBlank d = false) →
          ∀ d ∈ c :: w, isBlank d = false := by
        intro w hw
        exact List.forall_mem_cons.mpr ⟨by simpa using hc, hw⟩
      by_cases hend : ∀ d, cs.head? = some d → isBlank d = true
      · -- a word of one character
        exact ⟨[c] :: ws, @Spaced.word [] [c] cs ws (by simp) (by simp) (hword [] (by simp)) hend
          hws⟩
      · -- one more character of the first word, which has no blanks in front
        cases hws with
        | blank hgap =>
          exact absurd (fun d hd => hgap d (List.mem_of_head? hd)) hend
        | @word gap w rest ws hgap hne hw hend' hrest =>
          cases gap with
          | nil =>
            exact ⟨(c :: w) :: ws, @Spaced.word [] (c :: w) rest ws (by simp) (by simp)
              (hword w hw) hend' hrest⟩
          | cons d gap =>
            refine absurd ?_ hend
            intro d' hd'
            rw [← Option.some.inj hd']
            exact hgap d List.mem_cons_self

/-- **The words of a text are those it consists of.** -/
theorem spaced_iff {cs : List Char} {ws : List (List Char)} : Spaced cs ws ↔ words cs = ws := by
  refine ⟨words_of_spaced, ?_⟩
  rintro rfl
  obtain ⟨ws, hws⟩ := exists_spaced cs
  rwa [words_of_spaced hws]

theorem ne_nil_of_mem_words {cs w : List Char} (h : w ∈ words cs) : w ≠ [] := by
  simpa using (List.mem_filter.mp h).2

end RiscV.Text
