import Propositional.Text.Blank
import Propositional.Text.Word

/-!
# The classes of characters are apart

Letters are no blanks and no digits `0` to `9`, and numbers are no blanks. The classes are lists
of runs of code points, so it is enough to compare the ends of the runs.

Results:
1. `isBlank_of_isWordStart`, `isDigit_of_isWordStart`: what may start a word is neither.
2. `isWordChar_of_isBlank`: no blank may continue a word.
3. `isWordChar_of_isWord`: the characters of a word.
-/

namespace Propositional.Text

/-- A code point that is found lies in one of the runs. -/
theorem mem_of_inRanges {ranges : List (Nat × Nat)} {n : Nat} (h : inRanges ranges n = true) :
    ∃ run ∈ ranges, run.1 ≤ n ∧ n ≤ run.2 := by
  induction ranges with
  | nil => cases h
  | cons run rest ih =>
    simp only [inRanges, Bool.and_eq_true, Bool.or_eq_true, decide_eq_true_eq] at h
    rcases h with ⟨first, last | later⟩
    · exact ⟨run, List.mem_cons_self, first, last⟩
    · obtain ⟨other, mem, bounds⟩ := ih later
      exact ⟨other, List.mem_cons_of_mem _ mem, bounds⟩

/-- Each run of one list ends before or starts after each run of the other. -/
def Apart (ranges others : List (Nat × Nat)) : Prop :=
  ∀ run ∈ ranges, ∀ other ∈ others, run.2 < other.1 ∨ other.2 < run.1

instance (ranges others : List (Nat × Nat)) : Decidable (Apart ranges others) :=
  inferInstanceAs (Decidable (∀ run ∈ ranges, ∀ other ∈ others, _))

theorem Apart.not_inRanges {ranges others : List (Nat × Nat)} (h : Apart ranges others) {n : Nat}
    (mem : inRanges ranges n = true) : inRanges others n = false := by
  rw [Bool.eq_false_iff]
  intro both
  obtain ⟨run, here, low, high⟩ := mem_of_inRanges mem
  obtain ⟨other, there, low', high'⟩ := mem_of_inRanges both
  have := h run here other there
  omega

theorem alphabetic_apart_blank : Apart alphabeticRanges blankRanges := by decide +kernel

theorem alphabetic_apart_digits : Apart alphabeticRanges [(0x30, 0x39)] := by decide +kernel

theorem numeric_apart_blank : Apart numericRanges blankRanges := by decide +kernel

theorem isBlank_of_isWordStart {c : Char} (h : isWordStart c = true) : isBlank c = false := by
  simp only [isWordStart, Bool.or_eq_true, beq_iff_eq] at h
  rcases h with letter | rfl
  · exact alphabetic_apart_blank.not_inRanges letter
  · decide

theorem isDigit_of_isWordStart {c : Char} (h : isWordStart c = true) : c.isDigit = false := by
  simp only [isWordStart, Bool.or_eq_true, beq_iff_eq] at h
  rcases h with letter | rfl
  · have apart := alphabetic_apart_digits.not_inRanges letter
    rw [Bool.eq_false_iff]
    intro digit
    simp [Char.isDigit, inRanges, ← Char.toNat_val, UInt32.le_iff_toNat_le] at digit apart
    omega
  · decide

theorem isWordChar_of_isBlank {c : Char} (h : isBlank c = true) : isWordChar c = false := by
  rw [Bool.eq_false_iff]
  intro word
  simp only [isWordChar, Bool.or_eq_true, beq_iff_eq] at word
  rcases word with (letter | number) | rfl
  · cases h.symm.trans (alphabetic_apart_blank.not_inRanges letter)
  · cases h.symm.trans (numeric_apart_blank.not_inRanges number)
  · exact absurd h (by decide)

/-- The characters of a word are those that may continue one. -/
theorem isWordChar_of_isWord {word : List Char} (h : isWord word = true) :
    ∀ c ∈ word, isWordChar c = true := by
  cases word with
  | nil => cases h
  | cons first rest =>
    simp only [isWord, Bool.and_eq_true, List.all_eq_true] at h
    obtain ⟨start, others⟩ := h
    refine List.forall_mem_cons.2 ⟨?_, others⟩
    simp only [isWordStart, Bool.or_eq_true] at start
    simp only [isWordChar, Bool.or_eq_true]
    exact start.imp_left .inl

end Propositional.Text
