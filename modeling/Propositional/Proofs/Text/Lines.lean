import Propositional.Text.Blank

/-!
# Joined parts and lines

Texts are put together from parts with a separator between them, and from lines with a line feed
after each. No part is lost in this, as long as no line has a line feed of its own.

Results:
1. `mem_intercalate`, `exists_intercalate_concat`: the characters of joined parts, and the last
   part.
2. `splitOn_lineFeed`: splitting at the line feeds gives the lines back.
3. `EndsVisibly.trimEnd_append`: what is cut off the end of a line.
-/

namespace Propositional.Text

/-! ## Parts -/

theorem intercalate_cons {α : Type} {separator first : List α} {rest : List (List α)}
    (more : rest ≠ []) :
    separator.intercalate (first :: rest) = first ++ (separator ++ separator.intercalate rest) := by
  obtain ⟨second, others, rfl⟩ := List.exists_cons_of_ne_nil more
  rw [List.intercalate_cons_cons, List.append_assoc]

theorem mem_intercalate {α : Type} {separator : List α} {parts : List (List α)} {x : α}
    (mem : x ∈ separator.intercalate parts) : x ∈ separator ∨ ∃ part ∈ parts, x ∈ part := by
  induction parts with
  | nil => cases mem
  | cons part parts ih =>
    by_cases alone : parts = []
    · rw [alone, List.intercalate_singleton] at mem
      exact .inr ⟨part, List.mem_cons_self, mem⟩
    · rw [intercalate_cons alone, List.mem_append, List.mem_append] at mem
      rcases mem with here | between | later
      · exact .inr ⟨part, List.mem_cons_self, here⟩
      · exact .inl between
      · exact (ih later).imp_right fun ⟨other, there, inside⟩ =>
          ⟨other, List.mem_cons_of_mem _ there, inside⟩

/-- What stands before the last part does not depend on it. -/
theorem exists_intercalate_concat {α : Type} (separator : List α) (parts : List (List α)) :
    ∃ before, ∀ last, separator.intercalate (parts ++ [last]) = before ++ last := by
  induction parts with
  | nil => exact ⟨[], fun last => List.intercalate_singleton⟩
  | cons part parts ih =>
    obtain ⟨before, same⟩ := ih
    refine ⟨part ++ (separator ++ before), fun last => ?_⟩
    rw [List.cons_append, intercalate_cons (by simp), same]
    simp only [List.append_assoc]

/-! ## Lines -/

/-- Lines with a line feed after each are lines with line feeds between them, and an empty last
one. -/
theorem flatMap_lineFeed (lines : List (List Char)) :
    lines.flatMap (· ++ ['\n']) = ['\n'].intercalate (lines ++ [[]]) := by
  induction lines with
  | nil => rfl
  | cons line lines ih =>
    rw [List.flatMap_cons, ih, List.cons_append, intercalate_cons (by simp), List.append_assoc]

theorem splitOn_lineFeed {lines : List (List Char)} (unbroken : ∀ line ∈ lines, '\n' ∉ line) :
    (lines.flatMap (· ++ ['\n'])).splitOn '\n' = lines ++ [[]] := by
  rw [flatMap_lineFeed, List.splitOn_intercalate]
  · exact List.forall_mem_append.2 ⟨unbroken, by simp⟩
  · simp

/-! ## The last character -/

/-- The line ends with a character that is no blank. -/
def EndsVisibly (line : List Char) : Prop :=
  ∃ before last, line = before ++ [last] ∧ isBlank last = false

theorem EndsVisibly.append {line : List Char} (h : EndsVisibly line) (before : List Char) :
    EndsVisibly (before ++ line) := by
  obtain ⟨start, last, rfl, visible⟩ := h
  exact ⟨before ++ start, last, (List.append_assoc ..).symm, visible⟩

theorem endsVisibly_singleton {c : Char} (visible : isBlank c = false) : EndsVisibly [c] :=
  ⟨[], c, rfl, visible⟩

/-- What has no blanks ends visibly, if it is anything at all. -/
theorem endsVisibly_of_all {line : List Char} (nonempty : line ≠ [])
    (visible : ∀ c ∈ line, isBlank c = false) : EndsVisibly line :=
  ⟨_, _, (List.dropLast_concat_getLast nonempty).symm, visible _ (List.getLast_mem nonempty)⟩

/-- Only the blanks after the last character that shows are cut off. -/
theorem EndsVisibly.trimEnd_append {line : List Char} (h : EndsVisibly line) {blanks : List Char}
    (blank : ∀ c ∈ blanks, isBlank c = true) : trimEnd (line ++ blanks) = line := by
  obtain ⟨before, last, rfl, visible⟩ := h
  rw [trimEnd, List.reverse_append, List.dropWhile_append_of_pos (by simpa using blank)]
  simp [visible]

theorem EndsVisibly.trimEnd_eq {line : List Char} (h : EndsVisibly line) : trimEnd line = line := by
  have cut := h.trimEnd_append (List.forall_mem_nil _)
  rwa [List.append_nil] at cut

end Propositional.Text
