import Propositional.Proofs.Infix.Injective
import Propositional.Proofs.Table.Columns
import Propositional.Proofs.Text.Lines

/-!
# The characters of the infix form

An infix form is made of words, signs and spaces. Whatever the names, as long as they are words,
it has no comma, no quotation mark and no line break, and it ends with a character that shows.

Results:
1. `Formula.isInfixChar_of_mem_text`: the characters of an infix form, by induction on the formula.
2. `Formula.endsVisibly_text`: its last character, by the same induction.
3. `Table.isInfixChar_of_mem_header`, `Table.endsVisibly_formula`: the titles of the table of a
   text.
-/

namespace Propositional

/-! ## Characters -/

/-- The characters of infix forms: those of words, and the signs with the spaces around them. -/
def Text.isInfixChar (c : Char) : Bool :=
  isWordChar c || [' ', '~', '&', '|', '^', '>', '=', '(', ')'].contains c

theorem Name.IsWord.isInfixChar {name : Name} (h : name.IsWord) :
    ∀ c ∈ name.text.toList, Text.isInfixChar c = true := by
  intro c mem
  rw [Text.isInfixChar, Text.isWordChar_of_isWord h.1 c mem, Bool.true_or]

namespace Formula

theorem isInfixChar_parenthesized {needed : Bool} {text : String}
    (h : ∀ c ∈ text.toList, Text.isInfixChar c = true) :
    ∀ c ∈ (parenthesized needed text).toList, Text.isInfixChar c = true := by
  cases needed with
  | false => exact h
  | true =>
    simp only [parenthesized, if_true, String.toList_append, List.forall_mem_append]
    exact ⟨⟨List.all_eq_true.1 (by decide), h⟩, List.all_eq_true.1 (by decide)⟩

theorem isInfixChar_of_mem_text {f : Formula} (words : ∀ name ∈ f.occurrences, name.IsWord) :
    ∀ c ∈ f.text.toList, Text.isInfixChar c = true := by
  induction f with
  | const value => cases value <;> exact List.all_eq_true.1 (by decide)
  | var name => exact (words name List.mem_cons_self).isInfixChar
  | not a ih =>
    rw [text, String.toList_append, List.forall_mem_append]
    exact ⟨List.all_eq_true.1 (by decide), isInfixChar_parenthesized (ih words)⟩
  | binary op a b iha ihb =>
    have left := iha fun name mem => words name (List.mem_append_left _ mem)
    have right := ihb fun name mem => words name (List.mem_append_right _ mem)
    rw [text, String.toList_append, String.toList_append, List.forall_mem_append,
      List.forall_mem_append]
    refine ⟨⟨isInfixChar_parenthesized left, ?_⟩, isInfixChar_parenthesized right⟩
    cases op <;> exact List.all_eq_true.1 (by decide)

/-! ## The last character -/

theorem endsVisibly_parenthesized {needed : Bool} {text : String}
    (h : Text.EndsVisibly text.toList) :
    Text.EndsVisibly (parenthesized needed text).toList := by
  cases needed with
  | false => exact h
  | true =>
    simp only [parenthesized, if_true, String.toList_append]
    exact (Text.endsVisibly_singleton (by decide)).append _

theorem endsVisibly_text {f : Formula} (words : ∀ name ∈ f.occurrences, name.IsWord) :
    Text.EndsVisibly f.text.toList := by
  induction f with
  | const value =>
    cases value with
    | false => exact ⟨['F', 'a', 'l', 's'], 'e', by decide, by decide⟩
    | true => exact ⟨['T', 'r', 'u'], 'e', by decide, by decide⟩
  | var name =>
    refine Text.endsVisibly_of_all (mt String.toList_eq_nil_iff.1 name.nonempty) fun c mem => ?_
    have word := Text.isWordChar_of_isWord (words name List.mem_cons_self).1 c mem
    rw [Bool.eq_false_iff]
    intro blank
    cases word.symm.trans (Text.isWordChar_of_isBlank blank)
  | not a ih =>
    rw [text, String.toList_append]
    exact (endsVisibly_parenthesized (ih words)).append _
  | binary op a b iha ihb =>
    have right := ihb fun name mem => words name (List.mem_append_right _ mem)
    rw [text, String.toList_append]
    exact (endsVisibly_parenthesized right).append _

end Formula

/-! ## Titles -/

namespace Table

variable {limits : Limits} {s : String} {t : Table}

/-- The titles of the table of a text are words and an infix form. -/
theorem isInfixChar_of_mem_header (h : ofText limits s = .ok t) :
    ∀ title ∈ t.header, ∀ c ∈ title.toList, Text.isInfixChar c = true := by
  obtain ⟨f, read, built⟩ := ofText_ok_iff.1 h
  have words := Formula.isWord_of_parse read
  obtain ⟨-, fits, rfl⟩ := build_eq_ok built
  refine List.forall_mem_append.2 ⟨List.forall_mem_map.2 fun name mem => ?_, ?_⟩
  · exact (words name (Formula.mem_names.1 mem)).isInfixChar
  · exact List.forall_mem_singleton.2 (Formula.isInfixChar_of_mem_text words)

theorem endsVisibly_formula (h : ofText limits s = .ok t) :
    Text.EndsVisibly t.formula.toList := by
  obtain ⟨f, read, built⟩ := ofText_ok_iff.1 h
  obtain ⟨-, fits, rfl⟩ := build_eq_ok built
  exact Formula.endsVisibly_text (Formula.isWord_of_parse read)

end Table

end Propositional
