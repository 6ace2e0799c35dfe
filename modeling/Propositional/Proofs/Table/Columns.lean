import Propositional.Pipeline
import Propositional.Proofs.Grammar.Operands
import Propositional.Proofs.Infix.RoundTrip
import Propositional.Proofs.Table.Rows

/-!
# The columns of a text

The columns of the table of a text can be read off its tokens: they are the words without an
opening parenthesis after them. A text without such a word has no table, be it malformed, a
constant, or a formula of constants.

Results:
1. `Table.ofText_ok_iff`: the texts that have a table.
2. `Table.mem_names_ofText`: the columns of the table of a text.
3. `Table.ofText_columns`: these columns, and what becomes of a text that would have none.
-/

namespace Propositional

/-- The formula of a text has the operands of the text as its variables. -/
theorem Formula.operands_eq_of_parse {text : String} {f : Formula} (h : parse text = .ok f) :
    ∃ tokens, scan text = .ok tokens ∧ operands (Reading.kinds tokens) = f.occurrences := by
  obtain ⟨-, -, d, -, tokens, scanned, derives⟩ := parse_ok_iff.1 h
  exact ⟨tokens, scanned, derives.operands_eq⟩

namespace Table

theorem ofText_ok_iff {limits : Limits} {text : String} {t : Table} :
    ofText limits text = .ok t ↔ ∃ f, Formula.parse text = .ok f ∧ build limits f = .ok t := by
  unfold ofText
  cases Formula.parse text with
  | error error => simp
  | ok f => cases built : build limits f <;> simp [built]

theorem mem_names_ofText {limits : Limits} {text : String} {t : Table}
    (h : ofText limits text = .ok t) :
    ∃ tokens, scan text = .ok tokens ∧
      ∀ name, name ∈ t.names ↔ name ∈ operands (Reading.kinds tokens) := by
  obtain ⟨f, read, built⟩ := ofText_ok_iff.1 h
  obtain ⟨tokens, scanned, same⟩ := Formula.operands_eq_of_parse read
  obtain ⟨-, -, names, -⟩ := build_ok built
  exact ⟨tokens, scanned, fun name => by rw [names, same, Formula.mem_names]⟩

/-- A text without operands fails before the number of variables could be too large. -/
theorem ofText_error_of_operands {limits : Limits} {text : String}
    (none : ∀ tokens, scan text = .ok tokens → operands (Reading.kinds tokens) = []) :
    (∃ column cause, ofText limits text = .error (.parse (.malformed column cause))) ∨
      ofText limits text = .error (.parse .notSymbolic) ∨
      ofText limits text = .error (.build .noVariables) := by
  unfold ofText
  cases read : Formula.parse text with
  | error error =>
    cases error with
    | malformed column cause => exact .inl ⟨column, cause, rfl⟩
    | notSymbolic => exact .inr (.inl rfl)
  | ok f =>
    obtain ⟨tokens, scanned, same⟩ := Formula.operands_eq_of_parse read
    rw [none tokens scanned] at same
    have empty : f.names.length = 0 := by
      rw [Formula.names, ← same]
      rfl
    have refused : build limits f = .error .noVariables := by
      rw [build_eq, if_pos empty]
    exact .inr (.inr (by simp only [refused]))

/-- The columns of the table of a text are the words of the text without an opening parenthesis
after them, each once, in the order of their code points, and there is one at least. A text in
which every word has an opening parenthesis after it, or without any words, is malformed, a
constant, or without variables. -/
theorem ofText_columns (limits : Limits) (text : String) :
    (∀ t, ofText limits text = .ok t →
      (∃ tokens, scan text = .ok tokens ∧ ∀ name : Name, name ∈ t.names ↔
        ∃ i : Nat, (tokens.map Placed.token)[i]? = some (.word name) ∧
          (tokens.map Placed.token)[i + 1]? ≠ some .opening) ∧
      t.names.Pairwise (fun a b => a.codePoints < b.codePoints) ∧ t.names ≠ []) ∧
    ((∀ tokens, scan text = .ok tokens → ∀ (i : Nat) (name : Name),
        (tokens.map Placed.token)[i]? = some (.word name) →
          (tokens.map Placed.token)[i + 1]? = some .opening) →
      (∃ column cause, ofText limits text = .error (.parse (.malformed column cause))) ∨
        ofText limits text = .error (.parse .notSymbolic) ∨
        ofText limits text = .error (.build .noVariables)) := by
  constructor
  · intro t h
    obtain ⟨tokens, scanned, same⟩ := mem_names_ofText h
    obtain ⟨f, -, built⟩ := ofText_ok_iff.1 h
    obtain ⟨-, nonempty, names, -⟩ := build_ok built
    refine ⟨⟨tokens, scanned, fun name => (same name).trans mem_operands_iff⟩, ?_, ?_⟩
    · rw [names]
      exact f.ascending_names.imp Name.codePoints_lt
    · rw [names]
      exact nonempty
  · intro calls
    refine ofText_error_of_operands fun tokens scanned => ?_
    refine List.eq_nil_iff_forall_not_mem.2 fun name mem => ?_
    obtain ⟨i, here, next⟩ := mem_operands_iff.1 mem
    exact next (calls tokens scanned i name here)

/-- `Not(Implies(A,A))` has a table without columns for the functions, and `True | False` has
none. -/
theorem ofText_columns_calls :
    (∃ t, ofText .roomy "Not(Implies(A,A))" = .ok t ∧ t.names ≠ []) ∧
      ((∃ column cause, ofText .roomy "True | False" = .error (.parse (.malformed column cause))) ∨
        ofText .roomy "True | False" = .error (.parse .notSymbolic) ∨
        ofText .roomy "True | False" = .error (.build .noVariables)) := by
  constructor
  · obtain ⟨t, built⟩ : ∃ t, build .roomy (NestedCalls.formula 1) = .ok t := ⟨_, rfl⟩
    have made : ofText .roomy "Not(Implies(A,A))" = .ok t :=
      ofText_ok_iff.2 ⟨_, NestedCalls.parse_text_eq (show 1 ≤ 128 by decide), built⟩
    exact ⟨t, made, ((ofText_columns .roomy _).1 t made).2.2⟩
  · refine (ofText_columns .roomy _).2 fun tokens scanned i name here => ?_
    obtain ⟨placed, scanned', same⟩ :=
      Formula.scan_text (f := .binary .or (.const true) (.const false))
        (by simp [Formula.occurrences])
    cases scanned.symm.trans scanned'
    have literals : tokens.map Placed.token = [.literal true, .operator .or, .literal false] := same
    have mem := List.mem_of_getElem? here
    rw [literals] at mem
    simp at mem

end Table

end Propositional
