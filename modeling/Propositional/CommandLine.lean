import Propositional.CommandLine.Options
import Propositional.Formula.Latex
import Propositional.Formula.Parse
import Propositional.Table.Export

/-!
# The command line

A run prints the table of one formula as text, with a verdict, or as comma-separated
values, and its LaTeX form where asked. A run that fails prints nothing on its standard
output: the exit code is 2 for bad arguments, and 1 for a formula without a table. A request
for help prints the help text.

A run takes two things from elsewhere as parameters: the parser of its arguments, and the memory
of the machine, as the numbers of variables whose rows it has room for.
-/

namespace Propositional.CommandLine

/-- What a run leaves behind. -/
structure Outcome where
  exitCode : Nat
  output : String
  complaint : String
deriving DecidableEq, Repr

def Outcome.failure (exitCode : Nat) (complaint : String) : Outcome := ⟨exitCode, "", complaint⟩

/-- The output for a formula and its table. -/
def output (options : Options) (formula : Formula) (table : Table) :
    Except ExportError String := do
  let body ← match options.format with
    | .table => pure table.text
    | .csv => table.csv {}
  let latex := if options.latex then "\nLaTeX: " ++ formula.latex ++ "\n" else ""
  let verdict := match options.format with
    | .table =>
      s!"\nThis expression is a {table.verdict.name} ({table.verdict.description}).\n"
    | .csv => ""
  return body ++ latex ++ verdict

/-- The run with the given arguments. -/
def run (parser : List String → Request) (fits : Nat → Bool) (arguments : List String) : Outcome :=
  match parser arguments with
  | .refused complaint => .failure 2 complaint
  | .help text => ⟨0, text, ""⟩
  | .options options =>
    match Formula.parse options.expression with
    | .error error => .failure 1 error.message
    | .ok formula =>
      match Table.build { maxVariables := some options.maxVariables, fits } formula with
      | .error error => .failure 1 error.message
      | .ok table =>
        match output options formula table with
        | .error error => .failure 1 error.message
        | .ok text => ⟨0, text, ""⟩

end Propositional.CommandLine
