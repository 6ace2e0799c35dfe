/-!
# Verdicts

What the results of all rows say about a formula.
-/

namespace Propositional

inductive Verdict where
  | tautology | contradiction | contingency
deriving DecidableEq, Repr

namespace Verdict

/-- The verdict on some results. Without any result nothing is false. -/
def ofResults (results : List Bool) : Verdict :=
  let (anyTrue, anyFalse) := results.foldl
    (fun (anyTrue, anyFalse) result => (anyTrue || result, anyFalse || !result)) (false, false)
  match anyTrue, anyFalse with
  | _, false => .tautology
  | false, true => .contradiction
  | true, true => .contingency

def name : Verdict → String
  | .tautology => "Tautology"
  | .contradiction => "Contradiction"
  | .contingency => "Contingency"

def description : Verdict → String
  | .tautology => "Always True"
  | .contradiction => "Always False"
  | .contingency => "Not always True or False"

end Verdict

end Propositional
