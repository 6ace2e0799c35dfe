import Propositional.Formula.Parse
import Propositional.Table

/-!
# From text to table
-/

namespace Propositional

/-- Why a text has no table: it is no formula, or its formula has no table. -/
inductive Failure where
  | parse (error : ParseError)
  | build (error : BuildError)
deriving DecidableEq, Repr

def Failure.message : Failure → String
  | .parse error => error.message
  | .build error => error.message

/-- The table of the formula that the text is. -/
def Table.ofText (limits : Limits) (text : String) : Except Failure Table :=
  match Formula.parse text with
  | .error error => .error (.parse error)
  | .ok formula =>
    match Table.build limits formula with
    | .error error => .error (.build error)
    | .ok table => .ok table

end Propositional
