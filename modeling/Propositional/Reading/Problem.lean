import Propositional.Operation
import Propositional.Token.Scan

/-!
# Why a text is no formula

A problem has a cause and a place: the column of a token, or the end of the text.
-/

namespace Propositional

/-- Why a text, or its tokens, is no formula. -/
inductive Cause where
  | scan (cause : ScanCause)
  | empty
  /-- A complete formula is followed by one more token. -/
  | afterFormula (found : Token)
  | endOfText
  | notAnOperand (found : Token)
  /-- Another token than the one that has to follow, or the end of the text. -/
  | expected (wanted : Token) (found : Option Token)
  /-- The name of a function without its arguments. -/
  | bareFunction (name : Name)
  | unknownFunction (name : Name)
  | wrongArity (operation : Operation) (found : Nat)
  | tooDeep
deriving DecidableEq, Repr

namespace Cause

def message : Cause → String
  | .scan cause => cause.message
  | .empty => "empty expression"
  | .afterFormula found => s!"unexpected {found.quoted} after expression"
  | .endOfText => "unexpected end of input"
  | .notAnOperand found => s!"expected an operand, found {found.quoted}"
  | .expected wanted (some found) => s!"expected {wanted.quoted}, found {found.quoted}"
  | .expected wanted none => s!"expected {wanted.quoted}, found end of input"
  | .bareFunction name => s!"function `{name.text}` requires arguments"
  | .unknownFunction name => s!"unknown function `{name.text}`"
  | .wrongArity operation found =>
    s!"`{operation.name}` takes {operation.arity.text} arguments, got {found}"
  | .tooDeep => "expression is nested too deeply"

end Cause

/-- A cause and the column of the token it belongs to; no column is the end of the text. -/
structure Problem where
  cause : Cause
  column : Option Nat
deriving DecidableEq, Repr

namespace Problem

/-- A problem with the token at `column`. -/
def atToken (column : Nat) (cause : Cause) : Problem := ⟨cause, some column⟩

/-- A problem with the end of the text. -/
def atEnd (cause : Cause) : Problem := ⟨cause, none⟩

end Problem

end Propositional
