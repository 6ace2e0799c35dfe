import Propositional.Proofs.Infix.Tokens

/-!
# Renaming variables

Replacing the names of a formula changes nothing of its shape: the same operands stand in
parentheses, and the same tokens stand between the names.

Results, by induction on the formula:
1. `Formula.occurrences_rename`, `Formula.tokens_rename`: the names and the tokens after the
   replacement.
2. `Formula.rename_injective`: no two formulas become one, if no two names do.
-/

namespace Propositional

/-- The token with another name, if it is a word. -/
def Token.rename (r : Name → Name) : Token → Token
  | .word name => .word (r name)
  | token => token

namespace Formula

/-- The formula with the name `r name` for every `name`. -/
def rename (r : Name → Name) : Formula → Formula
  | .const value => .const value
  | .var name => .var (r name)
  | .not a => .not (a.rename r)
  | .binary op a b => .binary op (a.rename r) (b.rename r)

variable (r : Name → Name)

@[simp] theorem strength_rename (f : Formula) : (f.rename r).strength = f.strength := by
  cases f <;> rfl

@[simp] theorem bracketed_rename (op : Connective) (side : Side) (f : Formula) :
    bracketed op side (f.rename r) = bracketed op side f := by
  simp only [bracketed, strength_rename]

@[simp] theorem bracketedInNot_rename (f : Formula) :
    (f.rename r).bracketedInNot = f.bracketedInNot := by
  simp only [bracketedInNot, strength_rename]

theorem occurrences_rename (f : Formula) : (f.rename r).occurrences = f.occurrences.map r := by
  induction f with
  | const value => rfl
  | var name => rfl
  | not a ih => exact ih
  | binary op a b iha ihb => simp only [rename, occurrences, iha, ihb, List.map_append]

theorem map_rename_parenthesizedTokens (needed : Bool) (ts : List Token) :
    (parenthesizedTokens needed ts).map (Token.rename r) =
      parenthesizedTokens needed (ts.map (Token.rename r)) := by
  cases needed with
  | false => rfl
  | true => simp [parenthesizedTokens, Token.rename]

theorem tokens_rename (f : Formula) : (f.rename r).tokens = f.tokens.map (Token.rename r) := by
  induction f with
  | const value => rfl
  | var name => rfl
  | not a ih =>
    simp [rename, tokens, ih, map_rename_parenthesizedTokens, Token.rename]
  | binary op a b iha ihb =>
    simp [rename, tokens, iha, ihb, map_rename_parenthesizedTokens, Token.rename]

variable {r}

theorem rename_injective (injective : Function.Injective r) :
    Function.Injective (rename r) := by
  intro f g same
  induction f generalizing g with
  | const value =>
    cases g with
    | const => exact same
    | var | not | binary => cases same
  | var name =>
    cases g with
    | var other => rw [injective (Formula.var.inj same)]
    | const | not | binary => cases same
  | not a ih =>
    cases g with
    | not b => rw [ih (Formula.not.inj same)]
    | const | var | binary => cases same
  | binary op a b iha ihb =>
    cases g with
    | binary op' a' b' =>
      obtain ⟨rfl, left, right⟩ := Formula.binary.inj same
      rw [iha left, ihb right]
    | const | var | not => cases same

end Formula

end Propositional
