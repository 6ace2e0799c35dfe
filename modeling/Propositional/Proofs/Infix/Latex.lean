import Propositional.Formula.Latex
import Propositional.Proofs.Infix.Tokens

/-!
# The LaTeX form is the infix form token by token

The LaTeX form of a formula is what its infix form becomes when every token is typeset for
itself. So an operand stands in parentheses in one form exactly if it does in the other.

Results:
1. `Formula.latexOf_tokens`: the tokens of a formula, typeset, by induction on the formula.
2. `Formula.latex_of_scan`: the same for the tokens that the infix form is scanned into.
-/

namespace Propositional

open Reading (kinds)

/-- The token in math mode, with the blanks that it has around it. -/
def Token.latex : Token → String
  | .word name => name.latex
  | .literal true => "\\text\x7bTrue\x7d"
  | .literal false => "\\text\x7bFalse\x7d"
  | .not => "\\neg "
  | .operator op => " " ++ op.latex ++ " "
  | .opening => "\\left("
  | .closing => "\\right)"
  | .comma => ","

/-- The tokens in math mode, one after the other. -/
def latexOf (ts : List Token) : String := String.join (ts.map Token.latex)

@[simp] theorem latexOf_cons (t : Token) (ts : List Token) :
    latexOf (t :: ts) = t.latex ++ latexOf ts := by
  simp [latexOf]

@[simp] theorem latexOf_append (ts us : List Token) :
    latexOf (ts ++ us) = latexOf ts ++ latexOf us := by
  simp [latexOf]

namespace Formula

theorem latexOf_parenthesized (needed : Bool) (ts : List Token) :
    latexOf (parenthesizedTokens needed ts) = latexParenthesized needed (latexOf ts) := by
  cases needed with
  | false => rfl
  | true =>
    simp [parenthesizedTokens, latexParenthesized, Token.latex, latexOf, String.append_assoc]

/-- Both forms take the same steps through the formula. -/
theorem latexOf_tokens (f : Formula) : latexOf f.tokens = f.latex := by
  induction f with
  | const value => cases value <;> simp [tokens, latex, Token.latex, latexOf]
  | var name => simp [tokens, latex, Token.latex, latexOf]
  | not a ih => rw [tokens, latexOf_cons, latexOf_parenthesized, ih, latex, Token.latex]
  | binary op a b iha ihb =>
    rw [tokens, latexOf_append, latexOf_cons, latexOf_parenthesized, latexOf_parenthesized, iha,
      ihb, latex, Token.latex, ← String.append_assoc]

/-- A formula has no commas between its tokens, as a call would. -/
theorem comma_notMem_tokens (f : Formula) : .comma ∉ f.tokens := by
  have parenthesized {needed : Bool} {ts : List Token} (h : .comma ∉ ts) :
      .comma ∉ parenthesizedTokens needed ts := by
    cases needed <;> simp [parenthesizedTokens, h]
  induction f with
  | const | var => simp [tokens]
  | not a ih => simpa [tokens] using parenthesized ih
  | binary op a b iha ihb => simpa [tokens] using ⟨parenthesized iha, parenthesized ihb⟩

/-- The LaTeX form of a formula is that of the tokens of its infix form, none of which is a
comma, if its names are words and no literals. -/
theorem latex_of_scan {f : Formula} (words : ∀ name ∈ f.occurrences, name.IsWord) :
    ∃ ts, scan f.text = .ok ts ∧ .comma ∉ kinds ts ∧
      String.join ((kinds ts).map Token.latex) = f.latex := by
  obtain ⟨ts, scanned, same⟩ := scan_text words
  exact ⟨ts, scanned, same ▸ f.comma_notMem_tokens, same ▸ f.latexOf_tokens⟩

/-- The left side of `>>` and the operand of a negation in parentheses, a literal, and names with
and without a subscript, of which one is that of a function. -/
theorem latex_of_scan_grouped :
    ∃ ts, scan "(A >> True) >> ~(Not & x_1)" = .ok ts ∧ .comma ∉ kinds ts ∧
      String.join ((kinds ts).map Token.latex) =
        "\\left(A \\Rightarrow \\text\x7bTrue\x7d\\right) \\Rightarrow " ++
          "\\neg \\left(Not \\wedge x_\x7b1\x7d\\right)" := by
  let f : Formula := .binary .implies (.binary .implies (.var ⟨"A", by decide⟩) (.const true))
    (.not (.binary .and (.var ⟨"Not", by decide⟩) (.var ⟨"x_1", by decide⟩)))
  have words : ∀ name ∈ f.occurrences, name.IsWord := by
    unfold Name.IsWord
    decide
  have written : f.text = "(A >> True) >> ~(Not & x_1)" := by decide
  have typeset : f.latex = "\\left(A \\Rightarrow \\text\x7bTrue\x7d\\right) \\Rightarrow " ++
      "\\neg \\left(Not \\wedge x_\x7b1\x7d\\right)" := by decide
  rw [← written, ← typeset]
  exact latex_of_scan words

end Formula

end Propositional
