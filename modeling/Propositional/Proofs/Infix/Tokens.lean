import Propositional.Formula.Infix
import Propositional.Proofs.Grammar.Unambiguous
import Propositional.Proofs.Token.Scanning

/-!
# The tokens of the infix form

The infix form of a formula whose names are words is scanned into the tokens one expects,
and these tokens have a derivation with the formula as its tree. The derivation is as deep
as the parentheses, negations and right sides of `>>` that the infix form puts around an
operand, which `Formula.nesting` counts.

Results:
1. `Formula.scan_text`: the tokens of the infix form.
2. `Formula.derives_tokens`: their derivation, from every level that binds no more strongly
   than the formula, by induction on the formula.
-/

namespace Propositional

open Reading (kinds)

namespace Formula

/-- The tokens, in parentheses if `needed`. -/
def parenthesizedTokens (needed : Bool) (ts : List Token) : List Token :=
  if needed then .opening :: ts ++ [.closing] else ts

/-- The tokens of the infix form. -/
def tokens : Formula → List Token
  | .const value => [.literal value]
  | .var name => [.word name]
  | .not a => .not :: parenthesizedTokens a.bracketedInNot a.tokens
  | .binary op a b =>
    parenthesizedTokens (bracketed op .left a) a.tokens ++
      .operator op :: parenthesizedTokens (bracketed op .right b) b.tokens

/-- The nesting of an operand: one more if it stands in parentheses. -/
def nestingWithin (needed : Bool) (nesting : Nat) : Nat :=
  if needed then nesting + 1 else nesting

/-- How many parentheses, negations and right sides of `>>` the infix form puts around an
operand at most. -/
def nesting : Formula → Nat
  | .const _ | .var _ => 0
  | .not a => 1 + nestingWithin a.bracketedInNot a.nesting
  | .binary .implies a b =>
    max (nestingWithin (bracketed .implies .left a) a.nesting)
      (1 + nestingWithin (bracketed .implies .right b) b.nesting)
  | .binary op a b =>
    max (nestingWithin (bracketed op .left a) a.nesting)
      (nestingWithin (bracketed op .right b) b.nesting)

/-! ## Scanning the infix form -/

theorem adds_parenthesized {needed : Bool} {text : String} {ts : List Token} {rest : List Char}
    (adds : ∀ rest, EndsWord rest → Adds text.toList ts rest) (ends : EndsWord rest) :
    Adds (parenthesized needed text).toList (parenthesizedTokens needed ts) rest := by
  cases needed with
  | false => exact adds rest ends
  | true =>
    simp only [parenthesized, parenthesizedTokens, if_true, String.toList_append]
    have closing : EndsWord ([')'] ++ rest) := endsWord_cons (by decide) rest
    exact ((adds_sign rfl _).append (adds _ closing)).append (adds_sign rfl _)

/-- The symbol of a connective, with its blanks. -/
theorem adds_symbol (op : Connective) (rest : List Char) :
    Adds (" " ++ op.symbol ++ " ").toList [.operator op] rest := by
  have blank : Text.isBlank ' ' = true := by decide
  have spaced {symbol : List Char} (adds : Adds symbol [.operator op] (' ' :: rest)) :
      Adds ([' '] ++ symbol ++ [' ']) [.operator op] rest :=
    ((adds_blank blank _).append adds).append (adds_blank blank _)
  cases op with
  | and | or | xor => exact spaced (adds_sign rfl _)
  | implies | equiv => exact spaced (adds_double (by decide) rfl rfl _)

/-- What the infix form adds to the tokens before the end of a word. -/
theorem adds_text {f : Formula} (words : ∀ name ∈ f.occurrences, name.IsWord) :
    ∀ rest, EndsWord rest → Adds f.text.toList f.tokens rest := by
  induction f with
  | const value =>
    intro rest ends
    cases value with
    | false => exact adds_word (by decide) ends
    | true => exact adds_word (by decide) ends
  | var name =>
    intro rest ends
    exact adds_name (words name (by simp [occurrences])) ends
  | not a ih =>
    intro rest ends
    simp only [text, tokens, String.toList_append]
    exact (adds_sign rfl _).append (adds_parenthesized (ih words) ends)
  | binary op a b iha ihb =>
    intro rest ends
    have left := iha (fun name mem => words name (List.mem_append_left _ mem))
    have right := ihb (fun name mem => words name (List.mem_append_right _ mem))
    simp only [text, tokens]
    rw [String.toList_append, String.toList_append, ← List.singleton_append, ← List.append_assoc]
    refine Adds.append (Adds.append (adds_parenthesized left ?_) (adds_symbol op _))
      (adds_parenthesized right ends)
    rw [String.toList_append, String.toList_append]
    exact endsWord_cons (by decide) _

/-- The tokens of the infix form, if every name is a word. -/
theorem scan_text {f : Formula} (words : ∀ name ∈ f.occurrences, name.IsWord) :
    ∃ placed, scan f.text = .ok placed ∧ kinds placed = f.tokens :=
  (adds_text words [] endsWord_nil).scan

end Formula

/-! ## Levels by strength -/

namespace Level

/-- How strongly the phrases of the level bind: as the formulas that need no parentheses. -/
def strength : Level → Nat
  | .primary => 7
  | .negation => 6
  | .joined op => op.strength

@[simp] theorem strength_operand (op : Connective) :
    (operand op).strength = op.strength + 1 := by
  cases op <;> rfl

theorem strength_le_operand (op : Connective) :
    (Level.joined op).strength ≤ (Level.operand op).strength := by
  rw [strength_operand]
  exact Nat.le_succ _

theorem strength_le (level : Level) : level.strength ≤ 7 := by
  cases level with
  | primary | negation => decide
  | joined op => cases op <;> decide

/-- The level of an operand of a connective, on each side. -/
def ofSide (op : Connective) (side : Side) : Level :=
  if op.groupsRight == (side == .left) then operand op else .joined op

theorem ofSide_left {op : Connective} (left : op ≠ .implies) :
    ofSide op .left = .joined op := by
  cases op <;> first | rfl | contradiction

theorem ofSide_right {op : Connective} (left : op ≠ .implies) :
    ofSide op .right = operand op := by
  cases op <;> first | rfl | contradiction

end Level

theorem Formula.one_le_strength (f : Formula) : 1 ≤ f.strength := by
  cases f with
  | const | var | not => simp [strength]
  | binary op => cases op <;> simp [strength, Connective.strength]

/-- An operand stands in parentheses if it binds less strongly than its level. -/
theorem Formula.bracketed_eq (op : Connective) (side : Side) (operand : Formula) :
    bracketed op side operand = decide (operand.strength < (Level.ofSide op side).strength) := by
  unfold bracketed Level.ofSide
  split
  · rw [Level.strength_operand]
    exact decide_eq_decide.2 Nat.lt_succ_iff.symm
  · rfl

/-! ## The derivation of the infix form -/

/-- An operand alone is a chain. -/
theorem Derives.up {op : Connective} {d : Nat} {ts : List Token} {f : Formula}
    (h : Derives (.operand op) d ts f) : Derives (.joined op) d ts f := by
  by_cases right : op = .implies
  · subst right
    exact .alone h
  · have chain := Derives.chain right h .done
    rwa [Nat.max_zero, List.append_nil] at chain

/-- A phrase is also a phrase of every level that binds less strongly. -/
theorem Derives.loosen {level : Level} {d : Nat} {ts : List Token} {f : Formula}
    (h : Derives level d ts f) :
    ∀ looser : Level, looser.strength ≤ level.strength → Derives looser d ts f
  | .primary, le => by
    cases level with
    | primary => exact h
    | negation => contradiction
    | joined op => cases op <;> contradiction
  | .negation, le => by
    cases level with
    | primary => exact .bare h
    | negation => exact h
    | joined op => cases op <;> contradiction
  | .joined op, le => by
    by_cases same : level = .joined op
    · exact same ▸ h
    · -- the operands of a connective bind just one degree more strongly than its chains
      have stronger : (Level.operand op).strength ≤ level.strength := by
        cases level with
        | primary | negation => cases op <;> decide
        | joined op' => cases op <;> cases op' <;> first | decide | contradiction
      exact (h.loosen (.operand op) stronger).up
termination_by looser => 7 - looser.strength
decreasing_by
  have bound := (Level.operand op).strength_le
  rw [Level.strength_operand] at bound ⊢
  simp only [Level.strength]
  omega

/-- One more operand at the end of a chain. -/
theorem Steps.snoc {op : Connective} {d e : Nat} {ts us : List Token} {f g h : Formula}
    (steps : Steps op f d ts g) (last : Derives (.operand op) e us h) :
    Steps op f (max d e) (ts ++ .operator op :: us) (.binary op g h) := by
  induction steps using Steps.chain_induction with
  | done f =>
    have one := Steps.step last (.done (f := .binary op f h))
    rwa [Nat.max_zero, List.append_nil, ← Nat.zero_max e] at one
  | step _ _ _ _ _ _ _ next more ih =>
    have longer := Steps.step next ih
    rwa [← Nat.max_assoc, ← List.append_assoc] at longer

theorem Derives.snoc {op : Connective} {d e : Nat} {ts us : List Token} {f g : Formula}
    (left : op ≠ .implies) (chain : Derives (.joined op) d ts f)
    (last : Derives (.operand op) e us g) :
    Derives (.joined op) (max d e) (ts ++ .operator op :: us) (.binary op f g) := by
  cases chain with
  | chain _ first more =>
    rw [Nat.max_assoc, List.append_assoc]
    exact .chain left first (more.snoc last)
  | alone | implies => exact absurd rfl left

namespace Formula

/-- An operand with its parentheses, if it needs them, is a phrase of the level it stands at. -/
theorem derives_within {f : Formula} {level : Level} {needed : Bool}
    (derives : ∀ level : Level, level.strength ≤ f.strength → Derives level f.nesting f.tokens f)
    (fits : needed = decide (f.strength < level.strength)) :
    Derives level (nestingWithin needed f.nesting) (parenthesizedTokens needed f.tokens) f := by
  cases needed with
  | false => exact derives level (Nat.not_lt.1 (of_decide_eq_false fits.symm))
  | true =>
    have group := Derives.group (derives (.joined .equiv) f.one_le_strength)
    exact group.loosen level level.strength_le

/-- The tokens of the infix form are a phrase of every level that binds no more strongly. -/
theorem derives_tokens {f : Formula} (free : f.Free) :
    ∀ level : Level, level.strength ≤ f.strength → Derives level f.nesting f.tokens f := by
  induction f with
  | const value => exact Derives.literal.loosen
  | var name => exact (Derives.var (free name (by simp [occurrences]))).loosen
  | not a ih =>
    have inner : Derives .negation _ _ a := derives_within (ih free) rfl
    have negation := inner.not
    rw [Nat.add_comm] at negation
    exact negation.loosen
  | binary op a b iha ihb =>
    obtain ⟨freeA, freeB⟩ := free_binary.1 free
    have left := derives_within (iha freeA) (bracketed_eq op .left a)
    have right := derives_within (ihb freeB) (bracketed_eq op .right b)
    -- an implication opens its right side, and the other chains take one operand more
    have joined : Derives (.joined op) (nesting (.binary op a b)) (tokens (.binary op a b))
        (.binary op a b) := by
      cases op with
      | implies =>
        have implication := Derives.implies left right
        rwa [Nat.add_comm] at implication
      | and | or | xor | equiv => exact Derives.snoc (by decide) left right
    exact joined.loosen

end Formula

end Propositional
