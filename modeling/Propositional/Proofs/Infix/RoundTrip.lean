import Propositional.Proofs.Grammar.Operands
import Propositional.Proofs.Infix.Tokens
import Propositional.Proofs.Reading.Exactness

/-!
# Reading the infix form again

The infix form of a formula is a text of that formula if every name can stand for a variable,
and only then. Its depth is the nesting of the formula, which has nothing to do with the
depth of another text of the same formula: `Not(Implies(A, B))` is inside two calls where
`~(A >> B)` puts three constructs around `B`.

Results:
1. `Formula.isText_text_iff`: which formulas their infix form is a text of.
2. `Formula.parse_text_iff`: which formulas are read back from their infix form.
3. `Formula.parse_text_of_parse`: of the formulas that can be read from some text, exactly
   those nested at most 256 deep are read back.
4. `Formula.parse_text_ne_nestedCalls`: a formula that can be read from a text, and not from
   its own infix form.
-/

namespace Propositional

/-! ## Names of variables -/

/-- The words that are no variable: the literals and the names of the functions. -/
def Name.reserved : List String :=
  ["True", "False", "Not", "And", "Or", "Xor", "Implies", "Eq", "Equivalent"]

/-- The name is a word and not a reserved one. -/
def Name.IsVariable (name : Name) : Prop :=
  Text.isWord name.text.toList = true ∧ name.text ∉ reserved

theorem Operation.ofName?_eq_none {name : String} :
    ofName? name = none ↔ name ∉ ["Not", "And", "Or", "Xor", "Implies", "Eq", "Equivalent"] := by
  unfold ofName?
  split <;> simp_all

/-- A name that is a word is a variable if it is neither a literal nor a function. -/
theorem Name.isVariable_iff {name : Name} :
    name.IsVariable ↔ name.IsWord ∧ Operation.ofName? name.text = none := by
  rw [Operation.ofName?_eq_none]
  simp only [IsVariable, IsWord, reserved, List.mem_cons, not_or, ne_eq, and_assoc]

namespace Formula

/-! ## Texts and variables -/

/-- The names of a formula with a text are variables, whatever the depth of the text. -/
theorem IsText.isVariable {f : Formula} {d : Nat} {text : String} (h : f.IsText d text) :
    ∀ name ∈ f.occurrences, name.IsVariable := by
  intro name mem
  obtain ⟨tokens, scanned, derives⟩ := h
  have word := mem_of_mem_operands (derives.operands_eq ▸ mem)
  exact Name.isVariable_iff.2 ⟨scan_isWord scanned word, derives.free name mem⟩

theorem isText_text {f : Formula} (vars : ∀ name ∈ f.occurrences, name.IsVariable) :
    f.IsText f.nesting f.text := by
  have adds := adds_text fun name mem => (Name.isVariable_iff.1 (vars name mem)).1
  have derives := derives_tokens fun name mem => (Name.isVariable_iff.1 (vars name mem)).2
  exact .of_adds (adds [] endsWord_nil) (derives (.joined .equiv) f.one_le_strength)

/-- Names that are no variables have no infix form that could be read as the same formula. -/
theorem isText_text_iff {f : Formula} {d : Nat} :
    f.IsText d f.text ↔ (∀ name ∈ f.occurrences, name.IsVariable) ∧ d = f.nesting := by
  constructor
  · intro h
    exact ⟨h.isVariable, (h.unique (isText_text h.isVariable)).1⟩
  · rintro ⟨vars, rfl⟩
    exact isText_text vars

theorem isTextWithinLimits_text_iff {f : Formula} :
    f.IsTextWithinLimits f.text ↔
      (∀ name ∈ f.occurrences, name.IsVariable) ∧ f.height ≤ 256 ∧ f.nesting ≤ 256 := by
  simp only [IsTextWithinLimits, isText_text_iff]
  constructor
  · rintro ⟨low, d, depth, vars, rfl⟩
    exact ⟨vars, low, depth⟩
  · rintro ⟨vars, low, depth⟩
    exact ⟨low, f.nesting, depth, vars, rfl⟩

/-- The formulas that are read back from their infix form. -/
theorem parse_text_iff (f : Formula) :
    parse f.text = .ok f ↔
      f.isConst = false ∧
        (∀ name ∈ f.occurrences, Text.isWord name.text.toList = true ∧
          name.text ∉ ["True", "False", "Not", "And", "Or", "Xor", "Implies", "Eq",
            "Equivalent"]) ∧
        f.height ≤ 256 ∧ f.nesting ≤ 256 := by
  rw [parse_ok_iff, isTextWithinLimits_text_iff]
  rfl

end Formula

/-! ## Calls that are nested less deep than their infix form -/

namespace NestedCalls

def operand : Name := ⟨"A", by decide⟩

/-- `~(A >> ~(A >> … A))`: every round is two calls, or three constructs of the infix form. -/
def formula : Nat → Formula
  | 0 => .var operand
  | rounds + 1 => .not (.binary .implies (.var operand) (formula rounds))

/-- `Not(Implies(A,Not(Implies(A,…A))))`. -/
def text : Nat → String
  | 0 => "A"
  | rounds + 1 => "Not(Implies(A," ++ text rounds ++ "))"

def tokens : Nat → List Token
  | 0 => [.word operand]
  | rounds + 1 =>
    [.word ⟨"Not", by decide⟩, .opening, .word ⟨"Implies", by decide⟩, .opening,
      .word operand, .comma] ++ tokens rounds ++ [.closing, .closing]

/-- A word with a sign after it. -/
theorem adds_word_sign {c sign : Char} {more : List Char} {token : Token}
    (word : Text.isWord (c :: more) = true) (other : Text.isWordChar sign = false)
    (found : Token.ofChar? sign = some token) (rest : List Char) :
    Adds (c :: (more ++ [sign])) [Token.ofWord c more, token] rest :=
  (adds_word word (endsWord_cons other rest)).append (adds_sign found rest)

theorem adds_text (rounds : Nat) :
    ∀ rest, EndsWord rest → Adds (text rounds).toList (tokens rounds) rest := by
  induction rounds with
  | zero =>
    intro rest ends
    exact adds_word (c := 'A') (by decide) ends
  | succ rounds ih =>
    intro rest _
    have negation : Text.isWord ['N', 'o', 't'] = true := by decide
    have implication : Text.isWord ['I', 'm', 'p', 'l', 'i', 'e', 's'] = true := by decide
    have atom : Text.isWord ['A'] = true := by decide
    have opening : Text.isWordChar '(' = false := by decide
    have comma : Text.isWordChar ',' = false := by decide
    have opened (rest : List Char) : Adds "Not(Implies(A,".toList
        [.word ⟨"Not", by decide⟩, .opening, .word ⟨"Implies", by decide⟩, .opening,
          .word operand, .comma] rest :=
      ((adds_word_sign negation opening rfl _).append
        (adds_word_sign implication opening rfl _)).append (adds_word_sign atom comma rfl rest)
    have closed : Adds "))".toList [.closing, .closing] rest :=
      (adds_sign rfl _).append (adds_sign rfl _)
    show Adds ("Not(Implies(A," ++ text rounds ++ "))").toList _ rest
    rw [String.toList_append, String.toList_append]
    exact ((opened _).append (ih _ (endsWord_cons (by decide) _))).append closed

theorem derives (rounds : Nat) :
    Derives .primary (2 * rounds) (tokens rounds) (formula rounds) := by
  induction rounds with
  | zero => exact .var (by decide)
  | succ rounds ih =>
    have weakest : (Level.joined .equiv).strength ≤ Level.primary.strength := by decide
    have var : Derives .primary 0 [.word operand] (.var operand) := .var (by decide)
    have both := Arguments.more (var.loosen _ weakest) (.one (ih.loosen _ weakest))
    rw [Nat.zero_max] at both
    have implication := Derives.call (f := .binary .implies (.var operand) (formula rounds))
      (rfl : Operation.ofName? (⟨"Implies", by decide⟩ : Name).text = _) both rfl
    have negation := Derives.call (f := formula (rounds + 1))
      (rfl : Operation.ofName? (⟨"Not", by decide⟩ : Name).text = _)
      (.one (implication.loosen _ weakest)) rfl
    simpa [tokens, Nat.mul_succ] using negation

/-- The text of the calls is inside two of them in every round. -/
theorem isText (rounds : Nat) : (formula rounds).IsText (2 * rounds) (text rounds) :=
  .of_adds (adds_text rounds [] endsWord_nil) ((derives rounds).loosen _ (by decide))

theorem height_formula (rounds : Nat) : (formula rounds).height = 2 * rounds := by
  induction rounds with
  | zero => rfl
  | succ rounds ih =>
    simp only [formula, Formula.height, ih]
    omega

/-- The infix form of the calls is inside three constructs for every round. -/
theorem nesting_formula (rounds : Nat) : (formula rounds).nesting = 3 * rounds := by
  induction rounds with
  | zero => rfl
  | succ rounds ih =>
    -- the inner round is a negation or a name, and stands without parentheses
    have alone : Formula.bracketed .implies .right (formula rounds) = false := by
      cases rounds <;> rfl
    show 1 + (max 0 (1 + Formula.nestingWithin _ (formula rounds).nesting) + 1) = 3 * (rounds + 1)
    rw [alone, ih]
    simp only [Formula.nestingWithin, Bool.false_eq_true, if_false]
    omega

/-- Up to 128 rounds the calls are read. -/
theorem parse_text_eq {rounds : Nat} (few : rounds ≤ 128) :
    Formula.parse (text rounds) = .ok (formula rounds) := by
  refine Formula.parse_ok_iff.2 ⟨?_, ?_, 2 * rounds, by omega, isText rounds⟩
  · cases rounds <;> rfl
  · rw [height_formula]
    omega

end NestedCalls

/-! ## The infix form of what was read -/

namespace Formula

/-- Of all that reading the infix form again asks for, only the nesting can fail. -/
theorem isTextWithinLimits_text_of_parse {text : String} {f : Formula} (h : parse text = .ok f) :
    f.IsTextWithinLimits f.text ↔ f.nesting ≤ 256 := by
  obtain ⟨-, low, d, -, written⟩ := parse_ok_iff.1 h
  rw [isTextWithinLimits_text_iff]
  exact ⟨fun within => within.2.2, fun nested => ⟨written.isVariable, low, nested⟩⟩

/-- A formula that was read is read back from its infix form if that form is nested at most
256 deep, and its infix form is malformed otherwise. -/
theorem parse_text_of_parse {text : String} {f : Formula} (h : parse text = .ok f) :
    (f.nesting ≤ 256 → parse f.text = .ok f) ∧
      (256 < f.nesting → ∃ column cause, parse f.text = .error (.malformed column cause)) := by
  have within := isTextWithinLimits_text_of_parse h
  obtain ⟨proper, -, d, -, written⟩ := parse_ok_iff.1 h
  constructor
  · intro nested
    exact parse_ok_iff.2 ⟨proper, within.2 nested⟩
  · intro nested
    -- whatever formula the infix form could be, its depth is the nesting of this one
    refine parse_malformed_iff.2 ?_
    rintro ⟨g, low, e, depth, text⟩
    obtain ⟨rfl, -⟩ := text.unique (isText_text written.isVariable)
    exact Nat.not_lt.2 depth nested

/-- The infix form of 85 rounds of calls is inside 255 constructs. -/
theorem parse_text_of_parse_nestedCalls :
    parse (NestedCalls.text 85) = .ok (NestedCalls.formula 85) ∧
      parse (NestedCalls.formula 85).text = .ok (NestedCalls.formula 85) := by
  have read := NestedCalls.parse_text_eq (show 85 ≤ 128 by decide)
  refine ⟨read, (parse_text_of_parse read).1 ?_⟩
  rw [NestedCalls.nesting_formula]
  decide

/-- One round more can be read, and not read back. -/
theorem parse_text_ne_nestedCalls :
    parse (NestedCalls.text 86) = .ok (NestedCalls.formula 86) ∧
      parse (NestedCalls.formula 86).text ≠ .ok (NestedCalls.formula 86) := by
  have read := NestedCalls.parse_text_eq (show 86 ≤ 128 by decide)
  refine ⟨read, fun again => ?_⟩
  have nested := (isTextWithinLimits_text_of_parse read).1 (parse_ok_iff.1 again).2
  rw [NestedCalls.nesting_formula] at nested
  exact absurd nested (by decide)

end Formula

end Propositional
