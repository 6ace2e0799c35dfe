import Mathlib.Algebra.Ring.Parity
import Propositional.Proofs.Evaluation
import Propositional.Proofs.Infix.Functions
import Propositional.Proofs.Infix.RoundTrip

/-!
# Chains of one connective

A chain `A & B & A` has a tree that is one level higher for every name after the first. A chain
of `>>` grows to the right, and every `>>` is a construct around all that follows; a chain of
any other connective grows to the left, and no construct is around its names. So two different
limits end both kinds of chain at the same number of names.

Results:
1. `Connective.chained_cons_cons`: the first two values of a chain, or the first and the rest of
   a chain of `>>`, are one value of a shorter chain.
2. `eval_chain`: the value of a chain, by induction on its names.
3. `isText_chain`, `height_chain`: the depth of its text and the height of its tree.
4. `parse_chain`: which chains are read, and what they say of the values of their names.
-/

namespace Propositional

namespace Connective

/-- The names with the connective between them. -/
def between (op : Connective) (names : List Name) : String :=
  (" " ++ op.symbol ++ " ").intercalate (names.map Name.text)

/-- What a chain says of the values of its names: all are true, one is, an odd number is, an even
number is not, or not all but the last are true while the last is false. -/
def Chained : Connective → List Bool → Prop
  | .and, values => ∀ value ∈ values, value = true
  | .or, values => ∃ value ∈ values, value = true
  | .xor, values => Odd (values.count true)
  | .equiv, values => Even (values.count false)
  | .implies, values => ¬((∀ value ∈ values.dropLast, value = true) ∧ values.getLast? = some false)

/-! ## The values of a chain -/

theorem chained_singleton (op : Connective) (value : Bool) :
    op.Chained [value] ↔ value = true := by
  cases op <;> cases value <;> simp [Chained]

/-- A chain that groups to the left starts with the value of its first two names. -/
theorem chained_cons_cons {op : Connective} (left : op ≠ .implies) (a b : Bool)
    (values : List Bool) :
    op.Chained (a :: b :: values) ↔ op.Chained (op.apply a b :: values) := by
  cases op with
  | and => cases a <;> cases b <;> simp [Chained, apply]
  | or => cases a <;> cases b <;> simp [Chained, apply]
  | xor => cases a <;> cases b <;> simp [Chained, apply, Nat.odd_add_one]
  | equiv => cases a <;> cases b <;> simp [Chained, apply, Nat.even_add_one]
  | implies => exact absurd rfl left

theorem chained_implies_cons (a b : Bool) (values : List Bool) :
    Chained .implies (a :: b :: values) ↔ (a = true → Chained .implies (b :: values)) := by
  cases a <;> simp [Chained]

/-- A chain of values that is joined from the left. -/
theorem foldl_apply_eq_true_iff {op : Connective} (left : op ≠ .implies) (a : Bool)
    (values : List Bool) : values.foldl op.apply a = true ↔ op.Chained (a :: values) := by
  induction values generalizing a with
  | nil => exact (op.chained_singleton a).symm
  | cons b values ih => rw [List.foldl_cons, ih, chained_cons_cons left]

end Connective

namespace Formula

/-! ## The tree of a chain -/

/-- The names joined from the left to the formula. -/
def chainLeft (op : Connective) : Formula → List Name → Formula
  | f, [] => f
  | f, name :: rest => chainLeft op (.binary op f (.var name)) rest

/-- The names joined from the right. -/
def chainRight (op : Connective) : Name → List Name → Formula
  | name, [] => .var name
  | name, next :: rest => .binary op (.var name) (chainRight op next rest)

/-- The tree of a chain of names. -/
def chain (op : Connective) (first : Name) (rest : List Name) : Formula :=
  if op.groupsRight then chainRight op first rest else chainLeft op (.var first) rest

theorem chain_left {op : Connective} (left : op ≠ .implies) (first : Name) (rest : List Name) :
    chain op first rest = chainLeft op (.var first) rest := by
  cases op <;> first | rfl | contradiction

theorem height_chainLeft (op : Connective) (f : Formula) (names : List Name) :
    (chainLeft op f names).height = f.height + names.length := by
  induction names generalizing f with
  | nil => rfl
  | cons name names ih =>
    rw [chainLeft, ih, List.length_cons]
    simp only [height, Nat.max_zero]
    omega

theorem height_chainRight (op : Connective) (first : Name) (rest : List Name) :
    (chainRight op first rest).height = rest.length := by
  induction rest generalizing first with
  | nil => rfl
  | cons next rest ih => simp [chainRight, height, ih]

theorem height_chain (op : Connective) (first : Name) (rest : List Name) :
    (chain op first rest).height = rest.length := by
  unfold chain
  split
  · exact height_chainRight op first rest
  · rw [height_chainLeft]
    exact Nat.zero_add _

theorem isConst_chainLeft (op : Connective) {f : Formula} (h : f.isConst = false)
    (names : List Name) : (chainLeft op f names).isConst = false := by
  induction names generalizing f with
  | nil => exact h
  | cons name names ih => exact ih rfl

theorem isConst_chain (op : Connective) (first : Name) (rest : List Name) :
    (chain op first rest).isConst = false := by
  unfold chain
  split
  · cases rest <;> rfl
  · exact isConst_chainLeft op rfl rest

/-! ## The text of a chain -/

/-- The tokens of a chain of names. -/
def chainTokens (op : Connective) (names : List Name) : List Token :=
  [.operator op].intercalate (names.map fun name => [.word name])

theorem chainTokens_singleton (op : Connective) (name : Name) :
    chainTokens op [name] = [.word name] := by
  simp [chainTokens]

theorem chainTokens_cons_cons (op : Connective) (name next : Name) (rest : List Name) :
    chainTokens op (name :: next :: rest) =
      [.word name] ++ .operator op :: chainTokens op (next :: rest) := by
  simp [chainTokens]

theorem adds_between (op : Connective) {names : List Name}
    (vars : ∀ name ∈ names, name.IsVariable) :
    Adds (op.between names).toList (chainTokens op names) [] :=
  adds_intercalate
    (fun name mem _ parted => adds_name (Name.isVariable_iff.1 (vars name mem)).1 parted.endsWord)
    (parted_symbol op) (adds_symbol op) parted_nil

theorem derives_var {name : Name} (var : name.IsVariable) (level : Level) :
    Derives level 0 [.word name] (.var name) :=
  (Derives.var (Name.isVariable_iff.1 var).2).loosen level level.strength_le

theorem steps_chainLeft (op : Connective) (f : Formula) {next : Name} {rest : List Name}
    (vars : ∀ name ∈ next :: rest, name.IsVariable) :
    Steps op f 0 (.operator op :: chainTokens op (next :: rest))
      (chainLeft op f (next :: rest)) := by
  induction rest generalizing f next with
  | nil =>
    have only := derives_var (vars next List.mem_cons_self) (.operand op)
    rw [chainTokens_singleton]
    exact .step only .done
  | cons name rest ih =>
    obtain ⟨var, others⟩ := List.forall_mem_cons.1 vars
    rw [chainTokens_cons_cons]
    exact .step (derives_var var (.operand op)) (ih (.binary op f (.var next)) others)

theorem derives_chainLeft {op : Connective} (left : op ≠ .implies) {first : Name}
    {rest : List Name} (vars : ∀ name ∈ first :: rest, name.IsVariable) :
    Derives (.joined op) 0 (chainTokens op (first :: rest)) (chainLeft op (.var first) rest) := by
  obtain ⟨var, others⟩ := List.forall_mem_cons.1 vars
  cases rest with
  | nil =>
    rw [chainTokens_singleton]
    exact derives_var var (.joined op)
  | cons next rest =>
    rw [chainTokens_cons_cons]
    exact .chain left (derives_var var (.operand op)) (steps_chainLeft op _ others)

/-- Every `>>` is around all the names after it. -/
theorem derives_chainRight {first : Name} {rest : List Name}
    (vars : ∀ name ∈ first :: rest, name.IsVariable) :
    Derives (.joined .implies) rest.length (chainTokens .implies (first :: rest))
      (chainRight .implies first rest) := by
  induction rest generalizing first with
  | nil =>
    rw [chainTokens_singleton]
    exact derives_var (vars first List.mem_cons_self) (.joined .implies)
  | cons next rest ih =>
    obtain ⟨var, others⟩ := List.forall_mem_cons.1 vars
    have implication := Derives.implies (derives_var var (.operand .implies)) (ih others)
    rw [Nat.zero_max] at implication
    rw [chainTokens_cons_cons]
    exact implication

/-- The text of a chain is nested no deeper than its tree is high. -/
theorem isText_chain (op : Connective) {first : Name} {rest : List Name}
    (vars : ∀ name ∈ first :: rest, name.IsVariable) :
    ∃ d ≤ rest.length, (chain op first rest).IsText d (op.between (first :: rest)) := by
  have adds := adds_between op vars
  have weakest : (Level.joined .equiv).strength ≤ (Level.joined op).strength := by
    cases op <;> decide
  by_cases right : op = .implies
  · subst right
    exact ⟨_, Nat.le_refl _, .of_adds adds ((derives_chainRight vars).loosen _ weakest)⟩
  · rw [chain_left right]
    exact ⟨0, Nat.zero_le _, .of_adds adds ((derives_chainLeft right vars).loosen _ weakest)⟩

/-! ## The value of a chain -/

theorem eval_binary {op : Connective} {f g : Formula} {v : Valuation} {a b : Bool}
    (left : f.eval v = some a) (right : g.eval v = some b) :
    (Formula.binary op f g).eval v = some (op.apply a b) := by
  rw [eval, left, right]
  rfl

theorem eval_chainLeft (op : Connective) {f : Formula} {v : Valuation} {a : Bool}
    (start : f.eval v = some a) {names : List Name} {values : List Bool}
    (bound : names.map (v ·.text) = values.map some) :
    (chainLeft op f names).eval v = some (values.foldl op.apply a) := by
  induction names generalizing f a values with
  | nil =>
    cases values with
    | nil => exact start
    | cons => cases bound
  | cons name names ih =>
    cases values with
    | nil => cases bound
    | cons b values =>
      obtain ⟨here, others⟩ := List.cons.inj bound
      have joined : (Formula.binary op f (.var name)).eval v = some (op.apply a b) :=
        eval_binary start here
      exact ih joined others

theorem eval_chainRight {first : Name} {rest : List Name} {v : Valuation} {a : Bool}
    {values : List Bool} (start : v first.text = some a)
    (bound : rest.map (v ·.text) = values.map some) :
    ∃ value, (chainRight .implies first rest).eval v = some value ∧
      (value = true ↔ Connective.Chained .implies (a :: values)) := by
  induction rest generalizing first a values with
  | nil =>
    cases values with
    | nil => exact ⟨a, start, (Connective.chained_singleton .implies a).symm⟩
    | cons => cases bound
  | cons next rest ih =>
    cases values with
    | nil => cases bound
    | cons b values =>
      obtain ⟨here, others⟩ := List.cons.inj bound
      obtain ⟨value, found, meaning⟩ := ih here others
      refine ⟨_, eval_binary start found, ?_⟩
      rw [Connective.chained_implies_cons, ← meaning]
      exact Connective.apply_eq_true_iff .implies a value

theorem eval_chain {op : Connective} {first : Name} {rest : List Name} {v : Valuation}
    {values : List Bool} (bound : (first :: rest).map (v ·.text) = values.map some) :
    ∃ value, (chain op first rest).eval v = some value ∧ (value = true ↔ op.Chained values) := by
  cases values with
  | nil => cases bound
  | cons a values =>
    obtain ⟨start, others⟩ := List.cons.inj bound
    by_cases right : op = .implies
    · subst right
      exact eval_chainRight start others
    · have first : (Formula.var first).eval v = some a := start
      rw [chain_left right]
      exact ⟨_, eval_chainLeft op first others, Connective.foldl_apply_eq_true_iff right a values⟩

/-- A chain of names is read if it has at most 257 of them, and malformed otherwise. What is read
has a value as soon as all of the names have one, and the value is what the chain says. -/
theorem parse_chain (op : Connective) {names : List Name} (nonempty : names ≠ [])
    (vars : ∀ name ∈ names, name.IsVariable) :
    ((∃ f, parse (op.between names) = .ok f) ↔ names.length ≤ 257) ∧
      (257 < names.length →
        ∃ column cause, parse (op.between names) = .error (.malformed column cause)) ∧
      ∀ f, parse (op.between names) = .ok f →
        ∀ (v : Valuation) (values : List Bool), names.map (v ·.text) = values.map some →
          ∃ value, f.eval v = some value ∧ (value = true ↔ op.Chained values) := by
  obtain ⟨first, rest, rfl⟩ := List.exists_cons_of_ne_nil nonempty
  obtain ⟨d, nested, written⟩ := isText_chain op vars
  have within (f : Formula) : f.IsTextWithinLimits (op.between (first :: rest)) ↔
      f = chain op first rest ∧ rest.length ≤ 256 := by
    rw [written.withinLimits_iff, height_chain]
    exact and_congr_right fun _ => ⟨And.left, fun short => ⟨short, Nat.le_trans nested short⟩⟩
  have read (f : Formula) : parse (op.between (first :: rest)) = .ok f ↔
      f = chain op first rest ∧ rest.length ≤ 256 := by
    rw [parse_ok_iff, within]
    refine and_iff_right_of_imp ?_
    rintro ⟨rfl, -⟩
    exact isConst_chain op first rest
  refine ⟨⟨?_, ?_⟩, fun long => ?_, fun f parsed v values bound => ?_⟩
  · rintro ⟨f, parsed⟩
    exact Nat.succ_le_succ ((read f).1 parsed).2
  · intro short
    exact ⟨chain op first rest, (read _).2 ⟨rfl, Nat.le_of_succ_le_succ short⟩⟩
  · refine parse_malformed_iff.2 ?_
    rintro ⟨f, inside⟩
    have short := ((within f).1 inside).2
    rw [List.length_cons] at long
    omega
  · obtain ⟨rfl, -⟩ := (read f).1 parsed
    exact eval_chain bound

/-- A name that occurs twice counts twice: of `A == B == A` two values are false where `A` is. -/
theorem parse_chain_repeated :
    ∃ f, parse "A == B == A" = .ok f ∧
      f.eval (fun text => if text = "A" then some false else some true) = some true := by
  let names : List Name := [⟨"A", by decide⟩, ⟨"B", by decide⟩, ⟨"A", by decide⟩]
  have vars : ∀ name ∈ names, name.IsVariable := by
    unfold Name.IsVariable
    decide
  have chain := parse_chain .equiv (by decide) vars
  obtain ⟨f, parsed⟩ := chain.1.2 (by decide)
  obtain ⟨value, found, meaning⟩ := chain.2.2 f parsed
    (fun text => if text = "A" then some false else some true) [false, true, false] rfl
  refine ⟨f, parsed, ?_⟩
  rw [found, meaning.2 (by simp [Connective.Chained])]

end Formula

end Propositional
