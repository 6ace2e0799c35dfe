import Mathlib.Data.List.Forall2
import Propositional.Formula.Parse
import Propositional.Proofs.Reading.Soundness

/-!
# Reading does not look at columns

Two texts whose tokens are of the same kinds, one by one, are read side by side. Both readings
do the same at every token; a column is only ever passed on to a problem, and then it is that
of the same token on both sides. Which columns belong together is a relation `R`, which no step
looks at.

Results:
1. `Alike.bind`, `alike_within`, `alike_expect`: steps that run alike are put together to steps
   that do.
2. `alike_chain`, `alike_arguments`: the two loops, by induction on the tokens that are left.
3. `uniform_insideOf`: every level of the grammar, by induction on the fuel.
4. `Formula.parse_congr`: what two texts with tokens of the same kinds are read as.
-/

namespace Propositional

namespace Reading

open Step

variable {R : Nat → Nat → Prop} {column column' : Nat}

/-! ## What two runs have in common -/

/-- Tokens of the same kind, in columns that belong together. -/
structure TokenAlike (R : Nat → Nat → Prop) (t t' : Placed) : Prop where
  token : t.token = t'.token
  column : R t.column t'.column

/-- The same tokens are left, and as many constructs are open. -/
structure CursorAlike (R : Nat → Nat → Prop) (c c' : Cursor) : Prop where
  rest : List.Forall₂ (TokenAlike R) c.rest c'.rest
  opened : c.opened = c'.opened

/-- Problems for the same reason, in columns that belong together or both at the end. -/
inductive ProblemAlike (R : Nat → Nat → Prop) : Problem → Problem → Prop
  | atToken {cause : Cause} {column column' : Nat} (columns : R column column') :
      ProblemAlike R (.atToken column cause) (.atToken column' cause)
  | atEnd {cause : Cause} : ProblemAlike R (.atEnd cause) (.atEnd cause)

/-- The same value, or problems alike. -/
inductive Agree (R : Nat → Nat → Prop) {α : Type} : Except Problem α → Except Problem α → Prop
  | ok {value : α} : Agree R (.ok value) (.ok value)
  | error {problem problem' : Problem} (problems : ProblemAlike R problem problem') :
      Agree R (.error problem) (.error problem')

/-- The same value and cursors alike, or problems alike. -/
inductive ResultAlike (R : Nat → Nat → Prop) {α : Type} :
    EStateM.Result Problem Cursor α → EStateM.Result Problem Cursor α → Prop
  | ok {value : α} {c c' : Cursor} (cursors : CursorAlike R c c') :
      ResultAlike R (.ok value c) (.ok value c')
  | error {problem problem' : Problem} {c c' : Cursor}
      (problems : ProblemAlike R problem problem') :
      ResultAlike R (.error problem c) (.error problem' c')

/-- Steps that end alike wherever they start alike. -/
def Alike (R : Nat → Nat → Prop) {α : Type} (step step' : Step α) : Prop :=
  ∀ ⦃c c'⦄, CursorAlike R c c' → ResultAlike R (step c) (step' c')

/-- A reader that does the same on tokens of the same kinds. -/
def Uniform (R : Nat → Nat → Prop) (reader : Reader) : Prop := Alike R reader.read reader.read

/-! ## Nodes -/

theorem Agree.map {α β : Type} {f : α → β} {x x' : Except Problem α} (h : Agree R x x') :
    Agree R (x.map f) (x'.map f) := by
  cases h with
  | ok => exact .ok
  | error problems => exact .error problems

theorem Agree.bind {α β : Type} {next next' : α → Except Problem β} {x x' : Except Problem α}
    (h : Agree R x x') (h' : ∀ value, Agree R (next value) (next' value)) :
    Agree R (x >>= next) (x' >>= next') := by
  cases h with
  | ok => exact h' _
  | error problems => exact .error problems

theorem Node.agree_grow (columns : R column column') (height : Nat) :
    Agree R (grow column height) (grow column' height) := by
  unfold grow
  split
  · exact .ok
  · exact .error (.atToken columns)

theorem Node.agree_negate (columns : R column column') (inner : Node) :
    Agree R (negate column inner) (negate column' inner) :=
  (agree_grow columns _).map

theorem Node.agree_join (columns : R column column') (op : Connective) (left right : Node) :
    Agree R (join op column left right) (join op column' left right) :=
  (agree_grow columns _).map

theorem Node.agree_foldlM_join (columns : R column column') (op : Connective)
    (first : Node) (rest : List Node) :
    Agree R (rest.foldlM (join op column) first) (rest.foldlM (join op column') first) := by
  induction rest generalizing first with
  | nil => exact .ok
  | cons right rest ih =>
    rw [List.foldlM_cons, List.foldlM_cons]
    exact (agree_join columns op first right).bind ih

theorem Node.agree_apply (columns : R column column') (operation : Operation)
    (arguments : List Node) :
    Agree R (apply operation column arguments) (apply operation column' arguments) := by
  unfold apply
  split
  · exact agree_negate columns _
  · split
    · exact agree_foldlM_join columns _ _ _
    · exact .error (.atToken columns)
  · exact .error (.atToken columns)

/-! ## Steps -/

/-- Nothing is left on both sides, or the same token is the next. -/
theorem CursorAlike.cases {c c' : Cursor} (h : CursorAlike R c c') :
    (∃ opened, c = ⟨[], opened⟩ ∧ c' = ⟨[], opened⟩) ∨
      ∃ token column column' rest rest' opened, c = ⟨⟨token, column⟩ :: rest, opened⟩ ∧
        c' = ⟨⟨token, column'⟩ :: rest', opened⟩ ∧ R column column' ∧
        CursorAlike R ⟨rest, opened⟩ ⟨rest', opened⟩ := by
  obtain ⟨ts, opened⟩ := c
  obtain ⟨ts', _⟩ := c'
  obtain ⟨rests, rfl⟩ := h
  cases rests with
  | nil => exact .inl ⟨opened, rfl, rfl⟩
  | @cons t t' rest rest' tokens others =>
    obtain ⟨token, column⟩ := t
    obtain ⟨_, column'⟩ := t'
    obtain ⟨rfl, columns⟩ := tokens
    exact .inr ⟨token, column, column', rest, rest', opened, rfl, rfl, columns, others, rfl⟩

theorem alike_pure {α : Type} (value : α) : Alike R (pure value) (pure value) :=
  fun _ _ cursors => .ok cursors

theorem alike_of {α : Type} {result result' : Except Problem α} (h : Agree R result result') :
    Alike R (of result) (of result') := by
  intro c c' cursors
  cases h with
  | ok => exact .ok cursors
  | error problems => exact .error problems

theorem ResultAlike.bind {α β : Type} {first first' : Step α} {next next' : α → Step β}
    {c c' : Cursor} (h : ResultAlike R (first c) (first' c'))
    (h' : ∀ value d d', first c = .ok value d → CursorAlike R d d' →
      ResultAlike R (next value d) (next' value d')) :
    ResultAlike R ((first >>= next) c) ((first' >>= next') c') := by
  simp only [Bind.bind, EStateM.bind]
  generalize first c = result, first' c' = result' at h h'
  cases h with
  | ok cursors => exact h' _ _ _ rfl cursors
  | error problems => exact .error problems

theorem Alike.bind {α β : Type} {first first' : Step α} {next next' : α → Step β}
    (h : Alike R first first') (h' : ∀ value, Alike R (next value) (next' value)) :
    Alike R (first >>= next) (first' >>= next') :=
  fun _ _ cursors => (h cursors).bind fun value _ _ _ cursors => h' value cursors

theorem alike_expect (wanted : Token) : Alike R (expect wanted) (expect wanted) := by
  intro c c' cursors
  rcases cursors.cases with ⟨opened, rfl, rfl⟩ |
    ⟨token, column, column', rest, rest', opened, rfl, rfl, columns, others⟩
  · exact .error .atEnd
  · by_cases same : token = wanted
    · simp only [expect, if_pos same]
      exact .ok others
    · simp only [expect, if_neg same]
      exact .error (.atToken columns)

theorem alike_within {α : Type} {step step' : Step α} (columns : R column column')
    (h : Alike R step step') : Alike R (within column step) (within column' step') := by
  intro c c' cursors
  have inner : CursorAlike R ⟨c.rest, c.opened + 1⟩ ⟨c'.rest, c'.opened + 1⟩ :=
    ⟨cursors.rest, congrArg (· + 1) cursors.opened⟩
  have ends := h inner
  simp only [within, cursors.opened] at ends ⊢
  split
  · generalize step _ = result, step' _ = result' at ends
    cases ends with
    | ok cursors => exact .ok ⟨cursors.rest, congrArg (· - 1) cursors.opened⟩
    | error problems => exact .error problems
  · exact .error (.atToken columns)

/-! ## The loops -/

theorem alike_chain {op : Connective} {operand : Reader} (uniform : Uniform R operand)
    (left : Node) : Alike R (chain op operand left) (chain op operand left) := by
  intro c c' cursors
  induction length : c.rest.length using Nat.strongRecOn generalizing left c c' with
  | ind size ih =>
    rcases cursors.cases with ⟨opened, rfl, rfl⟩ |
      ⟨token, column, column', rest, rest', opened, rfl, rfl, columns, others⟩
    · rw [chain_end (by simp)]
      exact .ok cursors
    by_cases next : token = .operator op
    · subst next
      rw [chain_cons, chain_cons]
      refine (uniform others).bind fun right inner inner' read cursors => ?_
      refine (alike_of (Node.agree_join columns op left right) cursors).bind
        fun node after after' joined others => ?_
      obtain ⟨-, rfl⟩ := of_ok joined
      have shorter : after.rest.length < size := by
        have := operand.uses read
        simp_all
        omega
      exact ih _ shorter node others rfl
    · rw [chain_end (by simpa using next), chain_end (by simpa using next)]
      exact .ok cursors

theorem alike_arguments {formula : Reader} (uniform : Uniform R formula) (before : List Node) :
    Alike R (arguments formula before) (arguments formula before) := by
  intro c c' cursors
  induction length : c.rest.length using Nat.strongRecOn generalizing before c c' with
  | ind size ih =>
    have ends := uniform cursors
    generalize read : formula.read c = result, read' : formula.read c' = result' at ends
    cases ends with
    | error problems =>
      rw [arguments_error read, arguments_error read']
      exact .error problems
    | @ok node inner inner' inside =>
      have closes := (alike_expect (R := R) .closing).bind fun _ =>
        alike_pure (node :: before).reverse
      rcases inside.cases with ⟨opened, rfl, rfl⟩ |
        ⟨token, column, column', rest, rest', opened, rfl, rfl, columns, others⟩
      · rw [arguments_end read (by simp), arguments_end read' (by simp)]
        exact closes inside
      by_cases next : token = .comma
      · subst next
        rw [arguments_comma read, arguments_comma read']
        have shorter : rest.length < size := by
          have := formula.uses read
          simp_all
          omega
        exact ih _ shorter _ others rfl
      · rw [arguments_end read (by simpa using next),
          arguments_end read' (by simpa using next)]
        exact closes inside

/-! ## The levels -/

section Levels

variable {formula : Reader}

theorem alike_group (uniform : Uniform R formula) (columns : R column column') :
    Alike R (group formula column) (group formula column') :=
  (alike_within columns uniform).bind fun node =>
    (alike_expect .closing).bind fun _ => alike_pure node

theorem alike_call (uniform : Uniform R formula) (columns : R column column')
    (operation : Operation) :
    Alike R (call formula operation column) (call formula operation column') :=
  (alike_within columns (alike_arguments uniform [])).bind fun nodes =>
    alike_of (Node.agree_apply columns operation nodes)

theorem alike_named (uniform : Uniform R formula) (columns : R column column') (name : Name) :
    Alike R (named formula name column) (named formula name column') := by
  intro c c' cursors
  cases function : Operation.ofName? name.text with
  | none =>
    rcases cursors.cases with ⟨opened, rfl, rfl⟩ |
      ⟨token, place, place', rest, rest', opened, rfl, rfl, places, others⟩
    · simp only [named, function]
      exact .ok cursors
    · cases token with
      | opening =>
        simp only [named, function]
        exact .error (.atToken columns)
      | _ =>
        simp only [named, function]
        exact .ok cursors
  | some operation =>
    rcases cursors.cases with ⟨opened, rfl, rfl⟩ |
      ⟨token, place, place', rest, rest', opened, rfl, rfl, places, others⟩
    · simp only [named, function]
      exact .error (.atToken columns)
    · cases token with
      | opening =>
        simp only [named, function]
        exact alike_call uniform columns operation others
      | _ =>
        simp only [named, function]
        exact .error (.atToken columns)

theorem alike_primary (uniform : Uniform R formula) :
    Alike R (primary formula) (primary formula) := by
  intro c c' cursors
  rcases cursors.cases with ⟨opened, rfl, rfl⟩ |
    ⟨token, column, column', rest, rest', opened, rfl, rfl, columns, others⟩
  · exact .error .atEnd
  · cases token with
    | literal value => exact .ok others
    | word name => exact alike_named uniform columns name others
    | opening => exact alike_group uniform columns others
    | not | operator | closing | comma => exact .error (.atToken columns)

theorem alike_negate {negated : Reader} (uniform : Uniform R negated)
    (columns : R column column') : Alike R (negate negated column) (negate negated column') :=
  (alike_within columns uniform).bind fun inner => alike_of (Node.agree_negate columns inner)

theorem alike_imply {consequent : Reader} (uniform : Uniform R consequent)
    (columns : R column column') (left : Node) :
    Alike R (imply consequent column left) (imply consequent column' left) :=
  (alike_within columns uniform).bind fun right =>
    alike_of (Node.agree_join columns .implies left right)

theorem uniform_leftChain {op : Connective} {operand : Reader} (uniform : Uniform R operand) :
    Uniform R (leftChain op operand) := by
  unfold Uniform
  rw [leftChain_eq]
  exact Alike.bind uniform (alike_chain uniform)

end Levels

/-- The readers of the inside of a construct are uniform. -/
structure Inside.Uniform (R : Nat → Nat → Prop) (inside : Inside) : Prop where
  formula : Reading.Uniform R inside.formula
  consequent : Reading.Uniform R inside.consequent
  negated : Reading.Uniform R inside.negated

namespace Inside.Uniform

variable {inside : Inside}

theorem negation (uniform : inside.Uniform R) : Reading.Uniform R (negation inside) := by
  intro c c' cursors
  rcases cursors.cases with ⟨opened, rfl, rfl⟩ |
    ⟨token, column, column', rest, rest', opened, rfl, rfl, columns, others⟩
  · exact alike_primary uniform.formula cursors
  · cases token with
    | not => exact alike_negate uniform.negated columns others
    | _ => exact alike_primary uniform.formula cursors

theorem conjunction (uniform : inside.Uniform R) : Reading.Uniform R (conjunction inside) :=
  uniform_leftChain uniform.negation

theorem exclusion (uniform : inside.Uniform R) : Reading.Uniform R (exclusion inside) :=
  uniform_leftChain uniform.conjunction

theorem disjunction (uniform : inside.Uniform R) : Reading.Uniform R (disjunction inside) :=
  uniform_leftChain uniform.exclusion

theorem implication (uniform : inside.Uniform R) : Reading.Uniform R (implication inside) := by
  intro c c' cursors
  have ends := uniform.disjunction cursors
  simp only [Reading.implication]
  generalize (Reading.disjunction inside).read c = result,
    (Reading.disjunction inside).read c' = result' at ends
  cases ends with
  | error problems => exact .error problems
  | @ok left middle middle' cursors =>
    rcases cursors.cases with ⟨opened, rfl, rfl⟩ |
      ⟨token, column, column', rest, rest', opened, rfl, rfl, columns, others⟩
    · exact .ok cursors
    · cases token with
      | operator op =>
        cases op with
        | implies => exact alike_imply uniform.consequent columns left others
        | _ => exact .ok cursors
      | _ => exact .ok cursors

theorem equivalence (uniform : inside.Uniform R) : Reading.Uniform R (equivalence inside) :=
  uniform_leftChain uniform.implication

end Inside.Uniform

theorem uniform_exhausted : Uniform R exhausted := fun _ _ _ => .error .atEnd

/-- Every level is uniform, with any fuel. -/
theorem uniform_insideOf (fuel : Nat) : (insideOf fuel).Uniform R := by
  induction fuel with
  | zero => exact ⟨uniform_exhausted, uniform_exhausted, uniform_exhausted⟩
  | succ fuel ih => exact ⟨ih.equivalence, ih.implication, ih.negation⟩

/-- The same formula is read from the same tokens, or their problems are alike. -/
theorem agree_all {tokens tokens' : List Placed}
    (same : List.Forall₂ (TokenAlike R) tokens tokens') (nonempty : tokens ≠ []) :
    Agree R (all tokens) (all tokens') := by
  have uniform : Uniform R formula := (uniform_insideOf depthLimit).equivalence
  have cursors : CursorAlike R ⟨tokens, 0⟩ ⟨tokens', 0⟩ := ⟨same, rfl⟩
  have ends := uniform cursors
  have nonempty' : tokens' ≠ [] := fun none => by
    rw [none, List.forall₂_nil_right_iff] at same
    exact nonempty same
  simp only [all, List.isEmpty_iff, if_neg nonempty, if_neg nonempty']
  generalize formula.read ⟨tokens, 0⟩ = result, formula.read ⟨tokens', 0⟩ = result' at ends
  cases ends with
  | error problems => exact .error problems
  | ok cursors =>
    rcases cursors.cases with ⟨opened, rfl, rfl⟩ |
      ⟨token, column, column', rest, rest', opened, rfl, rfl, columns, -⟩
    · exact .ok
    · exact .error (.atToken columns)

end Reading

namespace Formula

open Reading (kinds)

/-- The columns are those of the tokens at the same place of both lists. -/
def SamePlace (left right : List Placed) (column column' : Nat) : Prop :=
  ∃ i : Nat, (left.map Placed.column)[i]? = some column ∧
    (right.map Placed.column)[i]? = some column'

theorem tokensAlike_of_kinds_eq {left right : List Placed} (same : kinds left = kinds right) :
    List.Forall₂ (Reading.TokenAlike (SamePlace left right)) left right := by
  have lengths : left.length = right.length := by simpa [kinds] using congrArg List.length same
  refine List.forall₂_iff_get.2 ⟨lengths, fun i inside inside' => ⟨?_, i, ?_, ?_⟩⟩
  · have token := List.getElem_of_eq same (i := i) (by simpa [kinds] using inside)
    simpa [kinds] using token
  · simp [inside]
  · simp [inside']

/-- Texts whose tokens are of the same kinds are read as the same formula, or both refused as a
constant, or both refused for the same reason. The place of the reason is the same token, the
end of both texts, or the first column of texts without tokens. -/
theorem parse_congr {s t : String} {left right : List Placed} (scanned : scan s = .ok left)
    (scanned' : scan t = .ok right) (same : kinds left = kinds right) :
    (∀ f, parse s = .ok f ↔ parse t = .ok f) ∧
      (parse s = .error .notSymbolic ↔ parse t = .error .notSymbolic) ∧
      ∀ column cause, parse s = .error (.malformed column cause) →
        ∃ column', parse t = .error (.malformed column' cause) ∧
          (SamePlace left right column column' ∨
            (column = s.length + 1 ∧ column' = t.length + 1) ∨
            (left = [] ∧ right = [] ∧ column = 1 ∧ column' = 1)) := by
  simp only [parse, scanned, scanned']
  by_cases empty : left = []
  · subst empty
    obtain rfl : right = [] := List.map_eq_nil_iff.1 same.symm
    refine ⟨fun f => Iff.rfl, Iff.rfl, fun column cause refused => ?_⟩
    cases refused
    exact ⟨1, rfl, .inr (.inr ⟨rfl, rfl, rfl, rfl⟩)⟩
  have agree := Reading.agree_all (tokensAlike_of_kinds_eq same) empty
  generalize Reading.all left = result, Reading.all right = result' at agree
  cases agree with
  | ok =>
    refine ⟨fun f => Iff.rfl, Iff.rfl, fun column cause refused => ?_⟩
    dsimp only at refused
    split at refused <;> cases refused
  | error problems =>
    refine ⟨fun f => by simp, by simp, fun column cause refused => ?_⟩
    cases problems with
    | atToken columns =>
      cases refused
      exact ⟨_, rfl, .inl columns⟩
    | atEnd =>
      cases refused
      exact ⟨_, rfl, .inr (.inl ⟨rfl, rfl⟩)⟩

/-- However the literals are spelled, and wherever blanks stand, the third token is the one that
cannot follow in parentheses without a function. -/
theorem parse_congr_spellings :
    ∃ column, parse "( False , True" =
        .error (.malformed column (.expected .closing (some .comma))) ∧
      SamePlace [⟨.opening, 1⟩, ⟨.literal false, 2⟩, ⟨.comma, 3⟩, ⟨.literal true, 4⟩]
        [⟨.opening, 1⟩, ⟨.literal false, 3⟩, ⟨.comma, 9⟩, ⟨.literal true, 11⟩] 3 column := by
  have scanned : scan "(0,1" =
      .ok [⟨.opening, 1⟩, ⟨.literal false, 2⟩, ⟨.comma, 3⟩, ⟨.literal true, 4⟩] := by
    with_unfolding_all rfl
  have scanned' : scan "( False , True" =
      .ok [⟨.opening, 1⟩, ⟨.literal false, 3⟩, ⟨.comma, 9⟩, ⟨.literal true, 11⟩] := by
    with_unfolding_all rfl
  have refused : parse "(0,1" = .error (.malformed 3 (.expected .closing (some .comma))) := by
    with_unfolding_all rfl
  obtain ⟨column, refused', place⟩ := (parse_congr scanned scanned' rfl).2.2 3 _ refused
  refine ⟨column, refused', ?_⟩
  rcases place with same | ⟨ending, -⟩ | ⟨none, -⟩
  · exact same
  · exact absurd ending (by decide)
  · exact absurd none (by decide)

end Formula

end Propositional
