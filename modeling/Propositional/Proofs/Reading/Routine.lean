import Propositional.Proofs.Reading.Soundness

/-!
# What a routine leaves behind

The readers of the levels, and the loop over the arguments of a call, are the routines that call
each other while a formula is read. However a routine ends, it stops further on in the tokens; with
a value as many constructs are open as before, and with a problem at most one more. Every tree
that it returns has the height that is kept with it, and is within the limit.

Results:
1. `ends_bind`, `ends_within`: steps in a row, and a step inside a construct.
2. `ends_chain`, `ends_arguments`: the two loops, by induction on the tokens that are left.
3. `keeps_insideOf`: every level, by induction on the fuel.
4. `Routine.keeps_read`, `Routine.uses_read`: every routine.
-/

namespace Propositional.Reading

open Step

/-! ## How steps end -/

/-- The step from `c` ends at one of the tokens from there on. With a value, a good one, as many
constructs are open as before. With a problem there may be one more: one that was not entered. -/
def Ends {α : Type} (good : α → Prop) (c : Cursor) : EStateM.Result Problem Cursor α → Prop
  | .ok value c' => good value ∧ c'.rest <:+ c.rest ∧ c'.opened = c.opened
  | .error _ c' => c'.rest <:+ c.rest ∧ c.opened ≤ c'.opened ∧ c'.opened ≤ c.opened + 1

/-- Every run of the step ends so. -/
def Keeps {α : Type} (good : α → Prop) (step : Step α) : Prop := ∀ c, Ends good c (step c)

variable {α β : Type} {good : α → Prop} {good' : β → Prop} {c : Cursor}

/-- The token in front of the step is taken as well. -/
theorem Ends.next {t : Placed} {rest : List Placed} (present : c.rest = t :: rest)
    {result : EStateM.Result Problem Cursor α} (h : Ends good ⟨rest, c.opened⟩ result) :
    Ends good c result := by
  have behind : rest <:+ c.rest := present ▸ List.suffix_cons t rest
  cases result with
  | ok value c' => exact ⟨h.1, h.2.1.trans behind, h.2.2⟩
  | error problem c' => exact ⟨h.1.trans behind, h.2⟩

/-- The step after a step that has ended with a value. -/
theorem Ends.after {value : α} {c' : Cursor} (h : Ends good c (.ok value c'))
    {result : EStateM.Result Problem Cursor β} (h' : Ends good' c' result) :
    Ends good' c result := by
  obtain ⟨-, later, same⟩ := h
  cases result with
  | ok value' c'' =>
    obtain ⟨fine, later', same'⟩ := h'
    exact ⟨fine, later'.trans later, same'.trans same⟩
  | error problem c'' =>
    obtain ⟨later', enough, few⟩ := h'
    exact ⟨later'.trans later, same ▸ enough, same ▸ few⟩

theorem ends_bind {first : Step α} {next : α → Step β} (h : Ends good c (first c))
    (h' : ∀ value c', first c = .ok value c' → good value → Ends good' c' (next value c')) :
    Ends good' c ((first >>= next) c) := by
  simp only [Bind.bind, EStateM.bind]
  generalize first c = result at h h'
  cases result with
  | ok value c' => exact h.after (h' value c' rfl h.1)
  | error problem c' => exact h

theorem ends_stay {value : α} (fine : good value) : Ends good c (.ok value c) :=
  ⟨fine, List.suffix_refl _, rfl⟩

theorem ends_fail {problem : Problem} : Ends good c (.error problem c) :=
  ⟨List.suffix_refl _, Nat.le_refl _, Nat.le_succ _⟩

theorem keeps_of {result : Except Problem α} (fine : ∀ value, result = .ok value → good value) :
    Keeps good (of result) := by
  intro c
  cases result with
  | ok value => exact ends_stay (fine value rfl)
  | error problem => exact ends_fail

theorem keeps_expect (wanted : Token) : Keeps (fun _ => True) (expect wanted) := by
  intro c
  unfold expect
  split
  · rename_i found column rest present
    refine .next present ?_
    split
    · exact ends_stay trivial
    · exact ends_fail
  · exact ends_fail

/-- A construct that is entered is closed again, also after a problem inside it. -/
theorem keeps_within {column : Nat} {step : Step α} (h : Keeps good step) :
    Keeps good (within column step) := by
  intro c
  have ends := h ⟨c.rest, c.opened + 1⟩
  unfold within
  split
  · generalize step ⟨c.rest, c.opened + 1⟩ = result at ends
    cases result with
    | ok value c' =>
      obtain ⟨fine, later, same⟩ := ends
      exact ⟨fine, later, Nat.sub_eq_of_eq_add same⟩
    | error problem c' =>
      obtain ⟨later, enough, few⟩ := ends
      exact ⟨later, Nat.le_sub_of_add_le enough, Nat.sub_le_of_le_add few⟩
  · exact ⟨List.suffix_refl _, Nat.le_succ _, Nat.le_refl _⟩

/-! ## The loops -/

theorem ends_chain {op : Connective} {operand : Reader} (keeps : Keeps Node.Measured operand.read)
    {left : Node} (measured : left.Measured) (c : Cursor) :
    Ends Node.Measured c (chain op operand left c) := by
  induction length : c.rest.length using Nat.strongRecOn generalizing left c with
  | ind size ih =>
    obtain ⟨_ | ⟨⟨token, column⟩, rest⟩, opened⟩ := c
    · rw [chain_end (by simp)]
      exact ends_stay measured
    by_cases next : token = .operator op
    · subst next
      rw [chain_cons]
      refine .next rfl (ends_bind (keeps _) fun right inner read measured' => ?_)
      refine ends_bind (keeps_of (fun node joined => (Node.join_ok measured measured' joined).2) _)
        fun node after joined measured => ?_
      obtain ⟨-, rfl⟩ := of_ok joined
      have shorter : after.rest.length < size := by
        have := operand.uses read
        simp_all
        omega
      exact ih _ shorter measured after rfl
    · rw [chain_end (by simpa using next)]
      exact ends_stay measured

theorem ends_arguments {formula : Reader} (keeps : Keeps Node.Measured formula.read)
    {before : List Node} (measured : ∀ node ∈ before, node.Measured) (c : Cursor) :
    Ends (fun nodes => ∀ node ∈ nodes, node.Measured) c (arguments formula before c) := by
  induction length : c.rest.length using Nat.strongRecOn generalizing before c with
  | ind size ih =>
    have ends := keeps c
    generalize read : formula.read c = result at ends
    cases result with
    | error problem inner =>
      rw [arguments_error read]
      exact ends
    | ok last inner =>
      have all : ∀ node ∈ last :: before, node.Measured :=
        List.forall_mem_cons.2 ⟨ends.1, measured⟩
      have closes : Ends (fun nodes => ∀ node ∈ nodes, node.Measured) inner
          ((expect .closing >>= fun _ => pure (last :: before).reverse) inner) :=
        ends_bind (keeps_expect .closing inner) fun _ _ _ _ =>
          ends_stay fun node mem => all node (List.mem_reverse.1 mem)
      obtain ⟨_ | ⟨⟨token, column⟩, rest⟩, opened⟩ := inner
      · rw [arguments_end read (by simp)]
        exact ends.after closes
      by_cases next : token = .comma
      · subst next
        rw [arguments_comma read]
        have shorter : rest.length < size := by
          have := formula.uses read
          simp_all
          omega
        exact ends.after (.next rfl (ih _ shorter all _ rfl))
      · rw [arguments_end read (by simpa using next)]
        exact ends.after closes

theorem arguments_uses {formula : Reader} {before nodes : List Node} {c c' : Cursor}
    (h : arguments formula before c = .ok nodes c') : c'.rest.length < c.rest.length := by
  cases read : formula.read c with
  | error problem inner =>
    rw [arguments_error read] at h
    cases h
  | ok node inner =>
    have used := formula.uses read
    obtain ⟨_ | ⟨⟨token, column⟩, rest⟩, opened⟩ := inner
    · rw [arguments_end read (by simp)] at h
      cases h
    by_cases next : token = .comma
    · subst next
      rw [arguments_comma read] at h
      exact Nat.lt_of_le_of_lt (arguments_length h) (Nat.lt_of_succ_lt used)
    · rw [arguments_end read (by simpa using next)] at h
      obtain ⟨_, after, closed, h⟩ := bind_ok h
      obtain ⟨_, _, present, rfl⟩ := expect_ok closed
      cases h
      cases present
      exact Nat.lt_of_succ_lt used

/-! ## The levels -/

section Levels

variable {formula : Reader} (keeps : Keeps Node.Measured formula.read)

include keeps

theorem keeps_group (column : Nat) : Keeps Node.Measured (group formula column) := fun c =>
  ends_bind (keeps_within keeps c) fun _ c' _ measured =>
    ends_bind (keeps_expect .closing c') fun _ _ _ _ => ends_stay measured

theorem keeps_call (operation : Operation) (column : Nat) :
    Keeps Node.Measured (call formula operation column) := fun c =>
  ends_bind (keeps_within (ends_arguments keeps (List.forall_mem_nil _)) c) fun _ c' _ all =>
    keeps_of (fun _ applied => (Node.apply_ok all applied).2) c'

theorem keeps_named (name : Name) (column : Nat) :
    Keeps Node.Measured (named formula name column) := by
  intro c
  unfold named
  split
  · rename_i present _
    exact .next present (keeps_call keeps _ column _)
  · exact ends_fail
  · exact ends_fail
  · exact ends_stay (Node.measured_leaf rfl)

theorem keeps_primary : Keeps Node.Measured (primary formula) := by
  intro c
  unfold primary
  split
  · exact ends_fail
  · rename_i token column rest present
    refine .next present ?_
    split
    · exact ends_stay (Node.measured_leaf rfl)
    · exact keeps_named keeps _ column _
    · exact keeps_group keeps column _
    · exact ends_fail

end Levels

theorem keeps_negate {negated : Reader} (keeps : Keeps Node.Measured negated.read) (column : Nat) :
    Keeps Node.Measured (negate negated column) := fun c =>
  ends_bind (keeps_within keeps c) fun _ c' _ measured =>
    keeps_of (fun _ negated => (Node.negate_ok measured negated).2) c'

theorem keeps_imply {consequent : Reader} (keeps : Keeps Node.Measured consequent.read)
    (column : Nat) {left : Node} (measured : left.Measured) :
    Keeps Node.Measured (imply consequent column left) := fun c =>
  ends_bind (keeps_within keeps c) fun _ c' _ measured' =>
    keeps_of (fun _ joined => (Node.join_ok measured measured' joined).2) c'

theorem keeps_leftChain (op : Connective) {operand : Reader}
    (keeps : Keeps Node.Measured operand.read) :
    Keeps Node.Measured (leftChain op operand).read := by
  rw [leftChain_eq]
  exact fun c => ends_bind (keeps c) fun _ c' _ measured => ends_chain keeps measured c'

/-- The readers of the inside of a construct end as they should. -/
structure Inside.Keeps (inside : Inside) : Prop where
  formula : Reading.Keeps Node.Measured inside.formula.read
  consequent : Reading.Keeps Node.Measured inside.consequent.read
  negated : Reading.Keeps Node.Measured inside.negated.read

namespace Inside.Keeps

variable {inside : Inside}

theorem negation (keeps : inside.Keeps) : Reading.Keeps Node.Measured (negation inside).read := by
  intro c
  simp only [Reading.negation]
  split
  · rename_i present
    exact .next present (keeps_negate keeps.negated _ _)
  · exact keeps_primary keeps.formula c

theorem conjunction (keeps : inside.Keeps) :
    Reading.Keeps Node.Measured (conjunction inside).read :=
  keeps_leftChain .and keeps.negation

theorem exclusion (keeps : inside.Keeps) : Reading.Keeps Node.Measured (exclusion inside).read :=
  keeps_leftChain .xor keeps.conjunction

theorem disjunction (keeps : inside.Keeps) :
    Reading.Keeps Node.Measured (disjunction inside).read :=
  keeps_leftChain .or keeps.exclusion

theorem implication (keeps : inside.Keeps) :
    Reading.Keeps Node.Measured (implication inside).read := by
  intro c
  have ends := keeps.disjunction c
  simp only [Reading.implication]
  generalize (Reading.disjunction inside).read c = result at ends
  cases result with
  | error problem c' => exact ends
  | ok left c' =>
    refine ends.after ?_
    dsimp only
    split
    · rename_i present
      exact .next present (keeps_imply keeps.consequent _ ends.1 _)
    · exact ends_stay ends.1

theorem equivalence (keeps : inside.Keeps) :
    Reading.Keeps Node.Measured (equivalence inside).read :=
  keeps_leftChain .equiv keeps.implication

end Inside.Keeps

/-- Every level ends as it should, with any fuel. -/
theorem keeps_insideOf (fuel : Nat) : (insideOf fuel).Keeps := by
  induction fuel with
  | zero => exact ⟨fun _ => ends_fail, fun _ => ends_fail, fun _ => ends_fail⟩
  | succ fuel ih => exact ⟨ih.equivalence, ih.implication, ih.negation⟩

/-! ## The routines -/

/-- The routines that call each other while a formula is read. -/
inductive Routine where
  | formula | equivalence | implication | disjunction | exclusion | conjunction | negation | primary
  /-- The arguments of a call, and the parenthesis that closes it. -/
  | arguments
deriving DecidableEq, Repr

namespace Routine

/-- What the routine returns: the arguments of a call, or one tree. -/
@[reducible]
def Value : Routine → Type
  | .arguments => List Node
  | _ => Node

/-- The trees that the routine returns. -/
def nodes : (r : Routine) → r.Value → List Node
  | .arguments, nodes => nodes
  | .formula, node | .equivalence, node | .implication, node | .disjunction, node
  | .exclusion, node | .conjunction, node | .negation, node | .primary, node => [node]

/-- The routine with these readers for what stands inside a construct. -/
def read (inside : Inside) : (r : Routine) → Step r.Value
  | .formula => (Reading.equivalence inside).read
  | .equivalence => (Reading.equivalence inside).read
  | .implication => (Reading.implication inside).read
  | .disjunction => (Reading.disjunction inside).read
  | .exclusion => (Reading.exclusion inside).read
  | .conjunction => (Reading.conjunction inside).read
  | .negation => (Reading.negation inside).read
  | .primary => Reading.primary inside.formula
  | .arguments => Reading.arguments (Reading.equivalence inside) []

theorem keeps_read {inside : Inside} (keeps : inside.Keeps) (r : Routine) :
    Keeps (fun value => ∀ node ∈ r.nodes value, node.Measured) (r.read inside) := by
  have one {step : Step Node} (h : Keeps Node.Measured step) :
      Keeps (fun value => ∀ node ∈ [value], node.Measured) step := by
    simpa only [List.forall_mem_singleton] using h
  cases r with
  | formula => exact one keeps.equivalence
  | equivalence => exact one keeps.equivalence
  | implication => exact one keeps.implication
  | disjunction => exact one keeps.disjunction
  | exclusion => exact one keeps.exclusion
  | conjunction => exact one keeps.conjunction
  | negation => exact one keeps.negation
  | primary => exact one (keeps_primary keeps.formula)
  | arguments => exact ends_arguments keeps.equivalence (List.forall_mem_nil _)

/-- A routine that returns a value has taken a token. -/
theorem uses_read {inside : Inside} {r : Routine} {c c' : Cursor} {value : r.Value}
    (h : r.read inside c = .ok value c') : c'.rest.length < c.rest.length := by
  cases r with
  | formula => exact (Reading.equivalence inside).uses h
  | equivalence => exact (Reading.equivalence inside).uses h
  | implication => exact (Reading.implication inside).uses h
  | disjunction => exact (Reading.disjunction inside).uses h
  | exclusion => exact (Reading.exclusion inside).uses h
  | conjunction => exact (Reading.conjunction inside).uses h
  | negation => exact (Reading.negation inside).uses h
  | primary => exact primary_length h
  | arguments => exact arguments_uses h

end Routine

end Propositional.Reading
