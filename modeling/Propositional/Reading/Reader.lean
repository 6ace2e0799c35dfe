import Propositional.Reading.Node

/-!
# Reading steps

A reading step takes tokens from the front of a cursor and ends with a value or with a
problem, and with the cursor at which it stopped in either case. The cursor also counts
the constructs that are open; `within` opens one around a step and closes it again.

A `Reader` is a step that never succeeds without using up a token. That is what makes
the loops over its results, `chain` and `arguments`, end.
-/

namespace Propositional.Reading

/-- The tokens that are left, and the number of constructs that are open. -/
structure Cursor where
  rest : List Placed
  opened : Nat
deriving DecidableEq, Repr

/-- A step that ends with a value or a problem, and with a cursor. -/
abbrev Step := EStateM Problem Cursor

/-- A step that reads a subformula from one or more tokens. -/
structure Reader where
  read : Step Node
  uses : ∀ {c node c'}, read c = .ok node c' → c'.rest.length < c.rest.length

namespace Step

/-- A value or a problem that takes no token. -/
def of {α : Type} (result : Except Problem α) : Step α := fun c =>
  match result with
  | .ok value => .ok value c
  | .error problem => .error problem c

/-- Takes the token that has to follow. -/
def expect (wanted : Token) : Step Unit := fun c =>
  match c.rest with
  | ⟨found, column⟩ :: rest =>
    if found = wanted then .ok () { c with rest }
    else .error (.atToken column (.expected wanted (some found))) { c with rest }
  | [] => .error (.atEnd (.expected wanted none)) c

/-- Runs a step inside one more construct, which starts at `column`. The construct is
closed after the step whether it succeeds or not; above the limit it is not entered. -/
def within {α : Type} (column : Nat) (step : Step α) : Step α := fun c =>
  if c.opened < depthLimit then
    match step { c with opened := c.opened + 1 } with
    | .ok value c' => .ok value { c' with opened := c'.opened - 1 }
    | .error problem c' => .error problem { c' with opened := c'.opened - 1 }
  else .error (.atToken column .tooDeep) { c with opened := c.opened + 1 }

theorem within_ok {α : Type} {column : Nat} {step : Step α} {c c' : Cursor} {value : α}
    (h : within column step c = .ok value c') :
    ∃ inner, step { c with opened := c.opened + 1 } = .ok value inner ∧
      c' = { inner with opened := inner.opened - 1 } := by
  unfold within at h
  split at h
  · split at h
    · rename_i _ inner found
      cases h
      exact ⟨inner, found, rfl⟩
    · cases h
  · cases h

theorem expect_ok {wanted : Token} {c c' : Cursor} (h : expect wanted c = .ok () c') :
    ∃ column rest, c.rest = ⟨wanted, column⟩ :: rest ∧ c' = { c with rest } := by
  unfold expect at h
  split at h
  · rename_i found column rest present
    split at h
    · rename_i same
      cases h
      exact ⟨column, rest, same ▸ present, rfl⟩
    · cases h
  · cases h

theorem of_ok {α : Type} {result : Except Problem α} {c c' : Cursor} {value : α}
    (h : of result c = .ok value c') : result = .ok value ∧ c' = c := by
  unfold of at h
  split at h <;> cases h
  exact ⟨rfl, rfl⟩

theorem bind_ok {α β : Type} {first : Step α} {next : α → Step β} {c c' : Cursor} {value : β}
    (h : (first >>= next) c = .ok value c') :
    ∃ middle inner, first c = .ok middle inner ∧ next middle inner = .ok value c' := by
  simp only [bind, EStateM.bind] at h
  split at h
  · rename_i middle inner found
    exact ⟨middle, inner, found, h⟩
  · cases h

end Step

open Step

/-- Reads `op operand op operand …` after `left`. The operands are joined from the left. -/
def chain (op : Connective) (operand : Reader) (left : Node) (c : Cursor) :
    EStateM.Result Problem Cursor Node :=
  match _ : c.rest with
  | ⟨.operator found, column⟩ :: rest =>
    if found = op then
      match _ : operand.read { c with rest } with
      | .ok right c' =>
        match left.join op column right with
        | .ok node => chain op operand node c'
        | .error problem => .error problem c'
      | .error problem c' => .error problem c'
    else .ok left c
  | _ => .ok left c
termination_by c.rest.length
decreasing_by
  have := operand.uses ‹_›
  simp_all
  omega

/-- Reads the arguments of a call and the parenthesis that closes it, after those read
before, last first. -/
def arguments (formula : Reader) (before : List Node) (c : Cursor) :
    EStateM.Result Problem Cursor (List Node) :=
  match _ : formula.read c with
  | .ok node c' =>
    match _ : c'.rest with
    | ⟨.comma, _⟩ :: rest => arguments formula (node :: before) { c' with rest }
    | _ =>
      match expect .closing c' with
      | .ok _ c'' => .ok (node :: before).reverse c''
      | .error problem c'' => .error problem c''
  | .error problem c' => .error problem c'
termination_by c.rest.length
decreasing_by
  have := formula.uses ‹_›
  simp_all
  omega

/-- The connective of the chain is followed by one more operand. -/
theorem chain_cons (op : Connective) (operand : Reader) (left : Node) (column opened : Nat)
    (rest : List Placed) :
    chain op operand left ⟨⟨.operator op, column⟩ :: rest, opened⟩ =
      (operand.read >>= fun right => of (left.join op column right) >>= chain op operand)
        ⟨rest, opened⟩ := by
  rw [chain]
  simp only [if_true, Bind.bind, EStateM.bind, of]
  split
  · simp only [*]
    split <;> simp only [*]
  · simp only [*]

/-- A chain ends in front of everything but its connective. -/
theorem chain_end {op : Connective} {operand : Reader} {left : Node} {c : Cursor}
    (other : ∀ column rest, c.rest ≠ ⟨.operator op, column⟩ :: rest) :
    chain op operand left c = .ok left c := by
  rw [chain]
  split
  · rename_i found column rest present
    rw [if_neg]
    rintro rfl
    exact other column rest present
  · rfl

/-- After an argument and a comma there is one more argument. -/
theorem arguments_comma {formula : Reader} {before : List Node} {node : Node} {c : Cursor}
    {column opened : Nat} {rest : List Placed}
    (read : formula.read c = .ok node ⟨⟨.comma, column⟩ :: rest, opened⟩) :
    arguments formula before c = arguments formula (node :: before) ⟨rest, opened⟩ := by
  rw [arguments]
  split
  · rename_i read'
    cases read.symm.trans read'
    rfl
  · rename_i failed
    cases read.symm.trans failed

/-- After an argument without a comma, the closing parenthesis has to follow. -/
theorem arguments_end {formula : Reader} {before : List Node} {node : Node} {c c' : Cursor}
    (read : formula.read c = .ok node c')
    (last : ∀ column rest, c'.rest ≠ ⟨.comma, column⟩ :: rest) :
    arguments formula before c =
      (expect .closing >>= fun _ => pure (node :: before).reverse) c' := by
  rw [arguments]
  split
  · rename_i read'
    cases read.symm.trans read'
    split
    · rename_i column rest present
      exact absurd present (last column rest)
    · simp only [Bind.bind, EStateM.bind]
      split
      · simp only [*]
        rfl
      · simp only [*]
  · rename_i failed
    cases read.symm.trans failed

theorem arguments_error {formula : Reader} {before : List Node} {problem : Problem}
    {c c' : Cursor} (failed : formula.read c = .error problem c') :
    arguments formula before c = .error problem c' := by
  rw [arguments]
  split
  · rename_i read
    cases failed.symm.trans read
  · rename_i failed'
    cases failed.symm.trans failed'
    rfl

theorem chain_length {op : Connective} {operand : Reader} {left node : Node} {c c' : Cursor}
    (h : chain op operand left c = .ok node c') : c'.rest.length ≤ c.rest.length := by
  fun_induction chain op operand left c with
  | case1 left c column rest right inner found node' joined next ih =>
    have := operand.uses found
    have := ih h
    simp_all
    omega
  | case2 | case3 => cases h
  | case4 | case5 => cases h; exact Nat.le_refl _

theorem arguments_length {formula : Reader} {before nodes : List Node} {c c' : Cursor}
    (h : arguments formula before c = .ok nodes c') : c'.rest.length ≤ c.rest.length := by
  fun_induction arguments formula before c with
  | case1 before c node inner found column rest next ih =>
    have := formula.uses found
    have := ih h
    simp_all
    omega
  | case2 before c node inner found value last closed =>
    have := formula.uses found
    obtain ⟨column, rest, present, rfl⟩ := expect_ok closed
    cases h
    simp_all
    omega
  | case3 | case4 => cases h

end Propositional.Reading
