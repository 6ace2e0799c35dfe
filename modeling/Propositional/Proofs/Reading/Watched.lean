import Propositional.Proofs.Reading.Routine

/-!
# The recursion of the routines is bounded

The routines call each other, and nothing in a routine says that this comes to an end. Here they
run under watch: with room for so many calls inside each other only, with a record of the routines
that still run and of the constructs that are open around them, and with a `Breach` wherever a run
would go wrong. A construct is counted where it is opened, apart from the count in the cursor that
goes up and down with it.

The order of the levels bounds the calls. A routine calls lower ones only, other than inside of a
construct, and there are never more than 256 constructs.

Results:
1. `follows_within`, `follows_chain`, `follows_arguments`: nothing goes wrong inside a construct,
   nor in the two loops.
2. `follows_body`: what one routine does, if nothing goes wrong in those that it calls.
3. `follows_run`: every routine, by induction on the room.
4. `read_balanced`: all runs, from any position of any tokens.
-/

namespace Propositional.Reading

open Step

/-- A routine calls only lower ones, other than inside of a construct. -/
def Routine.rank : Routine → Nat
  | .primary => 1
  | .negation => 2
  | .conjunction => 3
  | .exclusion => 4
  | .disjunction => 5
  | .implication => 6
  | .equivalence => 7
  | .formula => 8
  | .arguments => 9

theorem Routine.rank_pos (r : Routine) : 0 < r.rank := by cases r <;> decide

theorem Routine.rank_le (r : Routine) : r.rank ≤ 9 := by cases r <;> decide

/-- What would go wrong while a routine runs. -/
inductive Breach where
  /-- More calls inside each other than there is room for. -/
  | noRoom
  /-- A routine is called that still runs, and no construct was opened since its call. -/
  | cycle (r : Routine)
  /-- A loop that takes more turns than there are tokens. -/
  | endless
  /-- More than 256 constructs that are open at once. -/
  | crowded
  /-- A count of open constructs that is above 257. -/
  | overflow
  /-- A construct that is closed where the count is 0. -/
  | underflow
deriving DecidableEq, Repr

/-- The calls around a step. -/
structure Calls where
  /-- The routines that still run, of those called since the last construct was opened. -/
  running : List Routine
  /-- The number of constructs that are open around the step. -/
  around : Nat
deriving DecidableEq, Repr

/-- A step under watch. -/
def Watched (α : Type) : Type :=
  Calls → Cursor → Except Breach (EStateM.Result Problem Cursor α)

namespace Watched

instance : Monad Watched where
  pure value := fun _ c => .ok (.ok value c)
  bind first next := fun calls c =>
    match first calls c with
    | .ok (.ok value c') => next value calls c'
    | .ok (.error problem c') => .ok (.error problem c')
    | .error breach => .error breach

/-- A step that calls no routine and opens no construct. -/
def lift {α : Type} (step : Step α) : Watched α := fun _ c => .ok (step c)

/-- Closes a construct. -/
def leave (c : Cursor) : Except Breach Cursor :=
  if c.opened = 0 then .error .underflow else .ok { c with opened := c.opened - 1 }

/-- Runs a step inside one more construct, which starts at `column`. -/
def within {α : Type} (column : Nat) (step : Watched α) : Watched α := fun calls c => do
  let entered : Cursor := { c with opened := c.opened + 1 }
  if depthLimit + 1 < entered.opened then throw .overflow
  if depthLimit < entered.opened then return .error (.atToken column .tooDeep) entered
  if depthLimit < calls.around + 1 then throw .crowded
  match ← step ⟨[], calls.around + 1⟩ entered with
  | .ok value c' => return .ok value (← leave c')
  | .error problem c' => return .error problem (← leave c')

/-- Reads `op operand op operand …` after `left`, with so many turns left. -/
def chain (op : Connective) (operand : Watched Node) : Nat → Node → Watched Node
  | 0, _ => fun _ _ => .error .endless
  | turns + 1, left => fun calls c =>
    match c.rest with
    | ⟨.operator found, column⟩ :: rest =>
      if found = op then
        (do
          let right ← operand
          let node ← lift (of (left.join op column right))
          chain op operand turns node) calls { c with rest }
      else .ok (.ok left c)
    | _ => .ok (.ok left c)

/-- Operands joined by the connective `op`, from the left. -/
def leftChain (op : Connective) (operand : Watched Node) : Watched Node := do
  let first ← operand
  fun calls c => chain op operand (c.rest.length + 1) first calls c

/-- Reads the arguments of a call and the parenthesis that closes it, with so many turns left. -/
def arguments (formula : Watched Node) : Nat → List Node → Watched (List Node)
  | 0, _ => fun _ _ => .error .endless
  | turns + 1, before => do
    let node ← formula
    fun calls c =>
      match c.rest with
      | ⟨.comma, _⟩ :: rest => arguments formula turns (node :: before) calls { c with rest }
      | _ => lift (expect .closing >>= fun _ => pure (node :: before).reverse) calls c

section Body

/-! ## The routines under watch -/

variable (call : (r : Routine) → Watched r.Value)

/-- Reads on from the opening parenthesis at `column`. -/
def group (column : Nat) : Watched Node := do
  let node ← within column (call .formula)
  lift (expect .closing)
  return node

/-- Reads the arguments of the function whose name stands at `column`. -/
def apply (operation : Operation) (column : Nat) : Watched Node := do
  let nodes ← within column (call .arguments)
  lift (of (Node.apply operation column nodes))

/-- Reads on from a name at `column`. -/
def named (name : Name) (column : Nat) : Watched Node := fun calls c =>
  match c.rest, Operation.ofName? name.text with
  | ⟨.opening, _⟩ :: rest, some operation => apply call operation column calls { c with rest }
  | ⟨.opening, _⟩ :: _, none => .ok (.error (.atToken column (.unknownFunction name)) c)
  | _, some _ => .ok (.error (.atToken column (.bareFunction name)) c)
  | _, none => .ok (.ok (.leaf (.var name)) c)

/-- Reads an operand that no connective can divide, except in parentheses. -/
def primary : Watched Node := fun calls c =>
  match c.rest with
  | [] => .ok (.error (.atEnd .endOfText) c)
  | ⟨token, column⟩ :: rest =>
    match token with
    | .literal value => .ok (.ok (.leaf (.const value)) { c with rest })
    | .word name => named call name column calls { c with rest }
    | .opening => group call column calls { c with rest }
    | _ => .ok (.error (.atToken column (.notAnOperand token)) { c with rest })

/-- Reads the rest of a negation whose `~` stands at `column`. -/
def negate (column : Nat) : Watched Node := do
  let inner ← within column (call .negation)
  lift (of (Node.negate column inner))

/-- Negations of a primary. -/
def negation : Watched Node := fun calls c =>
  match c.rest with
  | ⟨.not, column⟩ :: rest => negate call column calls { c with rest }
  | _ => call .primary calls c

/-- Reads the right side of the `>>` at `column`. -/
def imply (column : Nat) (left : Node) : Watched Node := do
  let right ← within column (call .implication)
  lift (of (Node.join .implies column left right))

/-- A disjunction, and after `>>` all that it implies. -/
def implication : Watched Node := do
  let left ← call .disjunction
  fun calls c =>
    match c.rest with
    | ⟨.operator .implies, column⟩ :: rest => imply call column left calls { c with rest }
    | _ => .ok (.ok left c)

/-- What the routine does, over the routines that it calls. -/
def body : (r : Routine) → Watched r.Value
  | .formula => call .equivalence
  | .equivalence => leftChain .equiv (call .implication)
  | .implication => implication call
  | .disjunction => leftChain .or (call .exclusion)
  | .exclusion => leftChain .xor (call .conjunction)
  | .conjunction => leftChain .and (call .negation)
  | .negation => negation call
  | .primary => primary call
  | .arguments => fun calls c => arguments (call .formula) (c.rest.length + 1) [] calls c

end Body

/-- The routine, with room for so many calls inside each other. -/
def run : Nat → (r : Routine) → Watched r.Value
  | 0, _ => fun _ _ => .error .noRoom
  | room + 1, r => fun calls c =>
    if r ∈ calls.running then .error (.cycle r)
    else body (run room) r { calls with running := r :: calls.running } c

/-! ## Steps in a row -/

variable {α β : Type} {calls : Calls} {column : Nat}

/-- Where the calls are those around it, the step ends under watch as it does without, and nothing
goes wrong. -/
def Follows (calls : Calls) (watched : Watched α) (step : Step α) : Prop :=
  ∀ c, c.opened = calls.around → watched calls c = .ok (step c)

theorem bind_eq {first : Watched α} {next : α → Watched β} {first' : Step α}
    {next' : α → Step β} {c : Cursor} (h : first calls c = .ok (first' c))
    (h' : ∀ value c', first' c = .ok value c' → next value calls c' = .ok (next' value c')) :
    (first >>= next) calls c = .ok ((first' >>= next') c) := by
  simp only [Bind.bind, EStateM.bind, h]
  generalize first' c = result at h'
  cases result with
  | ok value c' => exact h' value c' rfl
  | error problem c' => rfl

theorem Follows.bind {good : α → Prop} {first : Watched α} {next : α → Watched β}
    {first' : Step α} {next' : α → Step β} (h : Follows calls first first')
    (keeps : Keeps good first') (h' : ∀ value, Follows calls (next value) (next' value)) :
    Follows calls (first >>= next) (first' >>= next') := by
  intro c same
  refine bind_eq (h c same) fun value c' found => h' value c' ?_
  have ends := keeps c
  rw [found] at ends
  exact ends.2.2.trans same

theorem follows_lift (step : Step α) : Follows calls (lift step) step := fun _ _ => rfl

/-- A construct is entered if there are less than 256 around it. Closing it is no underflow, since
a step inside it does not lower the count. -/
theorem follows_within {good : α → Prop} {watched : Watched α} {step : Step α}
    (bound : calls.around ≤ depthLimit) (keeps : Keeps good step)
    (h : calls.around < depthLimit → Follows ⟨[], calls.around + 1⟩ watched step) :
    Follows calls (within column watched) (Step.within column step) := by
  intro c same
  have noOverflow : ¬ depthLimit + 1 < c.opened + 1 := by
    rw [same]
    exact Nat.not_lt.2 (Nat.succ_le_succ bound)
  simp only [within, Step.within, if_neg noOverflow]
  by_cases room : c.opened < depthLimit
  · have entered : ¬ depthLimit < c.opened + 1 := Nat.not_lt.2 room
    have notCrowded : ¬ depthLimit < calls.around + 1 := same ▸ entered
    have ends := keeps ⟨c.rest, c.opened + 1⟩
    have inner := h (same ▸ room) ⟨c.rest, c.opened + 1⟩ (congrArg (· + 1) same)
    simp only [if_pos room, if_neg entered, if_neg notCrowded]
    rw [inner]
    generalize step ⟨c.rest, c.opened + 1⟩ = result at ends
    have leaves {c' : Cursor} (enough : c.opened + 1 ≤ c'.opened) :
        leave c' = .ok { c' with opened := c'.opened - 1 } :=
      if_neg (Nat.ne_of_gt (Nat.lt_of_lt_of_le (Nat.succ_pos _) enough))
    cases result with
    | ok value c' =>
      have enough : c.opened + 1 ≤ c'.opened := Nat.le_of_eq ends.2.2.symm
      simp only [bind, Except.bind, leaves enough]
      rfl
    | error problem c' =>
      simp only [bind, Except.bind, leaves ends.2.1]
      rfl
  · have refused : depthLimit < c.opened + 1 := Nat.lt_succ_of_le (Nat.not_lt.1 room)
    simp only [if_neg room, if_pos refused]
    rfl

/-! ## The loops -/

theorem follows_chain {op : Connective} {operand : Reader} {watched : Watched Node}
    (keeps : Keeps Node.Measured operand.read) (h : Follows calls watched operand.read)
    {turns : Nat} {left : Node} {c : Cursor} (enough : c.rest.length < turns)
    (same : c.opened = calls.around) :
    chain op watched turns left calls c = .ok (Reading.chain op operand left c) := by
  induction turns generalizing left c with
  | zero => cases enough
  | succ turns ih =>
    obtain ⟨_ | ⟨⟨token, column⟩, rest⟩, opened⟩ := c
    · rw [chain_end (by simp)]
      rfl
    by_cases next : token = .operator op
    · subst next
      rw [chain_cons]
      refine (if_pos rfl).trans (bind_eq (h _ same) fun right inner read => ?_)
      refine bind_eq rfl fun node after joined => ?_
      obtain ⟨-, rfl⟩ := of_ok joined
      have ends := keeps ⟨rest, opened⟩
      rw [read] at ends
      have shorter : after.rest.length < turns :=
        Nat.lt_trans (operand.uses read) (Nat.lt_of_succ_lt_succ enough)
      exact ih shorter (ends.2.2.trans same)
    · rw [chain_end (by simpa using next)]
      cases token with
      | operator found => exact if_neg fun same => next (congrArg Token.operator same)
      | _ => rfl

theorem follows_leftChain {op : Connective} {operand : Reader} {watched : Watched Node}
    (keeps : Keeps Node.Measured operand.read) (h : Follows calls watched operand.read) :
    Follows calls (leftChain op watched) (Reading.leftChain op operand).read := by
  rw [leftChain_eq]
  exact h.bind keeps fun left c same => follows_chain keeps h (Nat.lt_succ_self _) same

theorem follows_arguments {formula : Reader} {watched : Watched Node}
    (keeps : Keeps Node.Measured formula.read) (h : Follows calls watched formula.read)
    {turns : Nat} {before : List Node} {c : Cursor} (enough : c.rest.length < turns)
    (same : c.opened = calls.around) :
    arguments watched turns before calls c = .ok (Reading.arguments formula before c) := by
  induction turns generalizing before c with
  | zero => cases enough
  | succ turns ih =>
    have ends := keeps c
    have first := h c same
    generalize read : formula.read c = result at ends first
    simp only [arguments, Bind.bind, first]
    cases result with
    | error problem inner => rw [arguments_error read]
    | ok last inner =>
      obtain ⟨_ | ⟨⟨token, column⟩, rest⟩, opened⟩ := inner
      · rw [arguments_end read (by simp)]
        rfl
      by_cases next : token = .comma
      · subst next
        rw [arguments_comma read]
        have shorter : rest.length < turns := by
          have := formula.uses read
          simp_all
          omega
        exact ih shorter (ends.2.2.trans same)
      · rw [arguments_end read (by simpa using next)]
        cases token with
        | comma => exact absurd rfl next
        | _ => rfl

/-! ## The routines -/

/-- What may follow the disjunction of an implication is read as a step of its own. -/
theorem implication_eq (inside : Inside) :
    (Reading.implication inside).read = (Reading.disjunction inside).read >>= fun left c =>
      match c.rest with
      | ⟨.operator .implies, column⟩ :: rest =>
        Reading.imply inside.consequent column left { c with rest }
      | _ => .ok left c := by
  funext c
  simp only [Reading.implication, Bind.bind, EStateM.bind]
  cases (Reading.disjunction inside).read c <;> rfl

section Body

variable {call : (r : Routine) → Watched r.Value} {inside : Inside}

/-- Nothing goes wrong in the calls from inside a construct. -/
structure Deeper (call : (r : Routine) → Watched r.Value) (inside : Inside) (calls : Calls) :
    Prop where
  formula : Follows calls (call .formula) inside.formula.read
  arguments : Follows calls (call .arguments) (Reading.arguments inside.formula [])
  consequent : Follows calls (call .implication) inside.consequent.read
  negated : Follows calls (call .negation) inside.negated.read

variable (keeps : inside.Keeps) (bound : calls.around ≤ depthLimit)
  (deeper : calls.around < depthLimit → Deeper call inside ⟨[], calls.around + 1⟩)

include keeps bound deeper

theorem follows_group : Follows calls (group call column) (Reading.group inside.formula column) :=
  (follows_within bound keeps.formula fun room => (deeper room).formula).bind
    (keeps_within keeps.formula) fun _ => (follows_lift _).bind (keeps_expect _) fun _ _ _ => rfl

theorem follows_apply (operation : Operation) :
    Follows calls (apply call operation column) (Reading.call inside.formula operation column) := by
  have ends : Keeps _ (Reading.arguments inside.formula []) :=
    ends_arguments keeps.formula (List.forall_mem_nil _)
  exact (follows_within bound ends fun room => (deeper room).arguments).bind (keeps_within ends)
    fun _ => follows_lift _

theorem follows_named (name : Name) :
    Follows calls (named call name column) (Reading.named inside.formula name column) := by
  rintro ⟨rest, opened⟩ same
  unfold named Reading.named
  cases Operation.ofName? name.text with
  | none =>
    obtain _ | ⟨⟨token, _⟩, rest⟩ := rest
    · rfl
    cases token <;> rfl
  | some operation =>
    obtain _ | ⟨⟨token, _⟩, rest⟩ := rest
    · rfl
    cases token with
    | opening => exact follows_apply keeps bound deeper operation _ same
    | _ => rfl

theorem follows_primary : Follows calls (primary call) (Reading.primary inside.formula) := by
  rintro ⟨_ | ⟨⟨token, column⟩, rest⟩, opened⟩ same
  · rfl
  cases token with
  | word name => exact follows_named keeps bound deeper name _ same
  | opening => exact follows_group keeps bound deeper _ same
  | _ => rfl

theorem follows_negate :
    Follows calls (negate call column) (Reading.negate inside.negated column) :=
  (follows_within bound keeps.negated fun room => (deeper room).negated).bind
    (keeps_within keeps.negated) fun _ => follows_lift _

theorem follows_imply (left : Node) :
    Follows calls (imply call column left) (Reading.imply inside.consequent column left) :=
  (follows_within bound keeps.consequent fun room => (deeper room).consequent).bind
    (keeps_within keeps.consequent) fun _ => follows_lift _

theorem follows_negation
    (h : Follows calls (call .primary) (Reading.primary inside.formula)) :
    Follows calls (negation call) (Reading.negation inside).read := by
  rintro ⟨_ | ⟨⟨token, column⟩, rest⟩, opened⟩ same
  · exact h _ same
  cases token with
  | not => exact follows_negate keeps bound deeper _ same
  | _ => exact h _ same

theorem follows_implication
    (h : Follows calls (call .disjunction) (Reading.disjunction inside).read) :
    Follows calls (implication call) (Reading.implication inside).read := by
  rw [implication_eq]
  refine h.bind keeps.disjunction fun left => ?_
  rintro ⟨_ | ⟨⟨token, column⟩, rest⟩, opened⟩ same
  · rfl
  cases token with
  | operator op =>
    cases op with
    | implies => exact follows_imply keeps bound deeper left _ same
    | _ => rfl
  | _ => rfl

theorem follows_body {r : Routine}
    (lower : ∀ r' : Routine, r'.rank < r.rank → Follows calls (call r') (r'.read inside)) :
    Follows calls (body call r) (r.read inside) := by
  cases r with
  | formula => exact lower .equivalence (by decide)
  | equivalence =>
    exact follows_leftChain keeps.implication (lower .implication (by decide))
  | implication => exact follows_implication keeps bound deeper (lower .disjunction (by decide))
  | disjunction => exact follows_leftChain keeps.exclusion (lower .exclusion (by decide))
  | exclusion => exact follows_leftChain keeps.conjunction (lower .conjunction (by decide))
  | conjunction => exact follows_leftChain keeps.negation (lower .negation (by decide))
  | negation => exact follows_negation keeps bound deeper (lower .primary (by decide))
  | primary => exact follows_primary keeps bound deeper
  | arguments =>
    intro c same
    exact follows_arguments keeps.equivalence (lower .formula (by decide)) (Nat.lt_succ_self _) same

end Body

/-- Nothing goes wrong in a routine, if the room is enough for the constructs that can still be
opened, with all routines in each, and for the lower routines; and the fuel is never used up. -/
theorem follows_run {room fuel : Nat} {r : Routine} (bound : calls.around ≤ depthLimit)
    (fuelled : depthLimit ≤ calls.around + fuel)
    (roomy : 9 * (depthLimit - calls.around) + r.rank ≤ room)
    (fresh : ∀ r' ∈ calls.running, r.rank < r'.rank) :
    Follows calls (run room r) (r.read (insideOf fuel)) := by
  induction room generalizing fuel r calls with
  | zero => exact absurd (Nat.le_trans (Nat.le_add_left _ _) roomy) (Nat.not_le.2 r.rank_pos)
  | succ room ih =>
    have notRunning : r ∉ calls.running := fun mem => Nat.lt_irrefl _ (fresh r mem)
    have inside (entered : calls.around < depthLimit) :
        Deeper (run room) (insideOf fuel) ⟨[], calls.around + 1⟩ := by
      -- no routine runs inside of the construct yet, and one construct less can be opened there
      obtain ⟨fuel, rfl⟩ : ∃ less, fuel = less + 1 :=
        Nat.exists_eq_add_one.2 (by omega)
      have inner (r' : Routine) : Follows ⟨[], calls.around + 1⟩ (run room r')
          (r'.read (insideOf fuel)) := by
        have := r.rank_pos
        have := r'.rank_le
        refine ih entered ?_ ?_ (List.forall_mem_nil _)
        · dsimp only
          omega
        · dsimp only
          omega
      exact ⟨inner .formula, inner .arguments, inner .implication, inner .negation⟩
    have goes : Follows ⟨r :: calls.running, calls.around⟩ (body (run room) r)
        (r.read (insideOf fuel)) := by
      refine follows_body (keeps_insideOf fuel) ?_ ?_ fun r' lower => ?_
      · exact bound
      · exact inside
      refine ih bound fuelled ?_ (List.forall_mem_cons.2 ⟨lower, fun running mem => ?_⟩)
      · dsimp only
        omega
      · exact Nat.lt_trans lower (fresh running mem)
    intro c same
    exact (if_neg notRunning).trans (goes c same)

end Watched

open Watched

/-- The tokens that are left are those from a later position on. -/
theorem exists_position {tokens rest : List Placed} {position : Nat}
    (h : rest <:+ tokens.drop position) :
    ∃ taken, rest = tokens.drop (position + taken) ∧
      taken + rest.length = tokens.length - position := by
  obtain ⟨used, parts⟩ := h
  refine ⟨used.length, ?_, ?_⟩
  · rw [← List.drop_drop, ← parts, List.drop_left]
  · rw [← List.length_drop, ← parts, List.length_append]

/-- Every routine ends, whatever the tokens and wherever it starts: there are no more than nine
calls inside each other outside of the constructs, and nine in each that can be opened. No routine
calls itself, or is called by those that it calls, other than inside of a construct that was opened
in between; no more than 256 constructs are open at once, the count stays within 257, and a
construct is closed only where one is open. A routine that returns a value has taken a token and
left the count as it was. After a problem the count is the same, or one more where a construct was
not entered. -/
theorem Routine.read_balanced (tokens : List Placed) (position depth fuel room : Nat)
    (r : Routine) (shallow : depth ≤ 256) (fuelled : 256 ≤ depth + fuel)
    (roomy : 9 * (257 - depth) ≤ room) :
    run room r ⟨[], depth⟩ ⟨tokens.drop position, depth⟩ =
        .ok (r.read (insideOf fuel) ⟨tokens.drop position, depth⟩) ∧
      match r.read (insideOf fuel) ⟨tokens.drop position, depth⟩ with
      | .ok _ c => ∃ position', position < position' ∧ position' ≤ tokens.length ∧
          c = ⟨tokens.drop position', depth⟩
      | .error _ c => ∃ position', position ≤ position' ∧
          c.rest = tokens.drop position' ∧ depth ≤ c.opened ∧ c.opened ≤ depth + 1 := by
  have follows : Follows ⟨[], depth⟩ (run room r) (r.read (insideOf fuel)) := by
    have := r.rank_le
    refine follows_run shallow fuelled ?_ (List.forall_mem_nil _)
    simp only [depthLimit]
    omega
  refine ⟨follows _ rfl, ?_⟩
  have ends := r.keeps_read (keeps_insideOf fuel) ⟨tokens.drop position, depth⟩
  cases read : r.read (insideOf fuel) ⟨tokens.drop position, depth⟩ with
  | ok value c =>
    rw [read] at ends
    obtain ⟨-, later, same⟩ := ends
    obtain ⟨taken, rest, total⟩ := exists_position later
    have used := r.uses_read read
    rw [List.length_drop] at used
    exact ⟨position + taken, by omega, by omega, congr (congrArg Cursor.mk rest) same⟩
  | error problem c =>
    rw [read] at ends
    obtain ⟨later, enough, few⟩ := ends
    obtain ⟨taken, rest, -⟩ := exists_position later
    exact ⟨position + taken, Nat.le_add_right _ _, rest, enough, few⟩

/-- Inside of 255 constructs, one negation is read and the second is not entered. The count that
this leaves raised is still lowered once, for the first. -/
theorem Routine.read_balanced_negations :
    let tokens : List Placed := [⟨.not, 1⟩, ⟨.not, 2⟩, ⟨.literal true, 3⟩]
    run 18 .negation ⟨[], 255⟩ ⟨tokens.drop 1, 255⟩ =
        .ok (.ok ⟨.not (.const true), 1⟩ ⟨[], 255⟩) ∧
      run 18 .negation ⟨[], 255⟩ ⟨tokens.drop 0, 255⟩ =
        .ok (.error (.atToken 2 .tooDeep) ⟨[⟨.literal true, 3⟩], 256⟩) := by
  intro tokens
  constructor
  · exact (read_balanced tokens 1 255 1 18 .negation (by decide) (by decide) (by decide)).1.trans
      rfl
  · exact (read_balanced tokens 0 255 1 18 .negation (by decide) (by decide) (by decide)).1.trans
      rfl

end Propositional.Reading
