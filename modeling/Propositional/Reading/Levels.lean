import Propositional.Reading.Reader

/-!
# The levels of a formula

    equivalence := implication ( "==" implication )*
    implication := disjunction ( ">>" implication )?
    disjunction := exclusion ( "|" exclusion )*
    exclusion   := conjunction ( "^" conjunction )*
    conjunction := negation ( "&" negation )*
    negation    := "~" negation | primary
    primary     := literal | name | function "(" equivalence ( "," equivalence )* ")"
                 | "(" equivalence ")"

Each level is a reader over the level below it. The places where a level stands inside a
construct (parentheses, a call, a negation, the right side of `>>`) are read with the
readers of one construct further in, `Inside`; so the levels refer to themselves through
`within` only.
-/

namespace Propositional.Reading

open Step

/-- The readers of what stands inside a construct. -/
structure Inside where
  /-- Between parentheses, and between the commas of a call. -/
  formula : Reader
  /-- On the right side of `>>`. -/
  consequent : Reader
  /-- After `~`. -/
  negated : Reader

/-- Reads on from the opening parenthesis at `column`. -/
def group (formula : Reader) (column : Nat) : Step Node := do
  let node ← within column formula.read
  expect .closing
  return node

/-- Reads the arguments of the function whose name stands at `column`. -/
def call (formula : Reader) (operation : Operation) (column : Nat) : Step Node := do
  let nodes ← within column (arguments formula [])
  of (Node.apply operation column nodes)

/-- Reads on from a name at `column`: with a parenthesis after it, it is the name of a
function, and without one of a variable. -/
def named (formula : Reader) (name : Name) (column : Nat) : Step Node := fun c =>
  match c.rest, Operation.ofName? name.text with
  | ⟨.opening, _⟩ :: rest, some operation => call formula operation column { c with rest }
  | ⟨.opening, _⟩ :: _, none => .error (.atToken column (.unknownFunction name)) c
  | _, some _ => .error (.atToken column (.bareFunction name)) c
  | _, none => .ok (.leaf (.var name)) c

/-- Reads an operand that no connective can divide, except in parentheses. -/
def primary (formula : Reader) : Step Node := fun c =>
  match c.rest with
  | [] => .error (.atEnd .endOfText) c
  | ⟨token, column⟩ :: rest =>
    match token with
    | .literal value => .ok (.leaf (.const value)) { c with rest }
    | .word name => named formula name column { c with rest }
    | .opening => group formula column { c with rest }
    | _ => .error (.atToken column (.notAnOperand token)) { c with rest }

/-- Reads the rest of a negation whose `~` stands at `column`. -/
def negate (negated : Reader) (column : Nat) : Step Node := do
  let inner ← within column negated.read
  of (Node.negate column inner)

/-- Reads the right side of the `>>` at `column`. -/
def imply (consequent : Reader) (column : Nat) (left : Node) : Step Node := do
  let right ← within column consequent.read
  of (Node.join .implies column left right)

theorem group_length {formula : Reader} {column : Nat} {node : Node} {c c' : Cursor}
    (h : group formula column c = .ok node c') : c'.rest.length < c.rest.length := by
  obtain ⟨_, inner, found, h⟩ := bind_ok h
  obtain ⟨_, last, closed, h⟩ := bind_ok h
  obtain ⟨_, read, rfl⟩ := within_ok found
  obtain ⟨_, rest, present, rfl⟩ := expect_ok closed
  cases h
  have := formula.uses read
  simp_all
  omega

theorem call_length {formula : Reader} {operation : Operation} {column : Nat} {node : Node}
    {c c' : Cursor} (h : call formula operation column c = .ok node c') :
    c'.rest.length ≤ c.rest.length := by
  obtain ⟨_, inner, found, h⟩ := bind_ok h
  obtain ⟨_, read, rfl⟩ := within_ok found
  obtain ⟨-, rfl⟩ := of_ok h
  have used := arguments_length read
  exact used

theorem named_length {formula : Reader} {name : Name} {column : Nat} {node : Node}
    {c c' : Cursor} (h : named formula name column c = .ok node c') :
    c'.rest.length ≤ c.rest.length := by
  unfold named at h
  split at h
  · have := call_length h
    simp_all
    omega
  · cases h
  · cases h
  · cases h; exact Nat.le_refl _

theorem primary_length {formula : Reader} {node : Node} {c c' : Cursor}
    (h : primary formula c = .ok node c') : c'.rest.length < c.rest.length := by
  unfold primary at h
  split at h
  · cases h
  · rename_i token column rest present
    rw [present]
    split at h
    · cases h; simp
    · exact Nat.lt_succ_of_le (named_length h)
    · exact Nat.lt_succ_of_lt (group_length h)
    · cases h

theorem negate_length {negated : Reader} {column : Nat} {node : Node} {c c' : Cursor}
    (h : negate negated column c = .ok node c') : c'.rest.length < c.rest.length := by
  obtain ⟨_, inner, found, h⟩ := bind_ok h
  obtain ⟨_, read, rfl⟩ := within_ok found
  obtain ⟨-, rfl⟩ := of_ok h
  have used := negated.uses read
  exact used

theorem imply_length {consequent : Reader} {column : Nat} {left node : Node} {c c' : Cursor}
    (h : imply consequent column left c = .ok node c') : c'.rest.length < c.rest.length := by
  obtain ⟨_, inner, found, h⟩ := bind_ok h
  obtain ⟨_, read, rfl⟩ := within_ok found
  obtain ⟨-, rfl⟩ := of_ok h
  have used := consequent.uses read
  exact used

/-- Operands joined by the connective `op`, from the left. -/
def leftChain (op : Connective) (operand : Reader) : Reader where
  read c :=
    match operand.read c with
    | .ok first c' => chain op operand first c'
    | .error problem c' => .error problem c'
  uses {c _ _} h := by
    split at h
    · rename_i read
      exact Nat.lt_of_le_of_lt (chain_length h) (operand.uses read)
    · cases h

theorem leftChain_eq (op : Connective) (operand : Reader) :
    (leftChain op operand).read = operand.read >>= chain op operand := by
  funext c
  simp only [leftChain, Bind.bind, EStateM.bind]
  split <;> simp only [*]

/-- Negations of a primary. -/
def negation (inside : Inside) : Reader where
  read c :=
    match c.rest with
    | ⟨.not, column⟩ :: rest => negate inside.negated column { c with rest }
    | _ => primary inside.formula c
  uses {c _ _} h := by
    split at h
    · have := negate_length h
      simp_all
      omega
    · exact primary_length h

def conjunction (inside : Inside) : Reader := leftChain .and (negation inside)

def exclusion (inside : Inside) : Reader := leftChain .xor (conjunction inside)

def disjunction (inside : Inside) : Reader := leftChain .or (exclusion inside)

/-- A disjunction, and after `>>` all that it implies. -/
def implication (inside : Inside) : Reader where
  read c :=
    match (disjunction inside).read c with
    | .ok left c' =>
      match c'.rest with
      | ⟨.operator .implies, column⟩ :: rest =>
        imply inside.consequent column left { c' with rest }
      | _ => .ok left c'
    | .error problem c' => .error problem c'
  uses {c _ _} h := by
    split at h
    · rename_i left c' read
      have := (disjunction inside).uses read
      split at h
      · have := imply_length h
        simp_all
        omega
      · cases h; assumption
    · cases h

/-- A whole formula. -/
def equivalence (inside : Inside) : Reader := leftChain .equiv (implication inside)

/-- The reader at the end of the fuel. -/
def exhausted : Reader where
  read c := .error (.atEnd .tooDeep) c
  uses h := by cases h

/-- The readers of the inside of a construct, in which `fuel - 1` more can be opened. There
is no need for more fuel than constructs that may be open. -/
def insideOf : Nat → Inside
  | 0 => ⟨exhausted, exhausted, exhausted⟩
  | fuel + 1 =>
    let inside := insideOf fuel
    ⟨equivalence inside, implication inside, negation inside⟩

/-- The reader of formulas. -/
def formula : Reader := equivalence (insideOf depthLimit)

end Propositional.Reading
