import Propositional.Reading.Node

/-!
# The grammar of formulas

    equivalence := implication ( "==" implication )*
    implication := disjunction ( ">>" implication )?
    disjunction := exclusion ( "|" exclusion )*
    exclusion   := conjunction ( "^" conjunction )*
    conjunction := negation ( "&" negation )*
    negation    := "~" negation | primary
    primary     := literal | name | function "(" equivalence ( "," equivalence )* ")"
                 | "(" equivalence ")"

`Derives level depth tokens f` says that the tokens have a derivation from the level, with
the tree `f`. The `depth` of a derivation is the largest number of constructs around one of
its tokens, where parentheses, calls, operands of `~` and right sides of `>>` count.

Results:
1. `Operation.applied_some`: a call has the tree of a negation, or of a chain of at least two
   operands joined from the left.
2. `Derives.free`: no variable of the tree has the name of a function.
-/

namespace Propositional

/-- The height of the tree; a tree of one node has height 0. -/
def Formula.height : Formula → Nat
  | .const _ | .var _ => 0
  | .not a => a.height + 1
  | .binary _ a b => max a.height b.height + 1

/-- The levels of the grammar, from the one that binds most strongly. -/
inductive Level where
  | primary
  | negation
  /-- Operands joined by the connective. A whole formula is joined by `==`. -/
  | joined (op : Connective)
deriving DecidableEq, Repr

namespace Level

/-- The level of the operands of a connective. -/
def operand : Connective → Level
  | .and => .negation
  | .xor => .joined .and
  | .or => .joined .xor
  | .implies => .joined .or
  | .equiv => .joined .implies

/-- Whether the token, next after a phrase of the level, can make a longer phrase of it. -/
def continuedBy : Level → Token → Bool
  | _, .opening => true
  | .joined op, .operator found => op.strength ≤ found.strength
  | _, _ => false

end Level

/-- The tree of a call: one argument for `Not`, two for every connective, and more than two,
joined from the left, for `And`, `Or` and `Xor`. -/
def Operation.applied : Operation → List Formula → Option Formula
  | .not, [a] => some (.not a)
  | .binary op, [a, b] => some (.binary op a b)
  | .binary .and, a :: b :: rest => some ((b :: rest).foldl (.binary .and) a)
  | .binary .or, a :: b :: rest => some ((b :: rest).foldl (.binary .or) a)
  | .binary .xor, a :: b :: rest => some ((b :: rest).foldl (.binary .xor) a)
  | _, _ => none

mutual

/-- `Derives level depth tokens f`: the tokens are a phrase of the level with the tree `f`. -/
inductive Derives : Level → Nat → List Token → Formula → Prop
  | literal {value : Bool} : Derives .primary 0 [.literal value] (.const value)
  | var {name : Name} (free : Operation.ofName? name.text = none) :
      Derives .primary 0 [.word name] (.var name)
  | group {d : Nat} {ts : List Token} {f : Formula} (inner : Derives (.joined .equiv) d ts f) :
      Derives .primary (d + 1) (.opening :: ts ++ [.closing]) f
  | call {name : Name} {operation : Operation} {d : Nat} {ts : List Token} {fs : List Formula}
      {f : Formula} (named : Operation.ofName? name.text = some operation)
      (inner : Arguments d ts fs) (applied : operation.applied fs = some f) :
      Derives .primary (d + 1) (.word name :: .opening :: ts ++ [.closing]) f
  | bare {d : Nat} {ts : List Token} {f : Formula} (only : Derives .primary d ts f) :
      Derives .negation d ts f
  | not {d : Nat} {ts : List Token} {f : Formula} (inner : Derives .negation d ts f) :
      Derives .negation (d + 1) (.not :: ts) (.not f)
  | chain {op : Connective} {d e : Nat} {ts us : List Token} {f g : Formula}
      (left : op ≠ .implies) (first : Derives (.operand op) d ts f) (more : Steps op f e us g) :
      Derives (.joined op) (max d e) (ts ++ us) g
  | alone {d : Nat} {ts : List Token} {f : Formula} (only : Derives (.operand .implies) d ts f) :
      Derives (.joined .implies) d ts f
  | implies {d e : Nat} {ts us : List Token} {f g : Formula}
      (first : Derives (.operand .implies) d ts f) (inner : Derives (.joined .implies) e us g) :
      Derives (.joined .implies) (max d (e + 1)) (ts ++ .operator .implies :: us)
        (.binary .implies f g)

/-- `Steps op f depth tokens g`: the tokens are `op operand op operand …`, and joined from
the left to the tree `f` they make the tree `g`. -/
inductive Steps : Connective → Formula → Nat → List Token → Formula → Prop
  | done {op : Connective} {f : Formula} : Steps op f 0 [] f
  | step {op : Connective} {d e : Nat} {ts us : List Token} {f g h : Formula}
      (next : Derives (.operand op) d ts g) (more : Steps op (.binary op f g) e us h) :
      Steps op f (max d e) (.operator op :: (ts ++ us)) h

/-- `Arguments depth tokens fs`: the tokens are formulas with commas between them. -/
inductive Arguments : Nat → List Token → List Formula → Prop
  | one {d : Nat} {ts : List Token} {f : Formula} (only : Derives (.joined .equiv) d ts f) :
      Arguments d ts [f]
  | more {d e : Nat} {ts us : List Token} {f : Formula} {fs : List Formula}
      (first : Derives (.joined .equiv) d ts f) (rest : Arguments e us fs) :
      Arguments (max d e) (ts ++ .comma :: us) (f :: fs)

end

/-! ## The trees of calls -/

theorem Operation.applied_some {operation : Operation} {fs : List Formula} {f : Formula}
    (h : operation.applied fs = some f) :
    (operation = .not ∧ ∃ a, fs = [a] ∧ f = .not a) ∨
      ∃ op a b rest, operation = .binary op ∧ fs = a :: b :: rest ∧
        f = (b :: rest).foldl (.binary op) a := by
  unfold Operation.applied at h
  split at h
  · rename_i a
    cases h
    exact .inl ⟨rfl, a, rfl, rfl⟩
  · rename_i op a b
    cases h
    exact .inr ⟨op, a, b, [], rfl, rfl, rfl⟩
  · rename_i a b rest _
    cases h
    exact .inr ⟨.and, a, b, rest, rfl, rfl, rfl⟩
  · rename_i a b rest _
    cases h
    exact .inr ⟨.or, a, b, rest, rfl, rfl, rfl⟩
  · rename_i a b rest _
    cases h
    exact .inr ⟨.xor, a, b, rest, rfl, rfl, rfl⟩
  · cases h

/-- A call of a connective has a tree if the function takes that many arguments. -/
theorem Operation.applied_binary (op : Connective) (a : Formula) (rest : List Formula) :
    (Operation.binary op).applied (a :: rest) =
      if (Operation.binary op).arity.admits (rest.length + 1) then
        some (rest.foldl (.binary op) a)
      else none := by
  match rest with
  | [] => cases op <;> rfl
  | [b] => cases op <;> rfl
  | b :: c :: rest => cases op <;> simp [applied, arity, Arity.admits]

/-- A call with arguments has a tree if the function takes as many. -/
theorem Operation.isSome_applied {operation : Operation} {fs : List Formula}
    (nonempty : fs ≠ []) :
    (operation.applied fs).isSome = operation.arity.admits fs.length := by
  obtain ⟨f, rest, rfl⟩ := List.exists_cons_of_ne_nil nonempty
  cases operation with
  | not => cases rest <;> simp [applied, arity, Arity.admits]
  | binary op =>
    rw [applied_binary, List.length_cons]
    split <;> simp [*]

namespace Formula

theorem occurrences_foldl (op : Connective) (a : Formula) (rest : List Formula) :
    (rest.foldl (.binary op) a).occurrences = a.occurrences ++ rest.flatMap occurrences := by
  induction rest generalizing a with
  | nil => simp
  | cons b rest ih => simp [ih, occurrences]

theorem height_le_foldl (op : Connective) (a : Formula) (rest : List Formula) :
    a.height ≤ (rest.foldl (.binary op) a).height := by
  induction rest generalizing a with
  | nil => exact Nat.le_refl _
  | cons b rest ih =>
    have joined : a.height ≤ (Formula.binary op a b).height :=
      Nat.le_succ_of_le (Nat.le_max_left _ _)
    exact Nat.le_trans joined (ih _)

/-- Every operand of a chain is lower than the chain. -/
theorem height_lt_foldl {op : Connective} {a b : Formula} {rest : List Formula}
    (h : b ∈ rest) : b.height < (rest.foldl (.binary op) a).height := by
  induction rest generalizing a with
  | nil => cases h
  | cons c rest ih =>
    cases h with
    | head =>
      have joined : b.height < (Formula.binary op a b).height :=
        Nat.lt_succ_of_le (Nat.le_max_right _ _)
      exact Nat.lt_of_lt_of_le joined (height_le_foldl op _ rest)
    | tail _ later => exact ih later

end Formula

theorem Operation.occurrences_applied {operation : Operation} {fs : List Formula} {f : Formula}
    (h : operation.applied fs = some f) : f.occurrences = fs.flatMap Formula.occurrences := by
  rcases applied_some h with ⟨-, a, rfl, rfl⟩ | ⟨op, a, b, rest, -, rfl, rfl⟩
  · simp [Formula.occurrences]
  · simp [Formula.occurrences_foldl, Formula.occurrences]

/-- The arguments of a call are no higher than its tree. -/
theorem Operation.height_le_applied {operation : Operation} {fs : List Formula} {f a : Formula}
    (h : operation.applied fs = some f) (argument : a ∈ fs) : a.height ≤ f.height := by
  rcases applied_some h with ⟨-, b, rfl, rfl⟩ | ⟨op, b, c, rest, -, rfl, rfl⟩
  · rw [List.mem_singleton.1 argument]
    exact Nat.le_succ _
  · cases argument with
    | head => exact Formula.height_le_foldl op _ _
    | tail _ later => exact Nat.le_of_lt (Formula.height_lt_foldl later)

/-! ## Chains -/

/-- Induction on the steps of one chain, with its operands taken as they are. -/
@[elab_as_elim]
theorem Steps.chain_induction {op : Connective}
    {motive : ∀ f d ts g, Steps op f d ts g → Prop} (done : ∀ f, motive f 0 [] f .done)
    (step : ∀ f g h d e ts us (next : Derives (.operand op) d ts g)
      (more : Steps op (.binary op f g) e us h), motive (.binary op f g) e us h more →
      motive f (max d e) (.operator op :: (ts ++ us)) h (.step next more))
    {f : Formula} {d : Nat} {ts : List Token} {g : Formula} (steps : Steps op f d ts g) :
    motive f d ts g steps := by
  match steps with
  | .done => exact done _
  | .step next more => exact step _ _ _ _ _ _ _ next more (more.chain_induction done step)

/-- The tree of a chain is no lower than the tree it starts from. -/
theorem Steps.height_le {op : Connective} {d : Nat} {ts : List Token} {f g : Formula}
    (h : Steps op f d ts g) : f.height ≤ g.height := by
  induction h using Steps.chain_induction with
  | done f => exact Nat.le_refl _
  | step f g h d e ts us next more ih =>
    have joined : f.height ≤ (Formula.binary op f g).height :=
      Nat.le_succ_of_le (Nat.le_max_left _ _)
    exact Nat.le_trans joined ih

/-- A phrase has at least one token. -/
theorem Derives.ne_nil {level : Level} {d : Nat} {ts : List Token} {f : Formula}
    (h : Derives level d ts f) : ts ≠ [] := by
  match h with
  | .literal | .var _ | .group _ | .call _ _ _ | .not _ | .implies _ _ => simp
  | .bare only | .alone only => exact only.ne_nil
  | .chain _ first _ => simp [first.ne_nil]

/-- A call has at least one argument. -/
theorem Arguments.ne_nil {d : Nat} {ts : List Token} {fs : List Formula}
    (h : Arguments d ts fs) : fs ≠ [] := by
  match h with
  | .one _ | .more _ _ => exact List.cons_ne_nil _ _

/-! ## The variables of a phrase -/

/-- No variable has the name of a function. -/
def Formula.Free (f : Formula) : Prop :=
  ∀ name ∈ f.occurrences, Operation.ofName? name.text = none

theorem Formula.free_binary {op : Connective} {f g : Formula} :
    (Formula.binary op f g).Free ↔ f.Free ∧ g.Free := List.forall_mem_append

mutual

theorem Derives.free {level : Level} {d : Nat} {ts : List Token} {f : Formula}
    (h : Derives level d ts f) : f.Free := by
  match h with
  | .literal => simp [Formula.Free, Formula.occurrences]
  | .var free => simpa [Formula.Free, Formula.occurrences] using free
  | .group inner => exact inner.free
  | .call _ inner applied =>
    have arguments := inner.free
    intro name mem
    rw [Operation.occurrences_applied applied] at mem
    obtain ⟨argument, among, occurs⟩ := List.mem_flatMap.1 mem
    exact arguments argument among name occurs
  | .bare only => exact only.free
  | .not inner => exact inner.free
  | .chain _ first more => exact more.free first.free
  | .alone only => exact only.free
  | .implies first inner => exact Formula.free_binary.2 ⟨first.free, inner.free⟩

theorem Steps.free {op : Connective} {d : Nat} {ts : List Token} {f g : Formula}
    (h : Steps op f d ts g) (before : f.Free) : g.Free := by
  match h with
  | .done => exact before
  | .step next more => exact more.free (Formula.free_binary.2 ⟨before, next.free⟩)

theorem Arguments.free {d : Nat} {ts : List Token} {fs : List Formula}
    (h : Arguments d ts fs) : ∀ f ∈ fs, f.Free := by
  match h with
  | .one only => simpa using only.free
  | .more first rest => exact List.forall_mem_cons.2 ⟨first.free, rest.free⟩

end

end Propositional
