import Propositional.Proofs.Infix.Tokens

/-!
# The token that a problem is about

Some problems with a text are about one token because of what it is and what stands around it: the
name of a function, the token that opens a construct where no more can be opened, and the operation
whose tree would be too high. The token belongs to a phrase, which is the whole formula or inside
of a larger one, and there stand as many constructs around it as were entered on the way.

`Blamed` says which token it is, from the level of the whole formula or of a phrase.
-/

namespace Propositional

open Reading (depthLimit)

/-! ## Places in a formula -/

/-- `Enters level inside ts inner`: a phrase of the level can begin with the tokens and go on
with a phrase of the level `inner`, which is inside of as many constructs more. -/
inductive Enters : Level → Nat → List Token → Level → Prop
  | bare : Enters .negation 0 [] .primary
  | not : Enters .negation 1 [.not] .negation
  | group : Enters .primary 1 [.opening] (.joined .equiv)
  | argument {name : Name} {operation : Operation} {arguments : List (List Token)}
      (named : Operation.ofName? name.text = some operation)
      (before : ∀ ts ∈ arguments, ∃ d f, Derives (.joined .equiv) d ts f) :
      Enters .primary 1 (.word name :: .opening :: arguments.flatMap (· ++ [.comma]))
        (.joined .equiv)
  | first {op : Connective} : Enters (.joined op) 0 [] (.operand op)
  | next {op : Connective} {d : Nat} {ts : List Token} {f : Formula} (left : op ≠ .implies)
      (before : Derives (.joined op) d ts f) :
      Enters (.joined op) 0 (ts ++ [.operator op]) (.operand op)
  | consequent {d : Nat} {ts : List Token} {f : Formula}
      (before : Derives (.operand .implies) d ts f) :
      Enters (.joined .implies) 1 (ts ++ [.operator .implies]) (.joined .implies)

/-- `Opens level before t after`: in a phrase of the level, the token opens a construct. -/
inductive Opens : Level → List Token → Token → List Token → Prop
  | not {after : List Token} : Opens .negation [] .not after
  | group {after : List Token} : Opens .primary [] .opening after
  | call {name : Name} {operation : Operation} {after : List Token}
      (named : Operation.ofName? name.text = some operation) :
      Opens .primary [] (.word name) (.opening :: after)
  | consequent {d : Nat} {ts after : List Token} {f : Formula}
      (before : Derives (.operand .implies) d ts f) :
      Opens (.joined .implies) ts (.operator .implies) after

/-- The phrase of the level before these tokens does not go on with a connective. -/
def Level.EndsBefore (level : Level) (ts : List Token) : Prop :=
  ∀ op us, ts = .operator op :: us → level.continuedBy (.operator op) = false

/-- `Heads level before t after fs f`: in a phrase of the level, the token is the operation whose
operands have the trees `fs`, and with them it has the tree `f`. -/
inductive Heads : Level → List Token → Token → List Token → List Formula → Formula → Prop
  | not {d : Nat} {ts after : List Token} {f : Formula} (inner : Derives .negation d ts f) :
      Heads .negation [] .not (ts ++ after) [f] (.not f)
  | binary {op : Connective} {d e : Nat} {ts us after : List Token} {f g : Formula}
      (left : Derives (Level.ofSide op .left) d ts f)
      (right : Derives (Level.ofSide op .right) e us g)
      (ends : (Level.ofSide op .right).EndsBefore after) :
      Heads (.joined op) ts (.operator op) (us ++ after) [f, g] (.binary op f g)
  | call {name : Name} {operation : Operation} {d : Nat} {ts after : List Token}
      {fs : List Formula} {f : Formula} (named : Operation.ofName? name.text = some operation)
      (inner : Arguments d ts fs) (applied : operation.applied fs = some f) :
      Heads .primary [] (.word name) (.opening :: ts ++ .closing :: after) fs f

/-! ## The token at fault -/

/-- `Offends level opened cause before t after`: in a phrase of the level that is inside of so
many constructs, the token is the one that the cause is about. -/
inductive Offends : Level → Nat → Cause → List Token → Token → List Token → Prop
  | bareFunction {opened : Nat} {name : Name} {operation : Operation} {after : List Token}
      (named : Operation.ofName? name.text = some operation)
      (alone : after.head? ≠ some .opening) :
      Offends .primary opened (.bareFunction name) [] (.word name) after
  | unknownFunction {opened : Nat} {name : Name} {after : List Token}
      (unknown : Operation.ofName? name.text = none) :
      Offends .primary opened (.unknownFunction name) [] (.word name) (.opening :: after)
  | wrongArity {opened : Nat} {name : Name} {operation : Operation} {d : Nat}
      {ts after : List Token} {fs : List Formula}
      (named : Operation.ofName? name.text = some operation) (inner : Arguments d ts fs)
      (refused : operation.arity.admits fs.length = false) :
      Offends .primary opened (.wrongArity operation fs.length) [] (.word name)
        (.opening :: ts ++ .closing :: after)
  /-- As many constructs as may be open are around the phrase already. -/
  | nested {level : Level} {before after : List Token} {t : Token}
      (opens : Opens level before t after) :
      Offends level depthLimit .tooDeep before t after
  /-- The operands are within the limit, and the tree over them is not. -/
  | high {level : Level} {opened : Nat} {before after : List Token} {t : Token}
      {fs : List Formula} {f : Formula} (heads : Heads level before t after fs f)
      (low : ∀ operand ∈ fs, operand.height ≤ depthLimit) (beyond : depthLimit < f.height) :
      Offends level opened .tooDeep before t after

/-- The token is the one that the cause is about, in the phrase or in one inside of it. -/
inductive Blamed : Level → Nat → Cause → List Token → Token → List Token → Prop
  | here {level : Level} {opened : Nat} {cause : Cause} {before after : List Token} {t : Token}
      (offends : Offends level opened cause before t after) :
      Blamed level opened cause before t after
  | inside {level inner : Level} {opened more : Nat} {cause : Cause}
      {outer before after : List Token} {t : Token} (enters : Enters level more outer inner)
      (blamed : Blamed inner (opened + more) cause before t after) :
      Blamed level opened cause (outer ++ before) t after

end Propositional
