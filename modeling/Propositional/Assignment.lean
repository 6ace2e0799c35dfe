import Propositional.Valuation

/-!
# Assignments

An assignment gives each name of an ascending list a truth value. The values are the low
bits of a machine word, the first name has the most significant of them, and so the number
of an assignment is its place in the order in which the last name changes fastest. Words
have 64 bits; one of them is left to count past the last assignment of 63 names.
-/

namespace Propositional

/-- The largest number of names of an assignment. -/
def nameLimit : Nat := 63

/-- What a caller may not do. -/
inductive Misuse where
  | emptyName
  | tooManyNames
  | noSuchVariable (position : Nat)
deriving DecidableEq, Repr

def Misuse.message : Misuse → String
  | .emptyName => "Variable names must be non-empty"
  | .tooManyNames => s!"At most {nameLimit} variables are supported"
  | .noSuchVariable position => s!"Variable index {position} out of range"

/-- The name with this text; the empty text is no name. -/
def Name.ofString (text : String) : Except Misuse Name :=
  match Name.ofString? text with
  | some name => .ok name
  | none => .error .emptyName

/-- The assignment with the number `index` of those over `names`. -/
structure Assignment where
  names : Array Name
  index : UInt64
  fits : names.size ≤ nameLimit
deriving DecidableEq

namespace Assignment

/-- The assignment with the given number, if there are not too many names. -/
def ofIndex (names : Array Name) (index : UInt64) : Except Misuse Assignment :=
  if fits : names.size ≤ nameLimit then .ok ⟨names, index, fits⟩ else .error .tooManyNames

/-- The bit of the index that is the value of the name at `position`. -/
def bit (a : Assignment) (position : Nat) : Bool :=
  (a.index >>> (a.names.size - 1 - position).toUInt64) &&& 1 == 1

/-- The value of the name at `position`, counted from 0. -/
def get (a : Assignment) (position : Nat) : Except Misuse Bool :=
  if position < a.names.size then .ok (a.bit position) else .error (.noSuchVariable position)

/-- The values in the order of the names. -/
def values (a : Assignment) : List Bool := (List.range a.names.size).map a.bit

/-- The values as the digits 0 and 1. -/
def bits (a : Assignment) : List UInt8 := a.values.map Bool.toUInt8

/-- The position of a name between `low` and `high`, by halving an ascending list. -/
def search (names : Array Name) (text : String) (low high : Nat) : Option Nat :=
  if low < high then
    let middle := (low + high) / 2
    match names[middle]? with
    | some name =>
      match compare name.text text with
      | .eq => some middle
      | .lt => search names text (middle + 1) high
      | .gt => search names text low middle
    | none => none
  else none
termination_by high - low

/-- The value of a name, if it is one of the names of the assignment. -/
def valuation (a : Assignment) : Valuation := fun text =>
  (search a.names text 0 a.names.size).map a.bit

end Assignment

end Propositional
