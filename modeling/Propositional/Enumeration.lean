import Propositional.Assignment

/-!
# All assignments in order

The assignments of `N` names are counted from 0 up to, and without, `2 ^ N`. An enumeration
is the part of that range that is still to come.
-/

namespace Propositional

/-- The assignments from number `next` on, up to but without number `stop`. -/
@[ext]
structure Enumeration where
  names : Array Name
  next : UInt64
  stop : UInt64
  fits : names.size ≤ nameLimit

namespace Enumeration

instance : DecidableEq Enumeration := fun _ _ => decidable_of_iff _ Enumeration.ext_iff.symm

/-- All assignments of the names. -/
def all (names : Array Name) (fits : names.size ≤ nameLimit) : Enumeration :=
  ⟨names, 0, 1 <<< names.size.toUInt64, fits⟩

/-- All assignments of the names, if there are not too many of them. -/
def ofNames (names : Array Name) : Except Misuse Enumeration :=
  if fits : names.size ≤ nameLimit then .ok (all names fits) else .error .tooManyNames

/-- The first assignment of the enumeration and the enumeration after it. -/
def advance (e : Enumeration) : Option (Assignment × Enumeration) :=
  if e.next < e.stop then some (⟨e.names, e.next, e.fits⟩, { e with next := e.next + 1 })
  else none

/-- The number of assignments to come. -/
def remaining (e : Enumeration) : UInt64 := e.stop - e.next

/-- Bounds for the number of assignments to come, for a machine that has `largest` as its largest
word. Both are the number itself; a number that is no word has no upper bound. -/
def sizeHint (largest : Nat) (e : Enumeration) : Nat × Option Nat :=
  if e.remaining.toNat ≤ largest then (e.remaining.toNat, some e.remaining.toNat)
  else (largest, none)

/-- Leaves out `skipped` assignments and takes the one after them. If there are not as many,
all are left out. -/
def nth (e : Enumeration) : Nat → Option Assignment × Enumeration
  | 0 =>
    match e.advance with
    | some (item, rest) => (some item, rest)
    | none => (none, e)
  | skipped + 1 =>
    match e.advance with
    | some (_, rest) => rest.nth skipped
    | none => (none, e)

theorem remaining_advance {e rest : Enumeration} {item : Assignment}
    (h : e.advance = some (item, rest)) : rest.remaining.toNat < e.remaining.toNat := by
  unfold advance at h
  split at h
  · rename_i lt
    cases h
    have := UInt64.lt_iff_toNat_lt.1 lt
    have := e.stop.toNat_lt
    simp only [remaining, UInt64.toNat_sub, UInt64.toNat_add, UInt64.toNat_one]
    omega
  · cases h

/-- Combines the assignments to come, in order. -/
def fold {β : Type} (f : β → Assignment → β) (start : β) (e : Enumeration) : β :=
  match _ : e.advance with
  | some (item, rest) => rest.fold f (f start item)
  | none => start
termination_by e.remaining.toNat
decreasing_by exact remaining_advance ‹_›

/-- How many assignments the enumeration goes through. -/
def count (e : Enumeration) : Nat := e.fold (fun n _ => n + 1) 0

/-- The assignment that the enumeration ends with. -/
def last? (e : Enumeration) : Option Assignment := e.fold (fun _ item => some item) none

/-- The assignments to come, in order. -/
def toList (e : Enumeration) : List Assignment :=
  (e.fold (fun items item => items.push item) #[]).toList

/-- The enumeration after its last assignment. -/
def exhausted (e : Enumeration) : Enumeration := { e with next := e.stop }

end Enumeration

end Propositional
