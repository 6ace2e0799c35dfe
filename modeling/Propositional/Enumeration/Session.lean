import Propositional.Enumeration

/-!
# Going through an enumeration

A session goes through an enumeration request by request. It can keep its place and come
back to it; before it has kept one, it comes back to the start.
-/

namespace Propositional.Enumeration

inductive Request where
  | next
  /-- The assignment after so many others. -/
  | nth (skipped : Nat)
  /-- Asks how many assignments are to come without going through them. -/
  | sizeHint
  /-- Counts the assignments to come without taking them. -/
  | count
  /-- Looks at the last assignment to come without taking any. -/
  | last
  /-- Takes all assignments to come. -/
  | rest
  | save
  | restore
deriving DecidableEq, Repr

inductive Reply where
  | item (item : Option Assignment)
  | sizeHint (low : Nat) (high : Option Nat)
  | count (count : Nat)
  | items (items : List Assignment)
  | done
deriving DecidableEq

/-- The place of a session, and the place that it keeps. -/
structure Session where
  current : Enumeration
  saved : Enumeration
deriving DecidableEq

namespace Session

def start (e : Enumeration) : Session := ⟨e, e⟩

/-- The reply to a request and the session after it. -/
def answer (s : Session) : Request → Reply × Session
  | .next =>
    match s.current.advance with
    | some (item, rest) => (.item (some item), { s with current := rest })
    | none => (.item none, s)
  | .nth skipped =>
    let (item, rest) := s.current.nth skipped
    (.item item, { s with current := rest })
  | .sizeHint =>
    let (low, high) := s.current.sizeHint (UInt64.size - 1)
    (.sizeHint low high, s)
  | .count => (.count s.current.count, s)
  | .last => (.item s.current.last?, s)
  | .rest => (.items s.current.toList, { s with current := s.current.exhausted })
  | .save => (.done, { s with saved := s.current })
  | .restore => (.done, { s with current := s.saved })

/-- The replies to some requests, in order, and the session after them. -/
def run (s : Session) : List Request → List Reply × Session
  | [] => ([], s)
  | request :: requests =>
    let (reply, after) := s.answer request
    let (replies, final) := after.run requests
    (reply :: replies, final)

end Session

end Propositional.Enumeration
