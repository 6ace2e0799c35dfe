/-!
# Code point ranges

A character property of the Unicode standard is kept as the list of its maximal
runs of code points, in ascending order. `inRanges` looks a code point up and
stops at the first run that starts beyond it.
-/

namespace Propositional.Text

/-- Whether `n` lies in one of the ascending runs; both ends of a run belong to it. -/
def inRanges : List (Nat × Nat) → Nat → Bool
  | [], _ => false
  | (first, last) :: rest, n => first ≤ n && (n ≤ last || inRanges rest n)

end Propositional.Text
