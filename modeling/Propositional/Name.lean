/-!
# Names

Variables and functions go by name. A name has at least one character and is otherwise
free; two occurrences of a name mean the same thing. Names are ordered by the code points
of their characters, so `A < B < a`, and that order is the order of the columns of a table.
-/

namespace Propositional

/-- A name: any text but the empty one. -/
structure Name where
  text : String
  nonempty : text ≠ ""
deriving DecidableEq, Repr

namespace Name

/-- The name with this text, if there is one. -/
def ofString? (text : String) : Option Name :=
  if h : text ≠ "" then some ⟨text, h⟩ else none

/-- The name of the given characters. -/
def ofChars (first : Char) (rest : List Char) : Name :=
  ⟨String.ofList (first :: rest), by simp [← String.toList_inj]⟩

/-- Names are compared by code point. -/
instance : Ord Name := ⟨fun a b => compare a.text b.text⟩

instance : Std.TransOrd Name :=
  inferInstanceAs (Std.TransCmp (compareOn Name.text))

instance : Std.LawfulEqOrd Name where
  eq_of_compare {a b} h := by
    have texts : a.text = b.text := Std.LawfulEqOrd.eq_of_compare h
    cases a; cases b; simp_all

/-- Puts a name into its place in an ascending list, unless it is there already. -/
def insertInto (name : Name) : List Name → List Name
  | [] => [name]
  | other :: rest =>
    match compare name other with
    | .lt => name :: other :: rest
    | .eq => other :: rest
    | .gt => other :: insertInto name rest

/-- The names in ascending order, each of them once. -/
def sorted (names : List Name) : List Name := names.foldr insertInto []

end Name

end Propositional
