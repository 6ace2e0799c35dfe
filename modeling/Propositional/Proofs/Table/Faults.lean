import Mathlib.Data.Finset.Card
import Propositional.Proofs.Table.Rows

/-!
# Building a table never goes wrong

Building a table relies on facts that nothing checks while it runs: that there are at most 63
names, ascending and distinct; that `2 ^ N` and the counter up to it are words; that values are
only taken at the places of names; that no assignment leaves the formula without a value.
`Guarded.build` is the same run with a check at each of these places, and a `Fault` where the
check fails.

Results:
1. `Guarded.row_eq`, `Guarded.rows_eq`: no fault in one row, and none in the loop over the
   assignments.
2. `Guarded.build_eq`: the guarded run always ends with the answer of `Table.build`.
3. `Table.build_exact`: which answer that is.
-/

namespace Propositional

/-- What would end a run before its answer. -/
inductive Fault where
  /-- What a caller may not do: enumerate too many names, or ask for a value at no name. -/
  | misuse (cause : Misuse)
  /-- Names that are not ascending, or not distinct. -/
  | disorder
  /-- A number that is no word. -/
  | overflow
  /-- A formula without a value under an assignment of its variables. -/
  | noValue
deriving DecidableEq, Repr

namespace Guarded

/-! ## The guarded run -/

/-- The value at a position, which has to be that of a name. -/
def valueAt (a : Assignment) (position : Nat) : Except Fault Bool :=
  (a.get position).mapError Fault.misuse

/-- The value of a name, which is taken at the position that the search finds. -/
def lookUp (a : Assignment) (text : String) : Except Fault (Option Bool) :=
  match Assignment.search a.names text 0 a.names.size with
  | some position => some <$> valueAt a position
  | none => .ok none

/-- The value of the formula under the assignment. -/
def eval (a : Assignment) : Formula → Except Fault (Option Bool)
  | .const value => .ok (some value)
  | .var name => lookUp a name.text
  | .not f => do
    let value ← eval a f
    return value.map (!·)
  | .binary op f g => do
    match ← eval a f with
    | none => return none
    | some left =>
      let right ← eval a g
      return right.map (op.apply left)

/-- The row of an assignment, which has to give the formula a value. -/
def row (f : Formula) (a : Assignment) : Except Fault Row := do
  match ← eval a f with
  | some output =>
    let inputs ← (List.range a.names.size).mapM (valueAt a)
    return ⟨inputs, output⟩
  | none => throw .noValue

/-- All assignments of the names, which have to be few enough, each before the next. -/
def start (names : Array Name) : Except Fault Enumeration :=
  match Enumeration.ofNames names with
  | .ok e =>
    if names.toList.IsChain (compare · · = .lt) then
      if 2 ^ names.size < UInt64.size then .ok e else .error .overflow
    else .error .disorder
  | .error cause => .error (.misuse cause)

/-- The rows of the assignments to come, after those of the assignments before. -/
def rows (f : Formula) (before : List Row) (e : Enumeration) : Except Fault (List Row) :=
  match _ : e.advance with
  | some (a, rest) =>
    if e.next.toNat + 1 < UInt64.size then
      match row f a with
      | .ok found => rows f (before ++ [found]) rest
      | .error fault => .error fault
    else .error .overflow
  | none => .ok before
termination_by e.remaining.toNat
decreasing_by exact Enumeration.remaining_advance ‹_›

/-- The table of the formula. -/
def build (limits : Limits) (f : Formula) : Except Fault (Except BuildError Table) :=
  let names := f.names.toArray
  if names.size = 0 then .ok (.error .noVariables)
  else if names.size ≤ limits.allowed then
    if limits.fits names.size then do
      let e ← start names
      let found ← rows f [] e
      return .ok ⟨f.names, f.text, found, .ofResults (found.map Row.output)⟩
    else .ok (.error (.tooLarge names.size))
  else .ok (.error (.tooManyVariables names.size limits.allowed))

/-! ## One row -/

theorem valueAt_eq {a : Assignment} {position : Nat} (inside : position < a.names.size) :
    valueAt a position = .ok (a.bit position) := by
  rw [valueAt, Assignment.get, if_pos inside]
  rfl

/-- The search finds no position that is not one of a name. -/
theorem lookUp_eq (a : Assignment) (text : String) : lookUp a text = .ok (a.valuation text) := by
  rw [lookUp, Assignment.valuation]
  cases found : Assignment.search a.names text 0 a.names.size with
  | none => rfl
  | some position =>
    obtain ⟨name, there, -⟩ := Assignment.text_of_search found
    obtain ⟨inside, -⟩ := Array.getElem?_eq_some_iff.1 there
    simp only [valueAt_eq inside]
    rfl

theorem eval_eq (a : Assignment) (f : Formula) : eval a f = .ok (f.eval a.valuation) := by
  induction f with
  | const value => rfl
  | var name => exact lookUp_eq a name.text
  | not f ih =>
    rw [eval, ih, Formula.eval]
    cases f.eval a.valuation <;> rfl
  | binary op f g ihf ihg =>
    rw [eval, ihf, ihg, Formula.eval]
    cases f.eval a.valuation <;> cases g.eval a.valuation <;> rfl

theorem mapM_valueAt_eq (a : Assignment) {positions : List Nat}
    (inside : ∀ position ∈ positions, position < a.names.size) :
    positions.mapM (valueAt a) = .ok (positions.map a.bit) := by
  induction positions with
  | nil => rfl
  | cons first rest ih =>
    have others := ih fun position mem => inside position (List.mem_cons_of_mem _ mem)
    rw [List.mapM_cons, valueAt_eq (inside first List.mem_cons_self), others]
    rfl

/-- There is no fault in the row of an assignment of the variables. -/
theorem row_eq {f : Formula} {a : Assignment} (same : a.names.toList = f.names) :
    row f a = .ok (Table.row f a) := by
  obtain ⟨output, found⟩ := Option.isSome_iff_exists.1 (Table.isSome_eval_valuation same)
  have inputs : (List.range a.names.size).mapM (valueAt a) = .ok a.values :=
    mapM_valueAt_eq a fun position mem => List.mem_range.1 mem
  rw [row, eval_eq, found, Table.row, found]
  simp only [bind, Except.bind, inputs]
  rfl

/-! ## The run -/

/-- A step keeps the names, both for its assignment and for those to come. -/
theorem names_of_advance {e rest : Enumeration} {a : Assignment}
    (h : e.advance = some (a, rest)) : a.names = e.names ∧ rest.names = e.names := by
  unfold Enumeration.advance at h
  split at h
  · cases h
    exact ⟨rfl, rfl⟩
  · cases h

/-- The counter of an enumeration that still has an assignment is below the last word. -/
theorem next_succ_lt_of_advance {e rest : Enumeration} {a : Assignment}
    (h : e.advance = some (a, rest)) : e.next.toNat + 1 < UInt64.size := by
  unfold Enumeration.advance at h
  split at h
  · rename_i more
    rw [← Enumeration.toNat_next_succ more]
    exact UInt64.toNat_lt_size _
  · cases h

/-- There is no fault in the run over an enumeration of the variables. -/
theorem rows_eq {f : Formula} {before : List Row} {e : Enumeration}
    (same : e.names.toList = f.names) :
    rows f before e = .ok (before ++ e.items.map (Table.row f)) := by
  fun_induction rows f before e with
  | case1 before e a rest step room found answer ih =>
    obtain ⟨names, names'⟩ := names_of_advance step
    rw [row_eq (names ▸ same)] at answer
    cases answer
    rw [ih (names' ▸ same), Enumeration.items_of_advance step, List.map_cons, List.append_assoc]
    rfl
  | case2 before e a rest step room fault answer =>
    rw [row_eq ((names_of_advance step).1 ▸ same)] at answer
    cases answer
  | case3 before e a rest step full => exact absurd (next_succ_lt_of_advance step) full
  | case4 before e done =>
    rw [Enumeration.items_of_advance_none done, List.map_nil, List.append_nil]

/-- The names of a formula can be enumerated if there are at most 63 of them. -/
theorem start_eq {f : Formula} (fits : f.names.toArray.size ≤ nameLimit) :
    start f.names.toArray = .ok (Enumeration.all f.names.toArray fits) := by
  have ascending : f.names.IsChain (compare · · = .lt) := f.ascending_names.isChain
  have word : 2 ^ f.names.toArray.size < UInt64.size :=
    Nat.pow_lt_pow_right (by decide) (Nat.lt_succ_of_le fits)
  have legal : Enumeration.ofNames f.names.toArray = .ok (.all _ fits) := dif_pos fits
  simp only [start, legal]
  rw [if_pos ascending, if_pos word]

/-- The guarded run meets no fault, and ends with the answer of the run without guards. -/
theorem build_eq (limits : Limits) (f : Formula) : build limits f = .ok (Table.build limits f) := by
  unfold build Table.build
  dsimp only
  split
  · rfl
  split
  · rename_i allowed
    split
    · have fits := Nat.le_trans allowed limits.allowed_le
      rw [start_eq fits]
      simp only [bind, Except.bind]
      rw [rows_eq (e := .all _ fits) rfl, ← Enumeration.toList_eq_items]
      rfl
    · rfl
  · rfl

end Guarded

/-! ## The answer -/

/-- A formula has as many columns as different names. -/
theorem Formula.length_names (f : Formula) : f.names.length = f.occurrences.toFinset.card := by
  have same : f.occurrences.toFinset = f.names.toFinset := by
    ext name
    rw [List.mem_toFinset, List.mem_toFinset, mem_names]
  rw [same, List.toFinset_card_of_nodup f.nodup_names]

namespace Table

theorem build_noVariables_iff {limits : Limits} {f : Formula} :
    build limits f = .error .noVariables ↔ f.names.length = 0 := by
  rw [build_eq]
  split
  · simp [*]
  · rename_i positive
    split
    · split <;> simp [positive]
    · simp [positive]

theorem build_tooManyVariables_iff {limits : Limits} {f : Formula} {count limit : Nat} :
    build limits f = .error (.tooManyVariables count limit) ↔
      count = f.names.length ∧ limit = limits.allowed ∧ 0 < f.names.length ∧
        limits.allowed < f.names.length := by
  rw [build_eq]
  split
  · rename_i none
    simp [none]
  · rename_i positive
    split
    · rename_i few
      have notMany := Nat.not_lt.2 few
      split <;> simp [notMany]
    · rename_i many
      simp [Nat.pos_of_ne_zero positive, Nat.lt_of_not_le many, eq_comm]

/-- With some variables, and not too many, only the room for the rows is left to decide. -/
theorem build_within {limits : Limits} {f : Formula} (positive : 0 < f.names.length)
    (few : f.names.length ≤ limits.allowed) :
    (limits.fits f.names.length = true → ∃ t, build limits f = .ok t) ∧
      (limits.fits f.names.length = false →
        build limits f = .error (.tooLarge f.names.length)) := by
  rw [build_eq, if_neg (Nat.ne_of_gt positive), dif_pos few]
  constructor
  · intro room
    exact ⟨_, if_pos room⟩
  · intro full
    exact if_neg (by simp [full])

theorem allowed_eq (maxVariables : Option Nat) (fits : Nat → Bool) :
    (Limits.mk maxVariables fits).allowed = min (maxVariables.getD 63) 63 := by
  cases maxVariables <;> rfl

/-- Whether a formula has a table, and why not, for any number of variables, any largest number
of them that is asked for, and any memory. Building never goes wrong, and the limits decide
whether there is a table but not which. -/
theorem build_exact (maxVariables : Option Nat) (fits : Nat → Bool) (f : Formula) :
    let found := f.occurrences.toFinset.card
    let allowed := min (maxVariables.getD 63) 63
    let answer := build ⟨maxVariables, fits⟩ f
    (answer = .error .noVariables ↔ found = 0) ∧
      (∀ count limit, answer = .error (.tooManyVariables count limit) ↔
        count = found ∧ limit = allowed ∧ 0 < found ∧ allowed < found) ∧
      (0 < found → found ≤ allowed →
        (fits found = true → ∃ t, answer = .ok t) ∧
          (fits found = false → answer = .error (.tooLarge found))) ∧
      Guarded.build ⟨maxVariables, fits⟩ f = .ok answer ∧
      ∀ (limits : Limits) (t t' : Table), answer = .ok t → build limits f = .ok t' → t = t' := by
  dsimp only
  rw [← f.length_names, ← allowed_eq maxVariables fits]
  refine ⟨build_noVariables_iff, fun _ _ => build_tooManyVariables_iff, build_within,
    Guarded.build_eq _ _, fun limits t t' built built' => ?_⟩
  obtain ⟨-, fits, rfl⟩ := build_eq_ok built
  obtain ⟨-, fits', rfl⟩ := build_eq_ok built'
  rfl

end Table

end Propositional
