import Propositional.Proofs.Name.Ascending
import Propositional.Valuation

/-!
# The value of a formula

A formula has a value exactly if every name that occurs in it has one, and the values of
these names alone decide which. The value is the classical one: `Formula.Holds` says when a
formula is true where some names are true and all others false.

Results, by induction on the formula:
1. `Formula.isSome_eval`: the valuations under which a formula has a value.
2. `Formula.eval_congr`: valuations that agree on the names of a formula give it one value.
3. `Formula.eval_eq_some_iff`: a formula has a value exactly if all its names have one, and
   then the classical value.
4. `Formula.eval_exact`: the same over the variables of the formula.
-/

namespace Propositional

/-- The valuation has a value for every name of the formula, and maybe for others. -/
def Valuation.Binds (valuation : Valuation) (f : Formula) : Prop :=
  ∀ name ∈ f.occurrences, (valuation name.text).isSome

/-- What a connective says of two statements. -/
def Connective.Joins : Connective → Prop → Prop → Prop
  | .and, p, q => p ∧ q
  | .or, p, q => p ∨ q
  | .xor, p, q => (p ∧ ¬q) ∨ (¬p ∧ q)
  | .implies, p, q => p → q
  | .equiv, p, q => p ↔ q

/-- On truth values a connective computes what it says. -/
theorem Connective.apply_eq_true_iff (op : Connective) (a b : Bool) :
    op.apply a b = true ↔ op.Joins (a = true) (b = true) := by
  cases op <;> cases a <;> cases b <;> simp [apply, Joins]

namespace Formula

/-- The formula is true where these names are true, and all others false. -/
def Holds (truth : Name → Prop) : Formula → Prop
  | .const value => value = true
  | .var name => truth name
  | .not a => ¬a.Holds truth
  | .binary op a b => op.Joins (a.Holds truth) (b.Holds truth)

/-- The names of a formula are those that occur in it. -/
theorem mem_names {f : Formula} {name : Name} : name ∈ f.names ↔ name ∈ f.occurrences :=
  Name.mem_sorted

theorem ascending_names (f : Formula) : Name.Ascending f.names :=
  Name.ascending_sorted f.occurrences

theorem nodup_names (f : Formula) : f.names.Nodup :=
  f.ascending_names.imp fun {a b} order same => by
    rw [same, Std.ReflOrd.compare_self] at order
    cases order

theorem isSome_eval {f : Formula} {valuation : Valuation} :
    (f.eval valuation).isSome ↔ valuation.Binds f := by
  unfold Valuation.Binds
  induction f with
  | const value => simp [eval, occurrences]
  | var name => simp [eval, occurrences]
  | not a ih =>
    rw [occurrences, ← ih, eval]
    cases a.eval valuation <;> simp
  | binary op a b iha ihb =>
    simp only [occurrences, List.mem_append, or_imp, forall_and, ← iha, ← ihb, eval]
    cases a.eval valuation <;> cases b.eval valuation <;> simp

/-- Names that do not occur in the formula do not matter. -/
theorem eval_congr {f : Formula} {v w : Valuation}
    (same : ∀ name ∈ f.occurrences, v name.text = w name.text) : f.eval v = f.eval w := by
  induction f with
  | const value => rfl
  | var name => exact same name (by simp [occurrences])
  | not a ih => rw [eval, eval, ih same]
  | binary op a b iha ihb =>
    have left := iha fun name mem => same name (by simp [occurrences, mem])
    have right := ihb fun name mem => same name (by simp [occurrences, mem])
    rw [eval, eval, left, right]

/-! ## The classical value -/

theorem eval_not_eq_some {a : Formula} {v : Valuation} {value : Bool}
    (h : (Formula.not a).eval v = some value) :
    ∃ inner, a.eval v = some inner ∧ value = !inner := by
  rw [eval] at h
  cases found : a.eval v with
  | none => simp [found] at h
  | some inner =>
    refine ⟨inner, rfl, ?_⟩
    simpa [found, eq_comm] using h

theorem eval_binary_eq_some {op : Connective} {a b : Formula} {v : Valuation} {value : Bool}
    (h : (Formula.binary op a b).eval v = some value) :
    ∃ left right, a.eval v = some left ∧ b.eval v = some right ∧ value = op.apply left right := by
  rw [eval] at h
  cases foundA : a.eval v with
  | none => simp [foundA] at h
  | some left =>
    cases foundB : b.eval v with
    | none => simp [foundA, foundB] at h
    | some right =>
      refine ⟨left, right, rfl, rfl, ?_⟩
      simpa [foundA, foundB, eq_comm] using h

/-- The value that is found is the classical one. -/
theorem holds_of_eval {f : Formula} {v : Valuation} {value : Bool} (h : f.eval v = some value) :
    value = true ↔ f.Holds fun name => v name.text = some true := by
  induction f generalizing value with
  | const constant =>
    cases h
    rfl
  | var name =>
    have bound : v name.text = some value := h
    simp [Holds, bound]
  | not a ih =>
    obtain ⟨inner, found, rfl⟩ := eval_not_eq_some h
    rw [Holds, ← ih found]
    simp
  | binary op a b iha ihb =>
    obtain ⟨left, right, foundA, foundB, rfl⟩ := eval_binary_eq_some h
    rw [Holds, ← iha foundA, ← ihb foundB]
    exact op.apply_eq_true_iff left right

theorem eval_eq_some_iff {f : Formula} {v : Valuation} {value : Bool} :
    f.eval v = some value ↔
      v.Binds f ∧ (value = true ↔ f.Holds fun name => v name.text = some true) := by
  constructor
  · intro h
    exact ⟨isSome_eval.1 (by rw [h]; rfl), holds_of_eval h⟩
  · rintro ⟨binds, classical⟩
    obtain ⟨found, valued⟩ := Option.isSome_iff_exists.1 (isSome_eval.2 binds)
    have same : found = value :=
      Bool.eq_iff_iff.2 ((holds_of_eval valued).trans classical.symm)
    rw [valued, same]

/-- A formula has no value if one of its variables has none, whatever its other parts say, and
its classical value otherwise. Only the values of its variables matter. -/
theorem eval_exact (f : Formula) (v : Valuation) :
    (f.eval v = none ↔ ∃ name ∈ f.names, v name.text = none) ∧
      (∀ value, f.eval v = some value ↔
        (∀ name ∈ f.names, v name.text ≠ none) ∧
          (value = true ↔ f.Holds fun name => v name.text = some true)) ∧
      ∀ w : Valuation, (∀ name ∈ f.names, v name.text = w name.text) → f.eval v = f.eval w := by
  have binds : v.Binds f ↔ ∀ name ∈ f.names, v name.text ≠ none := by
    simp only [Valuation.Binds, mem_names, Option.isSome_iff_ne_none]
  refine ⟨?_, fun value => ?_, fun w same => eval_congr fun name occurs => ?_⟩
  · rw [← Option.not_isSome_iff_eq_none, isSome_eval, binds]
    simp
  · rw [eval_eq_some_iff, binds]
  · exact same name (mem_names.2 occurs)

/-- `False & X` has no value where only `Y` has one, as it has none where no name has. -/
theorem eval_exact_unbound :
    (Formula.binary .and (.const false) (.var ⟨"X", by decide⟩)).eval
        (fun text => if text = "Y" then some true else none) = none ∧
      (Formula.binary .and (.const false) (.var ⟨"X", by decide⟩)).eval
          (fun text => if text = "Y" then some true else none) =
        (Formula.binary .and (.const false) (.var ⟨"X", by decide⟩)).eval fun _ => none := by
  refine ⟨(eval_exact _ _).1.2 ⟨⟨"X", by decide⟩, by decide, by decide⟩, ?_⟩
  exact (eval_exact _ _).2.2 _ (by decide)

end Formula

end Propositional
