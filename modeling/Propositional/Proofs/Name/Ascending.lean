import Mathlib.Data.List.Sort
import Propositional.Name

/-!
# Ascending names

A list of names is ascending if each name comes before all that follow it. Such a list has no
name twice, and it is what `Name.sorted` makes of any list.

Results:
1. `ascending_sorted`, `mem_sorted`: the sorted list is ascending, with the same names.
2. `sorted_eq_iff`: only the names that are sorted matter, and not how often and in which order.
3. `codePoints_lt`: the order is that of the code points of the characters.
-/

namespace Propositional.Name

/-- Each name comes before all that follow it. -/
def Ascending (names : List Name) : Prop := names.Pairwise fun a b => compare a b = .lt

instance (names : List Name) : Decidable (Ascending names) :=
  inferInstanceAs (Decidable (names.Pairwise fun a b => compare a b = .lt))

/-! ## Inserting and sorting -/

theorem mem_insertInto {name other : Name} {names : List Name} :
    other ∈ insertInto name names ↔ other = name ∨ other ∈ names := by
  induction names with
  | nil => simp [insertInto]
  | cons first rest ih =>
    rw [insertInto]
    cases order : compare name first with
    | lt => simp
    | eq =>
      have same := Std.LawfulEqOrd.eq_of_compare order
      subst same
      simp
    | gt => simp [ih, or_left_comm]

theorem ascending_insertInto {names : List Name} (h : Ascending names) (name : Name) :
    Ascending (insertInto name names) := by
  induction names with
  | nil => simp [insertInto, Ascending]
  | cons first rest ih =>
    obtain ⟨before, ascending⟩ := List.pairwise_cons.1 h
    rw [insertInto]
    cases order : compare name first with
    | lt =>
      refine List.pairwise_cons.2 ⟨fun other mem => ?_, h⟩
      rcases List.mem_cons.1 mem with rfl | later
      · exact order
      · exact Std.TransCmp.lt_trans order (before other later)
    | eq => exact h
    | gt =>
      refine List.pairwise_cons.2 ⟨fun other mem => ?_, ih ascending⟩
      rcases mem_insertInto.1 mem with rfl | later
      · exact Std.OrientedCmp.lt_of_gt order
      · exact before other later

theorem mem_sorted {name : Name} {names : List Name} : name ∈ sorted names ↔ name ∈ names := by
  induction names with
  | nil => simp [sorted]
  | cons first rest ih => simp only [sorted, List.foldr_cons, mem_insertInto, ← ih, List.mem_cons]

theorem ascending_sorted (names : List Name) : Ascending (sorted names) := by
  induction names with
  | nil => exact List.Pairwise.nil
  | cons first rest ih => exact ascending_insertInto ih first

/-- There is one ascending list of given names. -/
theorem Ascending.eq_of_mem_iff {names others : List Name} (h : Ascending names)
    (h' : Ascending others) (same : ∀ name, name ∈ names ↔ name ∈ others) : names = others := by
  have antisymm : Std.Antisymm fun a b : Name => compare a b = .lt :=
    ⟨fun _ _ before after => absurd (Std.OrientedCmp.gt_of_lt after) (by simp [before])⟩
  have irrefl : Std.Irrefl fun a b : Name => compare a b = .lt :=
    ⟨fun a => by simp [Std.ReflOrd.compare_self]⟩
  exact List.Pairwise.eq_of_mem_iff h h' same

theorem sorted_eq_iff {names others : List Name} :
    sorted names = sorted others ↔ ∀ name, name ∈ names ↔ name ∈ others := by
  constructor
  · intro same name
    rw [← mem_sorted, same, mem_sorted]
  · intro same
    refine (ascending_sorted names).eq_of_mem_iff (ascending_sorted others) fun name => ?_
    rw [mem_sorted, mem_sorted, same]

/-! ## Order and places -/

theorem Ascending.compare_lt {names : List Name} (h : Ascending names) {i j : Nat} {a b : Name}
    (first : names[i]? = some a) (second : names[j]? = some b) (lt : i < j) :
    compare a b = .lt := by
  obtain ⟨inside, rfl⟩ := List.getElem?_eq_some_iff.1 first
  obtain ⟨inside', rfl⟩ := List.getElem?_eq_some_iff.1 second
  exact List.pairwise_iff_getElem.1 h i j inside inside' lt

/-- Names of an ascending list compare as their places do. -/
theorem Ascending.compare_eq {names : List Name} (h : Ascending names) {i j : Nat} {a b : Name}
    (first : names[i]? = some a) (second : names[j]? = some b) : compare a b = compare i j := by
  rcases Nat.lt_trichotomy i j with lt | rfl | gt
  · rw [h.compare_lt first second lt, Nat.compare_eq_lt.2 lt]
  · cases first.symm.trans second
    exact (Std.ReflOrd.compare_self).trans (Std.ReflOrd.compare_self).symm
  · rw [Std.OrientedCmp.gt_of_lt (h.compare_lt second first gt), Nat.compare_eq_gt.2 gt]

/-- The texts of an ascending list are all different. -/
theorem Ascending.texts_ne {names : List Name} (h : Ascending names) :
    (names.map text).Pairwise (· ≠ ·) := by
  refine List.pairwise_map.2 (h.imp fun {a b} order same => ?_)
  have equal : compare a.text b.text = .eq := Std.LawfulEqOrd.compare_eq_iff_eq.2 same
  cases order.symm.trans equal

/-- The code points of the characters. -/
def codePoints (name : Name) : List Nat := name.text.toList.map Char.toNat

theorem codePoints_lt {a b : Name} (h : compare a b = .lt) : a.codePoints < b.codePoints := by
  have order : compareOfLessAndEq a.text b.text = .lt := h
  rw [compareOfLessAndEq_eq_lt] at order
  exact List.map_lt (fun _ _ lt => lt) order

end Propositional.Name
