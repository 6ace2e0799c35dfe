import Mathlib.Algebra.Group.Nat.Defs
import Propositional.Enumeration

/-!
# What an enumeration goes through

The assignments to come are those with the numbers from `next` up to `stop`, in order. One
step takes the first of them away, and combining an enumeration combines all of them. The
counter passes its last number without running over.

Results:
1. `items_of_advance`: one step, on the list of the assignments to come.
2. `toList_eq_items`, `count_eq_length`, `last?_eq_getLast?`: the whole run.
3. `toList_all`: all assignments of `N` names are those with the numbers below `2 ^ N`.
-/

namespace Propositional.Enumeration

/-- The assignments to come. -/
def items (e : Enumeration) : List Assignment :=
  (List.range' e.next.toNat (e.stop.toNat - e.next.toNat)).map fun number =>
    ⟨e.names, .ofNat number, e.fits⟩

/-- The assignment of the names with this number. -/
def numbered (names : Array Name) (fits : names.size ≤ nameLimit) (number : Nat) : Assignment :=
  ⟨names, .ofNat number, fits⟩

/-! ## Numbers in words -/

/-- The assignments can be counted with one bit to spare. -/
theorem two_pow_size_le {names : Array Name} (fits : names.size ≤ nameLimit) :
    2 ^ names.size ≤ 2 ^ 63 :=
  Nat.pow_le_pow_right (by decide) fits

/-- A number up to that of all assignments is a word. -/
theorem toNat_ofNat_of_le {names : Array Name} (fits : names.size ≤ nameLimit) {number : Nat}
    (inside : number ≤ 2 ^ names.size) : (UInt64.ofNat number).toNat = number := by
  have small := Nat.le_trans inside (two_pow_size_le fits)
  rw [UInt64.toNat_ofNat']
  exact Nat.mod_eq_of_lt (Nat.lt_of_le_of_lt small (by decide))

theorem toNat_index_numbered {names : Array Name} (fits : names.size ≤ nameLimit) {number : Nat}
    (inside : number < 2 ^ names.size) : (numbered names fits number).index.toNat = number :=
  toNat_ofNat_of_le fits (Nat.le_of_lt inside)

/-! ## The run of an enumeration -/

/-- The number after that of an assignment is the next one. -/
theorem toNat_next_succ {e : Enumeration} (more : e.next < e.stop) :
    (e.next + 1).toNat = e.next.toNat + 1 := by
  have below := UInt64.lt_iff_toNat_lt.1 more
  have bound := e.stop.toNat_lt
  rw [UInt64.toNat_add, UInt64.toNat_one]
  omega

/-- A step takes the first assignment to come, and leaves the others. -/
theorem items_of_advance {e rest : Enumeration} {item : Assignment}
    (h : e.advance = some (item, rest)) : e.items = item :: rest.items := by
  unfold advance at h
  split at h
  · rename_i more
    cases h
    have below := UInt64.lt_iff_toNat_lt.1 more
    have count : e.stop.toNat - e.next.toNat = e.stop.toNat - (e.next.toNat + 1) + 1 := by omega
    rw [items, items, toNat_next_succ more, count, List.range'_succ, List.map_cons,
      UInt64.ofNat_toNat]
  · cases h

/-- There is no step if there is no assignment to come. -/
theorem items_of_advance_none {e : Enumeration} (h : e.advance = none) : e.items = [] := by
  unfold advance at h
  split at h
  · cases h
  · rename_i done
    rw [UInt64.lt_iff_toNat_lt] at done
    rw [items, Nat.sub_eq_zero_of_le (Nat.not_lt.1 done)]
    rfl

/-- The whole run combines the assignments to come, by the steps that remain. -/
theorem fold_eq_foldl {β : Type} (f : β → Assignment → β) (start : β) (e : Enumeration) :
    e.fold f start = e.items.foldl f start := by
  fun_induction fold f start e with
  | case1 start e item rest step ih => rw [ih, items_of_advance step, List.foldl_cons]
  | case2 start e done => rw [items_of_advance_none done, List.foldl_nil]

theorem toList_eq_items (e : Enumeration) : e.toList = e.items := by
  rw [toList, fold_eq_foldl, List.foldl_push_eq_append']
  simp

theorem count_eq_length (e : Enumeration) : e.count = e.items.length := by
  rw [count, fold_eq_foldl, List.foldl_add_const, Nat.zero_add, Nat.one_mul]

theorem last?_eq_getLast? (e : Enumeration) : e.last? = e.items.getLast? := by
  have latest (items : List Assignment) (before : Option Assignment) :
      items.foldl (fun _ item => some item) before = items.getLast?.or before := by
    induction items generalizing before with
    | nil => rfl
    | cons item items ih => simp [ih, List.getLast?_cons]
  rw [last?, fold_eq_foldl, latest, Option.or_none]

/-- All assignments are counted up to a power of two. -/
theorem toNat_stop_all {names : Array Name} (fits : names.size ≤ nameLimit) :
    (all names fits).stop.toNat = 2 ^ names.size := by
  have shift : names.size.toUInt64.toNat % 64 = names.size := by
    have small : names.size ≤ 63 := fits
    rw [Nat.toUInt64_eq, UInt64.toNat_ofNat']
    omega
  have below : 2 ^ names.size < 2 ^ 64 := Nat.lt_of_le_of_lt (two_pow_size_le fits) (by decide)
  rw [all, UInt64.toNat_shiftLeft, shift, UInt64.toNat_one, Nat.one_shiftLeft,
    Nat.mod_eq_of_lt below]

/-- All assignments of the names, by their numbers. -/
theorem toList_all {names : Array Name} (fits : names.size ≤ nameLimit) :
    (all names fits).toList = (List.range (2 ^ names.size)).map (numbered names fits) := by
  rw [toList_eq_items, items, toNat_stop_all, List.range_eq_range']
  rfl

end Propositional.Enumeration
