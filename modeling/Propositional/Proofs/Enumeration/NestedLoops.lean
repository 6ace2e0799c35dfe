import Mathlib.Tactic.Ring
import Propositional.Proofs.Assignment.Lookup
import Propositional.Proofs.Enumeration.Items

/-!
# Counting is looping

The binary digits of the numbers below `2 ^ N`, in order, are what `N` nested loops go through,
each of which sets one value to false and then to true, the first one outermost. So all vectors
of `N` truth values occur, each once and in lexicographic order. A number beyond `2 ^ N` has
further digits, which no value shows.

Results:
1. `map_digits_range`: counting and looping go through the same vectors.
2. `pairwise_nestedLoops`, `count_nestedLoops`: their order, and that each occurs once.
3. `readBits_bits`, `digits_eq_iff`: the number that the values are the digits of.
4. `values_nestedLoops`: the same of an enumeration and of its assignments.
-/

namespace Propositional

namespace Enumeration

open Assignment (digits)

/-- The vectors of so many truth values, as nested loops go through them. -/
def nestedLoops : Nat → List (List Bool)
  | 0 => [[]]
  | count + 1 => [false, true].flatMap fun value => (nestedLoops count).map (value :: ·)

theorem nestedLoops_succ (count : Nat) :
    nestedLoops (count + 1) =
      (nestedLoops count).map (false :: ·) ++ (nestedLoops count).map (true :: ·) := by
  simp [nestedLoops]

/-! ## Digits -/

/-- A power of two above all these digits adds nothing to them. -/
theorem digits_two_pow_add {count place : Nat} (below : count ≤ place) (number : Nat) :
    digits count (2 ^ place + number) = digits count number := by
  induction count with
  | zero => rfl
  | succ count ih =>
    rw [digits, digits, Nat.testBit_two_pow_add_gt below, ih (Nat.le_of_succ_le below)]

/-- The lower half of the numbers has the first digit 0, and the upper half 1. -/
theorem map_digits_range (count : Nat) :
    (List.range (2 ^ count)).map (digits count) = nestedLoops count := by
  induction count with
  | zero => rfl
  | succ count ih =>
    rw [nestedLoops_succ, ← ih, Nat.pow_succ, Nat.mul_two, List.range_add, List.map_append,
      List.map_map, List.map_map, List.map_map]
    congr 1
    · refine List.map_congr_left fun number mem => ?_
      have small := Nat.testBit_lt_two_pow (List.mem_range.1 mem)
      rw [digits, small]
      rfl
    · refine List.map_congr_left fun number mem => ?_
      have small := Nat.testBit_lt_two_pow (List.mem_range.1 mem)
      rw [Function.comp_apply, digits, Nat.testBit_two_pow_add_eq, small,
        digits_two_pow_add (Nat.le_refl _)]
      rfl

/-! ## The order of the vectors -/

theorem pairwise_nestedLoops (count : Nat) : (nestedLoops count).Pairwise (· < ·) := by
  induction count with
  | zero => exact List.pairwise_singleton _ _
  | succ count ih =>
    have behind (value : Bool) : ((nestedLoops count).map (value :: ·)).Pairwise (· < ·) :=
      List.pairwise_map.2 (ih.imp fun less => List.cons_lt_cons_iff.2 (.inr ⟨rfl, less⟩))
    rw [nestedLoops_succ]
    refine List.pairwise_append.2 ⟨behind false, behind true, ?_⟩
    intro a memA b memB
    obtain ⟨a, -, rfl⟩ := List.mem_map.1 memA
    obtain ⟨b, -, rfl⟩ := List.mem_map.1 memB
    exact List.cons_lt_cons_iff.2 (.inl (by decide))

theorem mem_nestedLoops {count : Nat} {vector : List Bool} :
    vector ∈ nestedLoops count ↔ vector.length = count := by
  induction count generalizing vector with
  | zero => simp [nestedLoops]
  | succ count ih =>
    rw [nestedLoops_succ, List.mem_append, List.mem_map, List.mem_map]
    cases vector with
    | nil => simp
    | cons value vector => cases value <;> simp [ih]

theorem count_nestedLoops (count : Nat) (vector : List Bool) :
    (nestedLoops count).count vector = if vector.length = count then 1 else 0 := by
  have irrefl : Std.Irrefl fun a b : List Bool => a < b := ⟨fun a => List.lt_irrefl a⟩
  have distinct : (nestedLoops count).Nodup := (pairwise_nestedLoops count).nodup
  split
  · rename_i long
    exact List.count_eq_one_of_mem distinct (mem_nestedLoops.2 long)
  · rename_i other
    exact List.count_eq_zero.2 (mt mem_nestedLoops.1 other)

/-! ## The number of an assignment -/

/-- The number with these binary digits, the most significant one first. -/
def readBits (bits : List UInt8) : Nat :=
  bits.foldl (fun number bit => 2 * number + bit.toNat) 0

theorem foldl_digits (count number before : Nat) :
    ((digits count number).map Bool.toUInt8).foldl
        (fun number bit => 2 * number + bit.toNat) before =
      before * 2 ^ count + number % 2 ^ count := by
  induction count generalizing before with
  | zero => simp [digits, Nat.mod_one]
  | succ count ih =>
    have digit : (number.testBit count).toUInt8.toNat = number / 2 ^ count % 2 := by
      rw [← Nat.toNat_testBit]
      cases number.testBit count <;> rfl
    rw [digits, List.map_cons, List.foldl_cons, ih, digit, Nat.mod_pow_succ, Nat.pow_succ]
    ring

theorem readBits_bits (a : Assignment) :
    readBits a.bits = a.index.toNat % 2 ^ a.names.size := by
  rw [readBits, Assignment.bits, Assignment.values_eq_digits, foldl_digits, Nat.zero_mul,
    Nat.zero_add]

/-- Further digits of a number have no part in the lowest ones. -/
theorem digits_mod (count number : Nat) :
    digits count (number % 2 ^ count) = digits count number := by
  rw [Assignment.digits_eq_map, Assignment.digits_eq_map]
  refine List.map_congr_left fun position mem => ?_
  have low : count - 1 - position < count :=
    Nat.lt_of_le_of_lt (Nat.sub_le _ _) (Nat.sub_one_lt_of_lt (List.mem_range.1 mem))
  rw [Nat.testBit_mod_two_pow, decide_eq_true low, Bool.true_and]

theorem digits_eq_iff {count a b : Nat} :
    digits count a = digits count b ↔ a % 2 ^ count = b % 2 ^ count := by
  constructor
  · intro same
    have numbers := foldl_digits count a 0
    rw [same, foldl_digits] at numbers
    simpa using numbers.symm
  · intro same
    rw [← digits_mod, same, digits_mod]

/-! ## Assignments -/

theorem map_values_all {names : Array Name} (fits : names.size ≤ nameLimit) :
    (all names fits).toList.map Assignment.values = nestedLoops names.size := by
  rw [toList_all, List.map_map, ← map_digits_range]
  refine List.map_congr_left fun number mem => ?_
  rw [Function.comp_apply, Assignment.values_eq_digits,
    toNat_index_numbered fits (List.mem_range.1 mem)]
  rfl

/-- Going through all assignments of the names is looping over the values of each, from the
first name to the last: no vector of values is left out, repeated or out of order. The values
of an assignment are the digits of its number, and show of it what is below `2 ^ N`; two
assignments are the same only if their whole numbers are. -/
theorem values_nestedLoops (names : Array Name) (few : names.size ≤ nameLimit) :
    (∃ e, ofNames names = .ok e ∧
      e.toList.map Assignment.values = nestedLoops names.size ∧
      (e.toList.map Assignment.values).Pairwise (· < ·) ∧
      ∀ vector, (e.toList.map Assignment.values).count vector =
        if vector.length = names.size then 1 else 0) ∧
    ∀ index : UInt64, ∃ a, Assignment.ofIndex names index = .ok a ∧
      readBits a.bits = index.toNat % 2 ^ names.size ∧
      ∀ other : UInt64, ∃ b, Assignment.ofIndex names other = .ok b ∧
        (a.values = b.values ↔
          index.toNat % 2 ^ names.size = other.toNat % 2 ^ names.size) ∧
        (a = b ↔ index = other) := by
  constructor
  · refine ⟨all names few, dif_pos few, ?_⟩
    rw [map_values_all]
    exact ⟨rfl, pairwise_nestedLoops _, count_nestedLoops _⟩
  · intro index
    refine ⟨⟨names, index, few⟩, dif_pos few, readBits_bits _, fun other => ?_⟩
    refine ⟨⟨names, other, few⟩, dif_pos few, ?_, by simp⟩
    rw [Assignment.values_eq_digits, Assignment.values_eq_digits]
    exact digits_eq_iff

/-- Of two names, the numbers 1 and 5 give the same values, and not the same assignment. -/
theorem values_nestedLoops_beyond :
    ∃ a b, Assignment.ofIndex #[⟨"A", by decide⟩, ⟨"B", by decide⟩] 1 = .ok a ∧
      Assignment.ofIndex #[⟨"A", by decide⟩, ⟨"B", by decide⟩] 5 = .ok b ∧
      a.values = b.values ∧ a ≠ b := by
  obtain ⟨a, made, -, others⟩ :=
    (values_nestedLoops #[⟨"A", by decide⟩, ⟨"B", by decide⟩] (by decide)).2 1
  obtain ⟨b, made', values, same⟩ := others 5
  exact ⟨a, b, made, made', values.2 (by decide), mt same.1 (by decide)⟩

end Enumeration

end Propositional
