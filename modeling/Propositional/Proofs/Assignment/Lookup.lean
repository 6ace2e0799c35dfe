import Propositional.Assignment
import Propositional.Proofs.Name.Ascending

/-!
# The values of an assignment

An assignment is a number whose binary digits are the values of its names. Looking a name up
by halving the ascending list finds the digit at its place, as a table does that binds each
name to its value.

Results:
1. `bit_eq_testBit`: the value at a place is a binary digit of the number.
2. `search_eq_some_iff`: the halving search finds a name exactly at its place.
3. `valuation_eq_ofHashMap`: both ways to look up a name agree on every text.
-/

namespace Propositional

/-- The table that binds each name to the value at its place. -/
def Valuation.binding (names : List Name) (values : List Bool) : Std.HashMap String Bool :=
  .ofList ((names.map Name.text).zip values)

namespace Valuation

theorem getElem?_binding {names : List Name} {values : List Bool}
    (ascending : Name.Ascending names) (enough : names.length ≤ values.length) {j : Nat}
    {name : Name} {value : Bool} (named : names[j]? = some name)
    (valued : values[j]? = some value) : (binding names values)[name.text]? = some value := by
  have firsts : ((names.map Name.text).zip values).map Prod.fst = names.map Name.text :=
    List.map_fst_zip (by simpa using enough)
  have distinct := ascending.texts_ne
  rw [← firsts, List.pairwise_map] at distinct
  refine Std.HashMap.getElem?_ofList_of_mem (beq_self_eq_true _)
    (distinct.imp fun ne => beq_false_of_ne ne) ?_
  refine List.mem_of_getElem? (i := j) ?_
  rw [List.getElem?_zip_eq_some, List.getElem?_map, named]
  exact ⟨rfl, valued⟩

theorem getElem?_binding_eq_none {names : List Name} {values : List Bool} {text : String}
    (absent : ∀ name ∈ names, name.text ≠ text) : (binding names values)[text]? = none := by
  refine Std.HashMap.getElem?_ofList_of_contains_eq_false ?_
  rw [Bool.eq_false_iff]
  intro present
  obtain ⟨⟨key, value⟩, mem, rfl⟩ := List.mem_map.1 (List.contains_iff_mem.1 present)
  obtain ⟨name, here, same⟩ := List.mem_map.1 (List.of_mem_zip mem).1
  exact absent name here same

end Valuation

namespace Assignment

/-! ## Binary digits -/

theorem bit_eq_testBit {a : Assignment} {position : Nat} (inside : position < a.names.size) :
    a.bit position = a.index.toNat.testBit (a.names.size - 1 - position) := by
  have small : a.names.size - 1 - position < 64 := by
    have fits := a.fits
    unfold nameLimit at fits
    omega
  have shift : (a.names.size - 1 - position).toUInt64.toNat % 64 = a.names.size - 1 - position := by
    rw [Nat.toUInt64_eq, UInt64.toNat_ofNat']
    omega
  rw [bit, Nat.testBit_eq_decide_div_mod_eq, ← Nat.shiftRight_eq_div_pow, Bool.eq_iff_iff,
    beq_iff_eq, ← UInt64.toNat_inj, UInt64.toNat_and, UInt64.toNat_shiftRight, shift,
    UInt64.toNat_one, Nat.and_one_is_mod, decide_eq_true_eq]

/-- The lowest binary digits of a number, the most significant of them first. -/
def digits : Nat → Nat → List Bool
  | 0, _ => []
  | count + 1, number => number.testBit count :: digits count number

theorem digits_eq_map (count number : Nat) :
    digits count number =
      (List.range count).map fun position => number.testBit (count - 1 - position) := by
  induction count with
  | zero => rfl
  | succ count ih =>
    rw [digits, ih, List.range_succ_eq_map, List.map_cons, List.map_map]
    congr 1
    refine List.map_congr_left fun position _ => ?_
    rw [Function.comp_apply, Nat.add_sub_cancel, Nat.sub_sub, Nat.add_comm 1]

theorem values_eq_digits (a : Assignment) : a.values = digits a.names.size a.index.toNat := by
  rw [digits_eq_map, values]
  exact List.map_congr_left fun position inside => bit_eq_testBit (List.mem_range.1 inside)

theorem length_values (a : Assignment) : a.values.length = a.names.size := by
  simp [values]

theorem getElem?_values {a : Assignment} {position : Nat} (inside : position < a.names.size) :
    a.values[position]? = some (a.bit position) := by
  simp [values, inside]

/-! ## Searching by halves -/

/-- Whatever the search finds has the text. -/
theorem text_of_search {names : Array Name} {text : String} {low high position : Nat}
    (h : search names text low high = some position) :
    ∃ name, names[position]? = some name ∧ name.text = text := by
  fun_induction search names text low high with
  | case1 low high lt middle name found same =>
    have here : middle = position := Option.some.inj h
    exact ⟨name, here ▸ found, Std.LawfulEqOrd.eq_of_compare same⟩
  | case2 _ _ _ _ _ _ _ ih => exact ih h
  | case3 _ _ _ _ _ _ _ ih => exact ih h
  | case4 => cases h
  | case5 => cases h

/-- The search finds a name that is between its bounds. -/
theorem search_of_text {names : Array Name} (ascending : Name.Ascending names.toList)
    {low high position : Nat} {name : Name} (there : names[position]? = some name)
    (after : low ≤ position) (before : position < high) (bound : high ≤ names.size) :
    search names name.text low high = some position := by
  -- what the search compares at a place is what it would find by comparing places
  have order {i : Nat} {other : Name} (found : names[i]? = some other) :
      compare other.text name.text = compare i position :=
    ascending.compare_eq (by simpa using found) (by simpa using there)
  fun_induction search names name.text low high with
  | case1 low high lt middle other found same =>
    rw [order found, Nat.compare_eq_eq] at same
    rw [same]
  | case2 low high lt middle other found less ih =>
    rw [order found, Nat.compare_eq_lt] at less
    exact ih less before bound
  | case3 low high lt middle other found greater ih =>
    rw [order found, Nat.compare_eq_gt] at greater
    exact ih after greater (by omega)
  | case4 low high lt middle missing =>
    have outside := Array.getElem?_eq_none_iff.1 missing
    omega
  | case5 => omega

theorem search_eq_some_iff {names : Array Name} (ascending : Name.Ascending names.toList)
    {text : String} {position : Nat} :
    search names text 0 names.size = some position ↔
      ∃ name, names[position]? = some name ∧ name.text = text := by
  constructor
  · exact text_of_search
  · rintro ⟨name, there, rfl⟩
    obtain ⟨inside, -⟩ := Array.getElem?_eq_some_iff.1 there
    exact search_of_text ascending there (Nat.zero_le _) inside (Nat.le_refl _)

/-! ## Looking names up -/

/-- The search and a table with the same bindings give every text the same value, if any. -/
theorem valuation_eq_ofHashMap {a : Assignment} (ascending : Name.Ascending a.names.toList) :
    a.valuation = .ofHashMap (Valuation.binding a.names.toList a.values) := by
  funext text
  rw [valuation, Valuation.ofHashMap]
  cases found : search a.names text 0 a.names.size with
  | some position =>
    obtain ⟨name, there, rfl⟩ := text_of_search found
    obtain ⟨inside, -⟩ := Array.getElem?_eq_some_iff.1 there
    refine (Valuation.getElem?_binding ascending ?_ ?_ (getElem?_values inside)).symm
    · exact Nat.le_of_eq a.length_values.symm
    · simpa using there
  | none =>
    refine (Valuation.getElem?_binding_eq_none ?_).symm
    rintro name mem rfl
    obtain ⟨position, there⟩ := List.mem_iff_getElem?.1 mem
    have found' := (search_eq_some_iff ascending).2 ⟨name, by simpa using there, rfl⟩
    cases found.symm.trans found'

/-- Every name of an assignment has a value. -/
theorem isSome_valuation {a : Assignment} (ascending : Name.Ascending a.names.toList) {name : Name}
    (mem : name ∈ a.names.toList) : (a.valuation name.text).isSome := by
  obtain ⟨position, there⟩ := List.mem_iff_getElem?.1 mem
  have found := (search_eq_some_iff ascending).2 ⟨name, by simpa using there, rfl⟩
  rw [valuation, found]
  rfl

end Assignment

end Propositional
