import Mathlib.Logic.Function.Basic
import Propositional.Proofs.Assignment.Lookup

/-!
# Valuations that agree

The same values can be kept as the digits of an assignment, in a table that is looked up by
text, or in a table that is ordered by name. A formula cannot tell them apart. Values that are
entered into a table one after another replace each other by name in both kinds of tables.

Results:
1. `Assignment.search_eq_findIdx?`: the halving search finds what the linear search finds.
2. `Valuation.hashed_eq_ordered`: both tables give every text the same value, by induction on
   the entries; one entry changes the value of its name and no other.
3. `Assignment.valuation_exact`: what an assignment gives to every text, and that the tables
   of its values agree with it on every formula.
-/

namespace Propositional

theorem Name.text_inj {a b : Name} : a.text = b.text ↔ a = b := by
  cases a
  cases b
  simp

theorem Name.ofString?_eq_some {text : String} {name : Name} :
    ofString? text = some name ↔ name.text = text := by
  unfold ofString?
  split
  · rw [Option.some.injEq]
    constructor
    · rintro rfl
      rfl
    · rintro rfl
      rfl
  · rename_i empty
    refine ⟨nofun, fun same => ?_⟩
    exact absurd (same ▸ name.nonempty) empty

namespace Valuation

/-! ## Tables of values -/

/-- The values entered, one after another, into a table that is looked up by text. -/
def hashed (entries : List (Name × Bool)) : Valuation :=
  .ofHashMap (entries.foldl (fun table (name, value) => table.insert name.text value) ∅)

/-- The values entered, one after another, into a table that is ordered by name. -/
def ordered (entries : List (Name × Bool)) : Valuation :=
  .ofTreeMap (entries.foldl (fun table (name, value) => table.insert name value) ∅)

theorem ofHashMap_insert (table : Std.HashMap String Bool) (name : Name) (value : Bool) :
    ofHashMap (table.insert name.text value) =
      Function.update (ofHashMap table) name.text (some value) := by
  funext text
  rw [ofHashMap, Std.HashMap.getElem?_insert, Function.update_apply]
  simp only [beq_iff_eq, eq_comm (a := text)]
  rfl

theorem ofTreeMap_insert (table : Std.TreeMap Name Bool) (name : Name) (value : Bool) :
    ofTreeMap (table.insert name value) =
      Function.update (ofTreeMap table) name.text (some value) := by
  funext text
  rw [Function.update_apply]
  unfold ofTreeMap
  cases named : Name.ofString? text with
  | none =>
    have other : text ≠ name.text := fun same => by
      rw [Name.ofString?_eq_some.2 same.symm] at named
      cases named
    rw [if_neg other]
    rfl
  | some found =>
    obtain rfl := Name.ofString?_eq_some.1 named
    have same : compare name found = .eq ↔ found.text = name.text := by
      rw [Name.text_inj, Std.LawfulEqOrd.compare_eq_iff_eq, eq_comm]
    simp only [Option.bind_some, Std.TreeMap.getElem?_insert, same]

/-- Entries keep tables in agreement. -/
theorem ofHashMap_foldl_eq {table : Std.HashMap String Bool} {ordered : Std.TreeMap Name Bool}
    (agree : ofHashMap table = ofTreeMap ordered) (entries : List (Name × Bool)) :
    ofHashMap (entries.foldl (fun table (name, value) => table.insert name.text value) table) =
      ofTreeMap (entries.foldl (fun table (name, value) => table.insert name value) ordered) := by
  induction entries generalizing table ordered with
  | nil => exact agree
  | cons entry entries ih =>
    refine ih ?_
    rw [ofHashMap_insert, ofTreeMap_insert, agree]

/-- Both tables give every text the same value, if any. -/
theorem hashed_eq_ordered (entries : List (Name × Bool)) : hashed entries = ordered entries := by
  refine ofHashMap_foldl_eq ?_ entries
  funext text
  simp [ofHashMap, ofTreeMap]

/-- A table that binds names to values is one into which they are entered. -/
theorem ofHashMap_binding (names : List Name) (values : List Bool) :
    ofHashMap (binding names values) = hashed (names.zip values) := by
  have entered (entries : List (Name × Bool)) (table : Std.HashMap String Bool) :
      table.insertMany (entries.map (Prod.map Name.text id)) =
        entries.foldl (fun table (name, value) => table.insert name.text value) table := by
    induction entries generalizing table with
    | nil => simp
    | cons entry entries ih => exact Std.HashMap.insertMany_cons.trans (ih _)
  rw [hashed, binding, Std.HashMap.ofList_eq_insertMany_empty, List.zip_map_left, entered]

end Valuation

namespace Assignment

/-! ## The values of an assignment -/

/-- The halving search finds what the linear search finds. -/
theorem search_eq_findIdx? {names : Array Name} (ascending : Name.Ascending names.toList)
    (text : String) :
    search names text 0 names.size = names.toList.findIdx? (·.text = text) := by
  cases linear : names.toList.findIdx? (·.text = text) with
  | some position =>
    obtain ⟨inside, named, -⟩ := List.findIdx?_eq_some_iff_getElem.1 linear
    refine (search_eq_some_iff ascending).2 ⟨names.toList[position], ?_, of_decide_eq_true named⟩
    simp
  | none =>
    have absent := List.findIdx?_eq_none_iff.1 linear
    refine Option.eq_none_iff_forall_ne_some.2 fun position found => ?_
    obtain ⟨name, there, named⟩ := text_of_search found
    have mem : name ∈ names.toList := Array.mem_toList_iff.2 (Array.mem_of_getElem? there)
    exact of_decide_eq_false (absent name mem) named

/-- Each name with the value at its place. -/
def entries (a : Assignment) : List (Name × Bool) :=
  a.names.toList.mapIdx fun position name => (name, a.bit position)

theorem zip_values (a : Assignment) : a.names.toList.zip a.values = a.entries := by
  refine List.ext_getElem (by simp [entries, values]) fun position inside _ => ?_
  simp [entries, values]

theorem valuation_eq_hashed {a : Assignment} (ascending : Name.Ascending a.names.toList) :
    a.valuation = .hashed a.entries := by
  rw [valuation_eq_ofHashMap ascending, Valuation.ofHashMap_binding, zip_values]

/-- An assignment gives a text the digit of its number that stands at the place of the name with
this text, and no value if there is no such name. No formula can tell it from a table into which
the values of its names are entered, nor two tables of different kinds with the same entries. -/
theorem valuation_exact :
    (∀ (names : Array Name) (index : UInt64), Name.Ascending names.toList → names.size ≤ 63 →
      ∃ a, ofIndex names index = .ok a ∧
        (∀ j < names.size, a.get j = .ok (a.bit j) ∧
          a.bit j = index.toNat.testBit (names.size - 1 - j)) ∧
        (∀ text, a.valuation text = (names.toList.findIdx? (·.text = text)).map a.bit) ∧
        ∀ f : Formula, f.eval a.valuation = f.eval (.hashed a.entries) ∧
          f.eval a.valuation = f.eval (.ordered a.entries)) ∧
      ∀ (entries : List (Name × Bool)) (f : Formula),
        f.eval (.hashed entries) = f.eval (.ordered entries) := by
  refine ⟨fun names index ascending fits => ?_, fun entries f => ?_⟩
  · refine ⟨⟨names, index, fits⟩, dif_pos fits, fun j inside => ?_, fun text => ?_, fun f => ?_⟩
    · exact ⟨if_pos inside, bit_eq_testBit inside⟩
    · rw [valuation, search_eq_findIdx? ascending]
    · have hashed := valuation_eq_hashed (a := ⟨names, index, fits⟩) ascending
      rw [← Valuation.hashed_eq_ordered, ← hashed]
      exact ⟨rfl, rfl⟩
  · rw [Valuation.hashed_eq_ordered]

/-- `AB` comes after its beginning `A` and before `a`, and has the middle one of the three lowest
digits; `AA` and the empty text have none. A value entered twice is the second one. -/
theorem valuation_exact_prefixes :
    (∃ a, ofIndex #[⟨"A", by decide⟩, ⟨"AB", by decide⟩, ⟨"a", by decide⟩] 0xFFFFFFFFFFFFFFFD =
        .ok a ∧
      a.valuation "AB" = some false ∧ a.valuation "AA" = none ∧ a.valuation "" = none ∧
      (Formula.var ⟨"AB", by decide⟩).eval a.valuation =
        (Formula.var ⟨"AB", by decide⟩).eval (.ordered a.entries)) ∧
      (Formula.var ⟨"A", by decide⟩).eval
          (.hashed [(⟨"A", by decide⟩, true), (⟨"A", by decide⟩, false)]) =
        (Formula.var ⟨"A", by decide⟩).eval
          (.ordered [(⟨"A", by decide⟩, true), (⟨"A", by decide⟩, false)]) := by
  refine ⟨?_, valuation_exact.2 _ _⟩
  obtain ⟨a, built, digits, lookup, agree⟩ :=
    valuation_exact.1 #[⟨"A", by decide⟩, ⟨"AB", by decide⟩, ⟨"a", by decide⟩] 0xFFFFFFFFFFFFFFFD
      (by decide) (by decide)
  refine ⟨a, built, ?_, ?_, ?_, (agree _).2⟩
  · have middle : a.bit 1 = false := (digits 1 (by decide)).2
    rw [lookup, ← middle]
    rfl
  · rw [lookup]
    rfl
  · rw [lookup]
    rfl

end Assignment

end Propositional
