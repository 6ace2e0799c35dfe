import Mathlib.Algebra.Group.Nat.Defs
import Mathlib.Data.List.Dedup
import Propositional.Proofs.Name.Ascending

/-!
# One order of names

Names are compared by the code points of their characters, and the bytes of their UTF-8 encoding
are in the same order: the first byte of a character grows with its length, and the bytes after it
are its lower bits, the highest first. So it does not matter which of the two a map, a search or a
sorted list of names goes by, nor in which order the names come into such a list.

Results:
1. `utf8EncodeChar_lt`: of two characters, the smaller one has the smaller bytes, whatever follows.
2. `compare_lt_iff_utf8`: texts are in the order of their bytes.
3. `eq_sorted_iff`: the ascending list of given names.
4. `order_exact`: the one order of texts, and the one list of names in this order.
-/

namespace Propositional

namespace Text

/-! ## The bytes of a character -/

/-- The bytes of a character after its first: six bits each, the highest first. -/
def trailing : Nat → Nat → List UInt8
  | 0, _ => []
  | count + 1, code => trailing count (code / 64) ++ [.ofNat (code % 64 + 128)]

/-- A character has one to four bytes, of which the first shows how many there are. -/
theorem utf8EncodeChar_cases (c : Char) :
    (c.toNat < 128 ∧ String.utf8EncodeChar c = .ofNat c.toNat :: trailing 0 c.toNat) ∨
    (128 ≤ c.toNat ∧ c.toNat < 2048 ∧
      String.utf8EncodeChar c = .ofNat (192 + c.toNat / 64) :: trailing 1 c.toNat) ∨
    (2048 ≤ c.toNat ∧ c.toNat < 65536 ∧
      String.utf8EncodeChar c = .ofNat (224 + c.toNat / 64 ^ 2) :: trailing 2 c.toNat) ∨
    (65536 ≤ c.toNat ∧ c.toNat < 1114112 ∧
      String.utf8EncodeChar c = .ofNat (240 + c.toNat / 64 ^ 3) :: trailing 3 c.toNat) := by
  have bound : c.toNat < 1114112 := by
    rcases c.valid with low | high
    · exact Nat.lt_trans low (by decide)
    · exact high.2
  -- the highest bits of a character are no more than its first byte has room for
  have room (size : Nat) {high mark : Nat} (fits : high < size) :
      high % size + mark = mark + high := by
    rw [Nat.mod_eq_of_lt fits, Nat.add_comm]
  simp only [String.utf8EncodeChar, Char.toNat_val]
  split
  · exact .inl ⟨by omega, rfl⟩
  split
  · rw [room 32 (by omega)]
    exact .inr (.inl ⟨by omega, by omega, rfl⟩)
  split
  · rw [room 16 (by omega)]
    exact .inr (.inr (.inl ⟨by omega, by omega, rfl⟩))
  · rw [room 8 (by omega)]
    refine .inr (.inr (.inr ⟨by omega, bound, ?_⟩))
    simp only [trailing, Nat.div_div_eq_div_mul]
    rfl

/-- Of two numbers with the same higher bits, the smaller one has the smaller trailing bytes. -/
theorem trailing_lt {count m n : Nat} (less : m < n) (same : m / 64 ^ count = n / 64 ^ count)
    (x y : List UInt8) : trailing count m ++ x < trailing count n ++ y := by
  induction count generalizing m n x y with
  | zero => omega
  | succ count ih =>
    rw [trailing, trailing, List.append_assoc, List.append_assoc]
    rcases Nat.lt_or_ge (m / 64) (n / 64) with higher | notHigher
    · refine ih higher ?_ _ _
      rwa [Nat.div_div_eq_div_mul, Nat.div_div_eq_div_mul, ← Nat.pow_succ']
    · have equal : m / 64 = n / 64 := by omega
      have last : UInt8.ofNat (m % 64 + 128) < .ofNat (n % 64 + 128) := by
        rw [UInt8.lt_iff_toNat_lt, UInt8.toNat_ofNat', UInt8.toNat_ofNat']
        omega
      rw [equal]
      exact List.append_left_lt (List.cons_lt_cons_iff.2 (.inl last))

/-- The first bytes decide, or the trailing ones do if these and the higher bits are the same. -/
theorem marked_lt {count count' m n first first' : Nat} (less : m < n) (byte : first' < 256)
    (order : first < first' ∨
      first = first' ∧ count = count' ∧ m / 64 ^ count = n / 64 ^ count) (x y : List UInt8) :
    .ofNat first :: trailing count m ++ x < .ofNat first' :: trailing count' n ++ y := by
  rw [List.cons_append, List.cons_append, List.cons_lt_cons_iff]
  rcases order with lower | ⟨rfl, rfl, same⟩
  · left
    rw [UInt8.lt_iff_toNat_lt, UInt8.toNat_ofNat', UInt8.toNat_ofNat']
    omega
  · exact .inr ⟨rfl, trailing_lt less same x y⟩

theorem utf8EncodeChar_lt {c d : Char} (less : c < d) (x y : List UInt8) :
    String.utf8EncodeChar c ++ x < String.utf8EncodeChar d ++ y := by
  have less : c.toNat < d.toNat := less
  rcases utf8EncodeChar_cases c with ⟨_, bytes⟩ | ⟨_, _, bytes⟩ | ⟨_, _, bytes⟩ | ⟨_, _, bytes⟩ <;>
    rcases utf8EncodeChar_cases d with
      ⟨_, bytes'⟩ | ⟨_, _, bytes'⟩ | ⟨_, _, bytes'⟩ | ⟨_, _, bytes'⟩ <;>
    rw [bytes, bytes'] <;>
    exact marked_lt less (by omega) (by omega) x y

/-! ## The bytes of a text -/

/-- The UTF-8 encoding of a text. -/
def utf8 (text : String) : List UInt8 := text.toUTF8.data.toList

theorem utf8_eq_flatMap (text : String) :
    utf8 text = text.toList.flatMap String.utf8EncodeChar := by
  rw [utf8, String.toUTF8, ← String.utf8Encode_toList, List.utf8Encode, List.data_toByteArray]

theorem flatMap_utf8EncodeChar_lt {xs ys : List Char} (less : xs < ys) :
    xs.flatMap String.utf8EncodeChar < ys.flatMap String.utf8EncodeChar := by
  induction less with
  | @nil d ys =>
    obtain ⟨byte, rest, bytes⟩ := List.exists_cons_of_ne_nil (String.utf8EncodeChar_ne_nil (c := d))
    rw [List.flatMap_cons, bytes]
    exact .nil
  | rel lower =>
    rw [List.flatMap_cons, List.flatMap_cons]
    exact utf8EncodeChar_lt lower _ _
  | cons _ ih =>
    rw [List.flatMap_cons, List.flatMap_cons]
    exact List.append_left_lt ih

theorem compare_lt_iff {s t : String} : compare s t = .lt ↔ s.toList < t.toList :=
  compareOfLessAndEq_eq_lt

/-- What keeps the order of lists of characters tells which of two is less, since one of them is
less or they are the same. -/
theorem lt_iff_of_monotone {α : Type} [LT α] [Std.Irrefl (α := α) (· < ·)]
    [Std.Asymm (α := α) (· < ·)] {f : List Char → List α}
    (monotone : ∀ {xs ys : List Char}, xs < ys → f xs < f ys) {xs ys : List Char} :
    xs < ys ↔ f xs < f ys := by
  constructor
  · exact monotone
  · intro less
    rcases Std.lt_trichotomy xs ys with before | rfl | after
    · exact before
    · exact absurd less (List.lt_irrefl _)
    · exact absurd (monotone after) (List.lt_asymm less)

theorem compare_lt_iff_utf8 {s t : String} : compare s t = .lt ↔ utf8 s < utf8 t := by
  rw [compare_lt_iff, utf8_eq_flatMap, utf8_eq_flatMap]
  exact lt_iff_of_monotone flatMap_utf8EncodeChar_lt

theorem compare_lt_iff_codePoints {s t : String} :
    compare s t = .lt ↔ s.toList.map Char.toNat < t.toList.map Char.toNat := by
  have monotone {xs ys : List Char} (less : xs < ys) :
      xs.map Char.toNat < ys.map Char.toNat := List.map_lt (fun _ _ lower => lower) less
  exact compare_lt_iff.trans (lt_iff_of_monotone monotone)

end Text

namespace Name

/-! ## Lists in this order -/

/-- The ascending list of some names is the one list that is ascending and has these names. -/
theorem eq_sorted_iff {names result : List Name} :
    result = sorted names ↔ Ascending result ∧ ∀ name, name ∈ result ↔ name ∈ names := by
  constructor
  · rintro rfl
    exact ⟨ascending_sorted names, fun name => mem_sorted⟩
  · rintro ⟨ascending, same⟩
    refine ascending.eq_of_mem_iff (ascending_sorted names) fun name => ?_
    rw [same, mem_sorted]

/-- Names may come into the list one after the other, from the first on. -/
theorem foldl_insertInto (names : List Name) :
    names.foldl (fun before name => name.insertInto before) [] = sorted names := by
  have backwards : sorted names.reverse = sorted names :=
    sorted_eq_iff.2 fun name => List.mem_reverse
  rw [← backwards, List.foldl_eq_foldr_reverse]
  rfl

theorem isLE_or_isLE (a b : Name) : (compare a b).isLE || (compare b a).isLE := by
  rw [Std.OrientedOrd.eq_swap (a := b)]
  cases compare a b <;> rfl

/-- Names may be sorted first, and those that are there twice taken out after that. -/
theorem dedup_mergeSort (names : List Name) :
    (names.mergeSort fun a b => (compare a b).isLE).dedup = sorted names := by
  have ordered : (names.mergeSort fun a b => (compare a b).isLE).Pairwise
      fun a b => (compare a b).isLE :=
    List.pairwise_mergeSort (fun _ _ _ => Std.TransCmp.isLE_trans) isLE_or_isLE names
  refine eq_sorted_iff.2 ⟨?_, fun name => ?_⟩
  · refine ((ordered.sublist (List.dedup_sublist _)).and (List.nodup_dedup _)).imp ?_
    rintro a b ⟨notAfter, different⟩
    cases order : compare a b with
    | lt => rfl
    | eq => exact absurd (Std.LawfulEqOrd.eq_of_compare order) different
    | gt => rw [order] at notAfter; cases notAfter
  · rw [List.mem_dedup, List.mem_mergeSort]

/-- Texts have one order: the bytes of their UTF-8 encodings are in the order of their code points,
and no two texts are the same in it. Names are compared as their texts. So some names make one
ascending list, whatever the order in which they come, one by one or all at once, and however often
each of them comes. -/
theorem order_exact :
    (∀ s t : String,
      (compare s t = .lt ↔ Text.utf8 s < Text.utf8 t) ∧
      (compare s t = .lt ↔ s.toList.map Char.toNat < t.toList.map Char.toNat) ∧
      (compare s t = .eq ↔ s = t) ∧ (compare s t = .gt ↔ compare t s = .lt)) ∧
    (∀ s t u : String, compare s t = .lt → compare t u = .lt → compare s u = .lt) ∧
    (∀ a b : Name, compare a b = compare a.text b.text ∧ (compare a b = .eq ↔ a = b)) ∧
    ∀ names others : List Name, (∀ name, name ∈ names ↔ name ∈ others) →
      others.foldl (fun before name => name.insertInto before) [] = sorted names ∧
      (others.mergeSort fun a b => (compare a b).isLE).dedup = sorted names ∧
      ∀ result : List Name, result = sorted names ↔
        result.Pairwise (fun a b => compare a b = .lt) ∧ ∀ name, name ∈ result ↔ name ∈ others := by
  refine ⟨fun s t => ⟨Text.compare_lt_iff_utf8, Text.compare_lt_iff_codePoints,
    Std.LawfulEqOrd.compare_eq_iff_eq, Std.OrientedCmp.gt_iff_lt⟩,
    fun s t u => Std.TransCmp.lt_trans,
    fun a b => ⟨rfl, Std.LawfulEqOrd.compare_eq_iff_eq⟩, fun names others same => ?_⟩
  rw [sorted_eq_iff.2 same]
  exact ⟨foldl_insertInto others, dedup_mergeSort others, fun result => eq_sorted_iff⟩

/-- The last character of two bytes comes before the first of three, and the last of three before
the first of four. Which of the two is read first has no part in the list. -/
theorem order_exact_lengths :
    Text.utf8 "߿" < Text.utf8 "ࠀ" ∧ Text.utf8 "\uffff" < Text.utf8 "𐀀" ∧
      [⟨"𐀀", by decide⟩, ⟨"\uffff", by decide⟩].foldl
          (fun before name => insertInto name before) [] =
        sorted [⟨"\uffff", by decide⟩, ⟨"𐀀", by decide⟩] := by
  refine ⟨(order_exact.1 _ _).1.1 (by decide), (order_exact.1 _ _).1.1 (by decide),
    (order_exact.2.2.2 _ _ fun name => ?_).1⟩
  simp [or_comm]

end Name

end Propositional
