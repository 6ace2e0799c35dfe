import Propositional.Proofs.Token.Scanning

/-!
# Scanning the parts of a text

A text can be divided in front of a blank, a parenthesis or a comma: no token goes on there,
so the part before is scanned as if it stood alone, whether it has tokens or ends the scan.
What comes after is scanned as a text of its own, with its columns moved to the right.

Results:
1. `scanFrom_append`: where a text is divided, the scan of its first part comes first.
2. `scanFrom_later`: the place of a text moves the columns of its tokens, and nothing else.
3. `scan_append_blanks`: the scan of two texts with white space between them.
-/

namespace Propositional

open Reading (kinds)

/-- No token goes on at the start of this text. -/
def Parted (rest : List Char) : Prop :=
  ∀ c ∈ rest.head?, Text.isWordChar c = false ∧ Token.ofDouble? c = none

/-- The token with so many characters more before it. -/
def Placed.later (shift : Nat) (t : Placed) : Placed := { t with column := t.column + shift }

/-- The failure with so many characters more before it. -/
def ScanError.later (shift : Nat) (failure : ScanError) : ScanError :=
  { failure with column := failure.column + shift }

@[simp] theorem kinds_later (shift : Nat) (ts : List Placed) :
    kinds (ts.map (Placed.later shift)) = kinds ts := by
  simp [kinds, Placed.later]

/-! ## Dividing a text -/

theorem parted_nil : Parted [] := by
  rintro c ⟨⟩

theorem parted_cons {c : Char} (other : Text.isWordChar c = false)
    (single : Token.ofDouble? c = none) (rest : List Char) : Parted (c :: rest) := by
  rintro d ⟨⟩
  exact ⟨other, single⟩

theorem Parted.endsWord {rest : List Char} (h : Parted rest) : EndsWord rest :=
  fun c first => (h c first).1

theorem Token.ofDouble?_of_isBlank {c : Char} (blank : Text.isBlank c = true) :
    ofDouble? c = none := by
  unfold ofDouble?
  split <;> first | rfl | exact absurd blank (by decide)

/-- No token goes on with white space. -/
theorem parted_blank {c : Char} (blank : Text.isBlank c = true) (rest : List Char) :
    Parted (c :: rest) :=
  parted_cons (Text.isWordChar_of_isBlank blank) (Token.ofDouble?_of_isBlank blank) rest

/-- A word ends no later than the part of the text that it starts in. -/
theorem EndsWord.takeWhile_append {rest : List Char} (h : EndsWord rest) (text : List Char) :
    (text ++ rest).takeWhile Text.isWordChar = text.takeWhile Text.isWordChar := by
  induction text with
  | nil =>
    cases rest with
    | nil => rfl
    | cons c rest => simp [h c rfl]
  | cons c text ih => rw [List.cons_append, List.takeWhile_cons, List.takeWhile_cons, ih]

/-- Neither a token nor the reason why there is none depends on the part that comes after. -/
theorem Token.start_append {c : Char} {rest : List Char} (parted : Parted rest)
    (text : List Char) : start c (text ++ rest) = start c text := by
  unfold start
  split
  · rfl
  · rename_i double
    -- the second character of a sign is not the first one of the rest
    have second : (text ++ rest).head? = some c ↔ text.head? = some c := by
      cases text with
      | cons d text => rfl
      | nil =>
        refine ⟨fun first => ?_, fun first => by cases first⟩
        cases (parted c first).2.symm.trans double
    simp only [second]
  · simp only [parted.endsWord.takeWhile_append]

/-- A token is part of the text that it is read from. -/
theorem Token.start_le_length {c : Char} {rest : List Char} {token : Token} {more : Nat}
    (h : start c rest = .ok (token, more)) : more ≤ rest.length := by
  rcases start_cases h with ⟨-, rfl⟩ | ⟨-, twice, rfl⟩ | ⟨-, rfl, -⟩
  · exact Nat.zero_le _
  · obtain ⟨_, rfl⟩ := List.head?_eq_some_iff.1 twice
    simp
  · exact (List.takeWhile_prefix _).length_le

theorem scanFrom_append {rest : List Char} (parted : Parted rest) (column : Nat)
    (found : List Placed) (text : List Char) :
    scanFrom column found (text ++ rest) =
      (scanFrom column found text).bind fun placed =>
        scanFrom (column + text.length) placed.reverse rest := by
  fun_induction scanFrom column found text with
  | case1 column found => simp [Except.bind]
  | case2 column found c text blank ih =>
    rw [List.cons_append, scanFrom, if_pos blank, ih, List.length_cons, Nat.add_assoc,
      Nat.add_comm 1]
  | case3 column found c text blank token more start ih =>
    have inside := Token.start_le_length start
    have total : column + 1 + more + (text.drop more).length = column + (c :: text).length := by
      rw [List.length_drop, List.length_cons]
      omega
    rw [List.cons_append, scanFrom, if_neg blank, Token.start_append parted, start]
    dsimp only
    rw [List.drop_append_of_le_length inside, ih, total]
  | case4 column found c text blank cause start =>
    rw [List.cons_append, scanFrom, if_neg blank, Token.start_append parted, start]
    rfl

/-! ## Moving a text -/

theorem scanFrom_later (shift column : Nat) (found before : List Placed) (text : List Char) :
    scanFrom (column + shift) (before.map (.later shift) ++ found) text =
      ((scanFrom column before text).mapError (.later shift)).map
        fun placed => found.reverse ++ placed.map (.later shift) := by
  fun_induction scanFrom column before text with
  | case1 column before =>
    rw [scanFrom]
    exact congrArg Except.ok (by simp)
  | case2 column before c text blank ih =>
    rw [scanFrom, if_pos blank, ← ih, Nat.add_right_comm]
  | case3 column before c text blank token more start ih =>
    have place : column + 1 + more + shift = column + shift + 1 + more := by omega
    rw [scanFrom, if_neg blank, start, ← ih, place]
    rfl
  | case4 column before c text blank cause start =>
    rw [scanFrom, if_neg blank, start]
    rfl

/-- A text is scanned the same way at its place as from the column 0. -/
theorem scanFrom_eq (column : Nat) (found : List Placed) (text : List Char) :
    scanFrom column found text =
      ((scanFrom 0 [] text).mapError (.later column)).map
        fun placed => found.reverse ++ placed.map (.later column) := by
  have moved := scanFrom_later column 0 found [] text
  rwa [Nat.zero_add, List.map_nil, List.nil_append] at moved

theorem scan_eq (text : String) :
    scan text = ((scanFrom 0 [] text.toList).mapError (.later 1)).map (·.map (.later 1)) :=
  scanFrom_eq 1 [] text.toList

/-- The tokens of a text are those that it adds where it is a part of another text. -/
theorem adds_of_scan {text : String} {placed : List Placed} (h : scan text = .ok placed)
    {rest : List Char} (parted : Parted rest) : Adds text.toList (kinds placed) rest := by
  intro column found
  rw [scan_eq] at h
  rw [scanFrom_append parted, scanFrom_eq]
  cases tokens : scanFrom 0 [] text.toList with
  | error failure =>
    rw [tokens] at h
    cases h
  | ok alone =>
    rw [tokens] at h
    cases h
    refine ⟨alone.map (.later column), by simp, ?_⟩
    exact congrArg (scanFrom (column + text.toList.length) · rest) (by simp)

/-! ## White space -/

theorem scanFrom_blanks (column : Nat) (found : List Placed) {blanks : List Char}
    (blank : blanks.all Text.isBlank = true) (rest : List Char) :
    scanFrom column found (blanks ++ rest) = scanFrom (column + blanks.length) found rest := by
  induction blanks generalizing column with
  | nil => rfl
  | cons c blanks ih =>
    rw [List.all_cons, Bool.and_eq_true] at blank
    rw [List.cons_append, scanFrom, if_pos blank.1, ih _ blank.2, List.length_cons, Nat.add_assoc,
      Nat.add_comm 1]

theorem parted_blanks {blanks : List Char} (nonempty : blanks ≠ [])
    (blank : blanks.all Text.isBlank = true) (rest : List Char) : Parted (blanks ++ rest) := by
  cases blanks with
  | nil => exact absurd rfl nonempty
  | cons c blanks =>
    rw [List.all_cons, Bool.and_eq_true] at blank
    exact parted_blank blank.1 (blanks ++ rest)

/-- White space divides a text. If its first part has no tokens, the text has none for the same
reason and at the same place; otherwise the tokens of the second part follow those of the first,
or it ends the scan, with the columns moved to the right by all that stands before it. -/
theorem scan_append_blanks {a blanks b : String} (nonempty : blanks ≠ "")
    (blank : blanks.toList.all Text.isBlank = true) :
    scan (a ++ blanks ++ b) =
      match scan a, scan b with
      | .error failure, _ => .error failure
      | .ok _, .error failure => .error (failure.later (a.length + blanks.length))
      | .ok left, .ok right => .ok (left ++ right.map (.later (a.length + blanks.length))) := by
  have parted : Parted (blanks.toList ++ b.toList) :=
    parted_blanks (mt String.toList_eq_nil_iff.1 nonempty) blank b.toList
  have divided : scan (a ++ blanks ++ b) = (scan a).bind fun left =>
      scanFrom (1 + (a.length + blanks.length)) left.reverse b.toList := by
    rw [scan, String.toList_append, String.toList_append, List.append_assoc,
      scanFrom_append parted, scan]
    simp only [scanFrom_blanks _ _ blank, String.length_toList, Nat.add_assoc]
  rw [divided]
  cases scan a with
  | error failure => rfl
  | ok left =>
    have moved := scanFrom_later (a.length + blanks.length) 1 left.reverse [] b.toList
    rw [List.map_nil, List.nil_append, List.reverse_reverse] at moved
    simp only [Except.bind, moved]
    rw [scan]
    cases scanFrom 1 [] b.toList <;> rfl

/-- White space keeps apart what would be one token or one failure without it: the two halves of
`>>`, and a literal and a name. -/
theorem scan_append_blanks_halves :
    scan ("A >" ++ "\u3000" ++ "> 0x") = .error ⟨3, .single '>'⟩ ∧
      scan ("A >>" ++ " \t" ++ "0x") = .error ⟨7, .number "0x"⟩ ∧
      scan ("1" ++ "\n" ++ "A") = .ok [⟨.literal true, 1⟩, ⟨.word ⟨"A", by decide⟩, 3⟩] := by
  refine ⟨?_, ?_, ?_⟩
  · have left : scan "A >" = .error ⟨3, .single '>'⟩ := by with_unfolding_all rfl
    rw [scan_append_blanks (by decide) (by decide), left]
  · have left : scan "A >>" = .ok [⟨.word ⟨"A", by decide⟩, 1⟩, ⟨.operator .implies, 3⟩] := by
      with_unfolding_all rfl
    have right : scan "0x" = .error ⟨1, .number "0x"⟩ := by with_unfolding_all rfl
    rw [scan_append_blanks (by decide) (by decide), left, right]
    rfl
  · have left : scan "1" = .ok [⟨.literal true, 1⟩] := by with_unfolding_all rfl
    have right : scan "A" = .ok [⟨.word ⟨"A", by decide⟩, 1⟩] := by with_unfolding_all rfl
    rw [scan_append_blanks (by decide) (by decide), left, right]
    rfl

end Propositional
