import Propositional.Proofs.Reading.Soundness
import Propositional.Proofs.Text.Classes

/-!
# Scanning piece by piece

`Adds text tokens rest` says what a scan does with a piece of text before the piece `rest`:
it finds the tokens, and goes on with `rest` as if it started there. Pieces are put together
by `Adds.append`, so that the tokens of a text can be found from those of its parts.

Results:
1. `adds_blank`, `adds_sign`, `adds_double`, `adds_word`, `adds_name`: the pieces of one token.
2. `scan_isWord`: the words among the tokens are words, and no literals.
3. `scan_columns`, `scan_column_ne`: the columns of the tokens increase, so that each of them
   has its own.
-/

namespace Propositional

open Reading (kinds)

/-- The word is written with letters, digits and underscores, and it is no literal. -/
def Name.IsWord (name : Name) : Prop :=
  Text.isWord name.text.toList = true ∧ name.text ≠ "True" ∧ name.text ≠ "False"

/-! ## One token -/

namespace Token

theorem ofChar?_of_isWordStart {c : Char} (h : Text.isWordStart c = true) : ofChar? c = none := by
  unfold ofChar?
  split <;> first | rfl | exact absurd h (by decide)

theorem ofDouble?_of_isWordStart {c : Char} (h : Text.isWordStart c = true) :
    ofDouble? c = none := by
  unfold ofDouble?
  split <;> first | rfl | exact absurd h (by decide)

theorem isBlank_of_ofChar? {c : Char} {token : Token} (h : ofChar? c = some token) :
    Text.isBlank c = false := by
  unfold ofChar? at h
  split at h <;> first | decide | cases h

/-- The name of a word and its text. -/
theorem ofWord_eq {name : Name} {c : Char} {more : List Char} (h : name.IsWord)
    (spelling : name.text.toList = c :: more) : ofWord c more = .word name := by
  obtain ⟨-, noTrue, noFalse⟩ := h
  have isTrue : c :: more ≠ ['T', 'r', 'u', 'e'] := fun same =>
    noTrue (String.toList_inj.1 (spelling.trans same))
  have isFalse : c :: more ≠ ['F', 'a', 'l', 's', 'e'] := fun same =>
    noFalse (String.toList_inj.1 (spelling.trans same))
  have text : String.ofList (c :: more) = name.text := by
    rw [← spelling, String.ofList_toList]
  rw [ofWord, if_neg isTrue, if_neg isFalse]
  cases name
  simp only [Name.ofChars, text]

end Token

/-! ## Pieces of text -/

/-- The piece of text adds these tokens to those found before, when `rest` follows it. -/
def Adds (text : List Char) (tokens : List Token) (rest : List Char) : Prop :=
  ∀ column found, ∃ placed, kinds placed = tokens ∧
    scanFrom column found (text ++ rest) =
      scanFrom (column + text.length) (placed.reverse ++ found) rest

theorem adds_nil (rest : List Char) : Adds [] [] rest := fun _ _ => ⟨[], rfl, rfl⟩

theorem Adds.append {text text' rest : List Char} {tokens tokens' : List Token}
    (h : Adds text tokens (text' ++ rest)) (h' : Adds text' tokens' rest) :
    Adds (text ++ text') (tokens ++ tokens') rest := by
  intro column found
  obtain ⟨placed, rfl, first⟩ := h column found
  obtain ⟨placed', rfl, second⟩ := h' (column + text.length) (placed.reverse ++ found)
  refine ⟨placed ++ placed', by simp, ?_⟩
  rw [List.append_assoc, first, second]
  simp [Nat.add_assoc]

theorem Adds.scan {text : String} {tokens : List Token} (h : Adds text.toList tokens []) :
    ∃ placed, scan text = .ok placed ∧ kinds placed = tokens := by
  obtain ⟨placed, same, scanned⟩ := h 1 []
  refine ⟨placed, ?_, same⟩
  rw [List.append_nil] at scanned
  rw [Propositional.scan, scanned, scanFrom]
  simp

theorem adds_blank {c : Char} (blank : Text.isBlank c = true) (rest : List Char) :
    Adds [c] [] rest := by
  intro column found
  refine ⟨[], rfl, ?_⟩
  rw [List.singleton_append, scanFrom, if_pos blank]
  rfl

/-- A piece that is one token from its first to its last character. -/
theorem adds_token {c : Char} {more rest : List Char} {token : Token}
    (blank : Text.isBlank c = false)
    (start : Token.start c (more ++ rest) = .ok (token, more.length)) :
    Adds (c :: more) [token] rest := by
  intro column found
  refine ⟨[⟨token, column⟩], rfl, ?_⟩
  rw [List.cons_append, scanFrom, if_neg (by simp [blank]), start]
  simp [Nat.add_assoc, Nat.add_comm 1]

theorem adds_sign {c : Char} {token : Token} (sign : Token.ofChar? c = some token)
    (rest : List Char) : Adds [c] [token] rest :=
  adds_token (Token.isBlank_of_ofChar? sign) (by simp [Token.start, sign])

theorem adds_double {c : Char} {token : Token} (blank : Text.isBlank c = false)
    (single : Token.ofChar? c = none) (double : Token.ofDouble? c = some token)
    (rest : List Char) : Adds [c, c] [token] rest :=
  adds_token blank (by simp [Token.start, single, double])

/-- What ends a word. -/
def EndsWord (rest : List Char) : Prop := ∀ c ∈ rest.head?, Text.isWordChar c = false

theorem endsWord_nil : EndsWord [] := by
  rintro c ⟨⟩

theorem endsWord_cons {c : Char} (other : Text.isWordChar c = false) (rest : List Char) :
    EndsWord (c :: rest) := by
  rintro d ⟨⟩
  exact other

/-- A word takes all of its characters, and what follows has none to offer. -/
theorem Token.start_ofWord {c : Char} {more rest : List Char}
    (word : Text.isWord (c :: more) = true) (ends : EndsWord rest) :
    start c (more ++ rest) = .ok (ofWord c more, more.length) := by
  simp only [Text.isWord, Bool.and_eq_true, List.all_eq_true] at word
  obtain ⟨first, others⟩ := word
  have taken : (more ++ rest).takeWhile Text.isWordChar = more := by
    rw [List.takeWhile_append_of_pos others]
    cases rest with
    | nil => simp
    | cons d rest => simp [ends d rfl]
  simp [start, ofChar?_of_isWordStart first, ofDouble?_of_isWordStart first,
    Text.isDigit_of_isWordStart first, first, taken]

theorem adds_word {c : Char} {more rest : List Char} (word : Text.isWord (c :: more) = true)
    (ends : EndsWord rest) : Adds (c :: more) [Token.ofWord c more] rest := by
  have first : Text.isWordStart c = true := by
    simp only [Text.isWord, Bool.and_eq_true] at word
    exact word.1
  exact adds_token (Text.isBlank_of_isWordStart first) (Token.start_ofWord word ends)

theorem adds_name {name : Name} {rest : List Char} (word : name.IsWord) (ends : EndsWord rest) :
    Adds name.text.toList [.word name] rest := by
  cases spelling : name.text.toList with
  | nil => exact absurd (String.toList_eq_nil_iff.1 spelling) name.nonempty
  | cons c more =>
    rw [← Token.ofWord_eq word spelling]
    exact adds_word (spelling ▸ word.1) ends

/-! ## The words of a text -/

theorem Token.ofWord_isWord {c : Char} {more : List Char} {name : Name}
    (word : Text.isWord (c :: more) = true) (h : ofWord c more = .word name) : name.IsWord := by
  unfold ofWord at h
  split at h
  · cases h
  split at h
  · cases h
  rename_i noTrue noFalse
  cases h
  refine ⟨by simpa [Name.ofChars] using word, fun same => noTrue ?_, fun same => noFalse ?_⟩
  · simpa [Name.ofChars] using congrArg String.toList same
  · simpa [Name.ofChars] using congrArg String.toList same

/-- The letters, digits and underscores at the start of a text are as many of its characters. -/
theorem Text.take_takeWhile (text : List Char) :
    text.take (text.takeWhile isWordChar).length = text.takeWhile isWordChar :=
  (List.prefix_iff_eq_take.1 (List.takeWhile_prefix _)).symm

/-- A token is a sign, a sign of two characters, or a word or number as long as it can be. -/
theorem Token.start_cases {c : Char} {rest : List Char} {token : Token} {more : Nat}
    (h : start c rest = .ok (token, more)) :
    (ofChar? c = some token ∧ more = 0) ∨
      (ofDouble? c = some token ∧ rest.head? = some c ∧ more = 1) ∨
      (ofChar? c = none ∧ more = (rest.takeWhile Text.isWordChar).length ∧
        (ofNumber c (rest.takeWhile Text.isWordChar) = .ok token ∨
          Text.isWordStart c = true ∧ token = ofWord c (rest.takeWhile Text.isWordChar))) := by
  unfold start at h
  split at h
  · rename_i sign
    cases h
    exact .inl ⟨sign, rfl⟩
  · rename_i double
    split at h
    · rename_i twice
      cases h
      exact .inr (.inl ⟨double, twice, rfl⟩)
    · cases h
  · rename_i single _
    dsimp only at h
    split at h
    · cases number : ofNumber c (rest.takeWhile Text.isWordChar) with
      | error cause =>
        rw [number] at h
        cases h
      | ok found =>
        rw [number] at h
        cases h
        exact .inr (.inr ⟨single, rfl, .inl rfl⟩)
    · split at h
      · rename_i first
        cases h
        exact .inr (.inr ⟨single, rfl, .inr ⟨first, rfl⟩⟩)
      · cases h

theorem Token.ofChar?_ne_word {c : Char} {name : Name} : ofChar? c ≠ some (.word name) := by
  unfold ofChar?
  split <;> simp

theorem Token.ofDouble?_some {c : Char} {token : Token} (h : ofDouble? c = some token) :
    ∃ op, token = .operator op := by
  unfold ofDouble? at h
  split at h <;> cases h <;> exact ⟨_, rfl⟩

theorem Token.ofNumber_ok {c : Char} {more : List Char} {token : Token}
    (h : ofNumber c more = .ok token) : ∃ value, token = .literal value := by
  unfold ofNumber at h
  split at h <;> cases h <;> exact ⟨_, rfl⟩

/-- A name takes all the letters, digits and underscores there are. -/
theorem Token.start_word {c : Char} {rest : List Char} {name : Name} {more : Nat}
    (h : start c rest = .ok (.word name, more)) :
    Text.isWord (c :: rest.take more) = true ∧ .word name = ofWord c (rest.take more) := by
  rcases start_cases h with ⟨sign, -⟩ | ⟨double, -⟩ | ⟨-, rfl, number | ⟨first, word⟩⟩
  · exact absurd sign ofChar?_ne_word
  · obtain ⟨op, operator⟩ := ofDouble?_some double
    cases operator
  · obtain ⟨value, literal⟩ := ofNumber_ok number
    cases literal
  · rw [Text.take_takeWhile]
    refine ⟨?_, word⟩
    rw [Text.isWord, first, Bool.true_and]
    exact List.all_takeWhile

theorem Token.start_isWord {c : Char} {rest : List Char} {name : Name} {more : Nat}
    (h : start c rest = .ok (.word name, more)) : name.IsWord := by
  obtain ⟨word, named⟩ := start_word h
  exact ofWord_isWord word named.symm

/-- The words found by a scan are words, if those found before it are. -/
theorem scanFrom_isWord {column : Nat} {found placed : List Placed} {text : List Char}
    (h : scanFrom column found text = .ok placed)
    (before : ∀ name, .word name ∈ kinds found → name.IsWord) :
    ∀ name, .word name ∈ kinds placed → name.IsWord := by
  fun_induction scanFrom column found text with
  | case1 =>
    cases h
    simpa [kinds] using before
  | case2 _ _ _ _ _ ih => exact ih h before
  | case3 column found c rest blank token more start ih =>
    refine ih h (fun name mem => ?_)
    rcases List.mem_cons.1 mem with here | there
    · subst here
      exact Token.start_isWord start
    · exact before name there
  | case4 => cases h

/-- The words among the tokens of a text are words, and no literals. -/
theorem scan_isWord {text : String} {placed : List Placed} (h : scan text = .ok placed)
    {name : Name} (mem : .word name ∈ kinds placed) : name.IsWord :=
  scanFrom_isWord h (by simp) name mem

/-! ## The columns of a text -/

/-- The tokens found by a scan stand to the right of those found before it, in order. -/
theorem scanFrom_columns {column : Nat} {found placed : List Placed} {text : List Char}
    (h : scanFrom column found text = .ok placed)
    (before : found.Pairwise fun later earlier => earlier.column < later.column)
    (left : ∀ t ∈ found, t.column < column) :
    placed.Pairwise fun earlier later => earlier.column < later.column := by
  fun_induction scanFrom column found text with
  | case1 =>
    cases h
    exact List.pairwise_reverse.2 before
  | case2 column _ _ _ _ ih => exact ih h before fun t mem => Nat.lt_succ_of_lt (left t mem)
  | case3 column found c rest blank token more start ih =>
    refine ih h (List.pairwise_cons.2 ⟨left, before⟩) fun t mem => ?_
    rcases List.mem_cons.1 mem with rfl | there
    · dsimp only
      omega
    · have := left t there
      omega
  | case4 => cases h

/-- The columns of the tokens of a text increase. -/
theorem scan_columns {text : String} {placed : List Placed} (h : scan text = .ok placed) :
    placed.Pairwise fun earlier later => earlier.column < later.column :=
  scanFrom_columns h .nil (by simp)

/-- A token of a text is the only one in its column. -/
theorem scan_column_ne {text : String} {before after : List Placed} {t : Placed}
    (h : scan text = .ok (before ++ t :: after)) :
    ∀ other ∈ before ++ after, other.column ≠ t.column := by
  obtain ⟨-, ordered, left⟩ := List.pairwise_append.1 (scan_columns h)
  obtain ⟨right, -⟩ := List.pairwise_cons.1 ordered
  intro other mem
  rcases List.mem_append.1 mem with earlier | later
  · exact Nat.ne_of_lt (left other earlier t List.mem_cons_self)
  · exact Nat.ne_of_gt (right other later)

end Propositional
