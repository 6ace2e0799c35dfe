import Mathlib.Data.List.Chain
import Propositional.Proofs.Token.Scanning

/-!
# Opening parentheses in a text

An opening parenthesis after a word opens the arguments of a call, and every other one opens
a group. Blanks make no difference here: what counts is the character before the parenthesis
that is not blank. `Separated` says of a text that none of its opening parentheses stands right
after an operand, be it a word or a group. A text without calls may lose that property when a
pair of parentheses is taken out of it, as `(A)(B)` does; a separated text is still separated.

Results:
1. `scan_count_opening`: the opening parentheses among the tokens are those of the text.
2. `Separated.callFree`: the tokens of a separated text contain no call.
3. `Separated.erase_pair`: a separated text is still separated without a pair of parentheses.
-/

namespace Propositional

open Reading (kinds)

/-- No word has an opening parenthesis after it: none of the tokens opens a call. -/
def CallFree (ts : List Token) : Prop :=
  ts.IsChain fun first second => ∀ name, first = .word name → second ≠ .opening

/-- The characters of a text that are not blank. -/
def Text.solid (text : List Char) : List Char := text.filter (!isBlank ·)

/-- Characters that may end an operand: those of words, and the closing parenthesis. -/
def Text.endsOperand (c : Char) : Bool := isWordChar c || c == ')'

/-- The second character is no opening parenthesis if the first ends an operand. -/
def Fits (first second : Char) : Prop := second = '(' → Text.endsOperand first = false

/-- No opening parenthesis stands right after an operand. -/
def Separated (text : List Char) : Prop := (Text.solid text).IsChain Fits

/-- The text does not start with an opening parenthesis. -/
def Unopened (text : List Char) : Prop := ∀ c ∈ (Text.solid text).head?, c ≠ '('

/-! ## Characters -/

namespace Text

theorem solid_append (text text' : List Char) : solid (text ++ text') = solid text ++ solid text' :=
  List.filter_append ..

theorem solid_blank {c : Char} (blank : isBlank c = true) (text : List Char) :
    solid (c :: text) = solid text :=
  List.filter_cons_of_neg (by simp [blank])

theorem solid_cons {c : Char} (other : isBlank c = false) (text : List Char) :
    solid (c :: text) = c :: solid text :=
  List.filter_cons_of_pos (by simp [other])

theorem opening_notMem {word : List Char} (h : ∀ c ∈ word, isWordChar c = true) : '(' ∉ word :=
  fun mem => absurd (h '(' mem) (by decide)

end Text

/-! ## Opening parentheses -/

namespace Token

theorem ofChar?_opening {c : Char} : ofChar? c = some .opening ↔ c = '(' := by
  constructor
  · intro h
    unfold ofChar? at h
    split at h <;> first | rfl | cases h
  · rintro rfl
    rfl

theorem ofWord_ne_opening {c : Char} {more : List Char} : ofWord c more ≠ .opening := by
  unfold ofWord
  split
  · simp
  split <;> simp

/-- An opening parenthesis is a token of its own, and no other token contains one. -/
theorem start_opening {c : Char} {rest : List Char} {token : Token} {more : Nat}
    (h : start c rest = .ok (token, more)) :
    (c = '(' ∧ more = 0 ∧ token = .opening) ∨
      ('(' ∉ c :: rest.take more ∧ token ≠ .opening) := by
  rcases start_cases h with ⟨sign, rfl⟩ | ⟨double, twice, rfl⟩ | ⟨single, rfl, kind⟩
  · by_cases opening : c = '('
    · subst opening
      cases sign
      exact .inl ⟨rfl, rfl, rfl⟩
    · refine .inr ⟨by simpa using Ne.symm opening, ?_⟩
      rintro rfl
      exact opening (ofChar?_opening.1 sign)
  · obtain ⟨op, rfl⟩ := ofDouble?_some double
    obtain ⟨rest, rfl⟩ := List.head?_eq_some_iff.1 twice
    have other : c ≠ '(' := by
      rintro rfl
      cases double
    exact .inr ⟨by simpa using other.symm, by simp⟩
  · have other : c ≠ '(' := by
      rintro rfl
      cases single
    refine .inr ⟨?_, ?_⟩
    · rw [Text.take_takeWhile, List.mem_cons, not_or]
      exact ⟨other.symm, Text.opening_notMem (List.all_eq_true.1 List.all_takeWhile)⟩
    · rcases kind with number | ⟨-, rfl⟩
      · obtain ⟨value, rfl⟩ := ofNumber_ok number
        simp
      · exact ofWord_ne_opening

theorem start_count {c : Char} {rest : List Char} {token : Token} {more : Nat}
    (h : start c rest = .ok (token, more)) :
    (c :: rest.take more).count '(' = [token].count .opening := by
  rcases start_opening h with ⟨rfl, rfl, rfl⟩ | ⟨none, other⟩
  · rfl
  · rw [List.count_eq_zero.2 none, List.count_eq_zero.2 (by simpa using other.symm)]

end Token

theorem scanFrom_count_opening {column : Nat} {found placed : List Placed} {text : List Char}
    (h : scanFrom column found text = .ok placed) :
    (kinds placed).count .opening = (kinds found).count .opening + text.count '(' := by
  fun_induction scanFrom column found text with
  | case1 =>
    cases h
    simp [kinds]
  | case2 column found c rest blank ih =>
    have other : c ≠ '(' := by
      rintro rfl
      exact absurd blank (by decide)
    rw [ih h, List.count_cons_of_ne other]
  | case3 column found c rest blank token more start ih =>
    calc (kinds placed).count .opening
        = (kinds found).count .opening + [token].count .opening + (rest.drop more).count '(' := by
          rw [ih h]
          simp [kinds, List.count_cons]
      _ = (kinds found).count .opening + (c :: rest).count '(' := by
          rw [← Token.start_count start, Nat.add_assoc, ← List.count_append, List.cons_append,
            List.take_append_drop]
  | case4 => cases h

/-- The opening parentheses among the tokens are those of the text. -/
theorem scan_count_opening {text : String} {placed : List Placed} (h : scan text = .ok placed) :
    (kinds placed).count .opening = text.toList.count '(' := by
  rw [scanFrom_count_opening h]
  exact Nat.zero_add _

/-! ## Texts without calls -/

/-- What stands after a name is not part of it, so the name ends with the character before. -/
theorem Separated.after_word {c : Char} {rest : List Char} {name : Name} {more : Nat}
    (h : Separated (c :: rest)) (start : Token.start c rest = .ok (.word name, more)) :
    Unopened (rest.drop more) := by
  rintro next following rfl
  obtain ⟨word, -⟩ := Token.start_word start
  rw [Separated, ← List.take_append_drop more rest, ← List.cons_append, Text.solid_append] at h
  obtain ⟨-, -, joint⟩ := List.isChain_append.1 h
  have first : Text.isBlank c = false := by
    simp only [Text.isWord, Bool.and_eq_true] at word
    exact Text.isBlank_of_isWordStart word.1
  obtain ⟨last, ends⟩ : ∃ last, (Text.solid (c :: rest.take more)).getLast? = some last := by
    rw [Text.solid_cons first]
    exact ⟨_, List.getLast?_eq_some_getLast (List.cons_ne_nil _ _)⟩
  have letter : Text.isWordChar last = true :=
    Text.isWordChar_of_isWord word last (List.mem_of_mem_filter (List.mem_of_getLast? ends))
  have other : Text.endsOperand last = false := joint last ends '(' following rfl
  rw [Text.endsOperand, letter] at other
  cases other

/-- If the tokens found before contain no call, and no parenthesis follows a name at their end,
then all the tokens of the scan contain none. -/
theorem scanFrom_callFree {column : Nat} {found placed : List Placed} {text : List Char}
    (h : scanFrom column found text = .ok placed) (separated : Separated text)
    (before : CallFree (kinds found).reverse)
    (joint : ∀ name, (kinds found).head? = some (.word name) → Unopened text) :
    CallFree (kinds placed) := by
  fun_induction scanFrom column found text with
  | case1 =>
    cases h
    simpa [kinds] using before
  | case2 column found c rest blank ih =>
    rw [Separated, Text.solid_blank blank] at separated
    refine ih h separated before fun name last => ?_
    have unopened := joint name last
    rwa [Unopened, Text.solid_blank blank] at unopened
  | case3 column found c rest blank token more start ih =>
    have solid : Text.solid (c :: rest) = c :: Text.solid rest :=
      Text.solid_cons (Bool.eq_false_iff.2 blank) rest
    refine ih h ?_ ?_ ?_
    · -- the rest of the text is the end of a separated text
      have ending : Text.solid (rest.drop more) <:+ Text.solid (c :: rest) :=
        ((List.drop_suffix more rest).trans (List.suffix_cons c rest)).filter _
      exact List.IsChain.suffix separated ending
    · show CallFree ((token :: kinds found).reverse)
      rw [List.reverse_cons]
      refine List.IsChain.append before (List.isChain_singleton _) ?_
      rintro last ends next ⟨⟩ name rfl rfl
      -- a name is the last token so far, and the text goes on with a parenthesis
      rw [List.getLast?_reverse] at ends
      have unopened := joint name ends
      rw [Unopened, solid] at unopened
      rcases Token.start_opening start with ⟨opening, -⟩ | ⟨-, other⟩
      · exact unopened c rfl opening
      · exact other rfl
    · rintro name ⟨⟩
      exact separated.after_word start
  | case4 => cases h

/-- The tokens of a separated text contain no call. -/
theorem Separated.callFree {text : String} {placed : List Placed} (h : Separated text.toList)
    (scanned : scan text = .ok placed) : CallFree (kinds placed) :=
  scanFrom_callFree scanned h List.isChain_nil (by simp [kinds])

/-! ## Separated texts -/

theorem unopened_of_solid {text : List Char} {c : Char} {more : List Char}
    (first : Text.solid text = c :: more) (other : c ≠ '(') : Unopened text := by
  rw [Unopened, first]
  rintro d ⟨⟩
  exact other

theorem Separated.append {text text' : List Char} (h : Separated text) (h' : Separated text')
    (unopened : Unopened text') : Separated (text ++ text') := by
  rw [Separated, Text.solid_append]
  exact List.IsChain.append h h' fun _ _ second first opening =>
    absurd opening (unopened second first)

/-- A character that ends no operand may have anything after it. -/
theorem Separated.cons {c : Char} {text : List Char} (sign : Text.endsOperand c = false)
    (h : Separated text) : Separated (c :: text) := by
  rw [Separated]
  cases blank : Text.isBlank c with
  | true => rwa [Text.solid_blank blank]
  | false =>
    rw [Text.solid_cons blank]
    exact List.IsChain.cons h fun _ _ _ => sign

theorem Separated.signs {signs text : List Char}
    (ends : signs.all (!Text.endsOperand ·) = true) (h : Separated text) :
    Separated (signs ++ text) := by
  induction signs with
  | nil => exact h
  | cons c signs ih =>
    rw [List.all_cons, Bool.and_eq_true, Bool.not_eq_true'] at ends
    exact (ih ends.2).cons ends.1

theorem separated_of_notMem {text : List Char} (h : '(' ∉ text) : Separated text :=
  List.Pairwise.isChain <| List.pairwise_of_forall_mem_list fun _ _ _ second opening =>
    absurd (opening ▸ List.mem_of_mem_filter second) h

/-! ## Taking parentheses out -/

/-- What stands on both sides of an element stays a chain without it, if they fit together. -/
theorem isChain_without {α : Type} {R : α → α → Prop} {before after : List α} {a : α}
    (h : (before ++ a :: after).IsChain R) (fit : ∀ x y, R x a → R a y → R x y) :
    (before ++ after).IsChain R := by
  obtain ⟨front, back, joint⟩ := List.isChain_append.1 h
  obtain ⟨next, back⟩ := List.isChain_cons.1 back
  exact List.IsChain.append front back fun x last y first =>
    fit x y (joint x last a rfl) (next y first)

/-- A parenthesis that is taken out has no word and no group before it, if it is an opening
one, and no opening parenthesis after it, if it is a closing one. -/
theorem Separated.erase {before after : List Char} {c : Char}
    (h : Separated (before ++ c :: after)) (parenthesis : c = '(' ∨ c = ')') :
    Separated (before ++ after) := by
  have solid : Text.isBlank c = false := by
    rcases parenthesis with rfl | rfl <;> decide
  rw [Separated, Text.solid_append, Text.solid_cons solid] at h
  rw [Separated, Text.solid_append]
  refine isChain_without h fun first second left right opening => ?_
  rcases parenthesis with rfl | rfl
  · exact left rfl
  · cases right opening

theorem Separated.erase_pair {before inside after : List Char}
    (h : Separated (before ++ '(' :: inside ++ ')' :: after)) :
    Separated (before ++ inside ++ after) := by
  have opened := h.erase (.inr rfl)
  rw [List.append_assoc, List.cons_append] at opened
  rw [List.append_assoc]
  exact opened.erase (.inl rfl)

end Propositional
