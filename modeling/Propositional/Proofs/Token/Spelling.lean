import Propositional.Proofs.Token.Parts

/-!
# The spelling of a token

A sign has one spelling. A name is spelled as it is, and a literal is a word or a digit; both
have to end where they stand, before a character that is no letter, digit or underscore.
`Written token lexeme rest` says that the characters of `lexeme` are the token where `rest`
follows them.

Results:
1. `Token.start_written`: what is read as a token is a spelling of it.
2. `Token.Written.start`: a spelling of a token is read as it, and nothing after it.
-/

namespace Propositional

namespace Token

/-- The ways to write a token. -/
def spellings : Token → List (List Char)
  | .literal true => ["True".toList, "1".toList]
  | .literal false => ["False".toList, "0".toList]
  | token => [token.text.toList]

/-- Whether the token takes all the letters, digits and underscores from its first on. -/
def takesWord : Token → Bool
  | .word _ | .literal _ => true
  | _ => false

/-- The token is written with these characters, where `rest` comes after them. -/
structure Written (token : Token) (lexeme rest : List Char) : Prop where
  spelled : lexeme ∈ token.spellings
  isWord : ∀ name, token = .word name → name.IsWord
  ends : token.takesWord = true → EndsWord rest

end Token

/-! ## The end of a word -/

/-- A word ends where its letters, digits and underscores do. -/
theorem endsWord_drop_takeWhile (text : List Char) :
    EndsWord (text.drop (text.takeWhile Text.isWordChar).length) := by
  induction text with
  | nil => exact endsWord_nil
  | cons c text ih =>
    rw [List.takeWhile_cons]
    split
    · exact ih
    · rename_i other
      exact endsWord_cons (Bool.eq_false_iff.2 other) text

theorem EndsWord.left_of_append {text rest : List Char} (h : EndsWord (text ++ rest)) :
    EndsWord text := by
  cases text with
  | nil => exact endsWord_nil
  | cons c text => exact endsWord_cons (h c rfl) text

namespace Token

/-! ## What is read is a spelling -/

theorem ofChar?_spelled {c : Char} {token : Token} (sign : ofChar? c = some token) :
    [c] ∈ token.spellings ∧ token.takesWord = false := by
  unfold ofChar? at sign
  split at sign <;> cases sign <;> decide

theorem ofDouble?_spelled {c : Char} {token : Token} (double : ofDouble? c = some token) :
    [c, c] ∈ token.spellings ∧ token.takesWord = false := by
  unfold ofDouble? at double
  split at double <;> cases double <;> decide

theorem ofNumber_spelled {c : Char} {word : List Char} {token : Token}
    (number : ofNumber c word = .ok token) : c :: word ∈ token.spellings := by
  unfold ofNumber at number
  split at number <;> cases number <;> decide

theorem ofWord_spelled (c : Char) (word : List Char) : c :: word ∈ (ofWord c word).spellings := by
  unfold ofWord
  split
  · rename_i same
    rw [same]
    decide
  split
  · rename_i same
    rw [same]
    decide
  · simp [spellings, text, Name.ofChars]

theorem start_written {c : Char} {rest : List Char} {token : Token} {more : Nat}
    (h : start c rest = .ok (token, more)) :
    token.Written (c :: rest.take more) (rest.drop more) := by
  have named : ∀ name, token = .word name → name.IsWord := fun name same =>
    start_isWord (same ▸ h)
  rcases start_cases h with ⟨sign, rfl⟩ | ⟨double, twice, rfl⟩ | ⟨-, rfl, kind⟩
  · obtain ⟨spelled, other⟩ := ofChar?_spelled sign
    exact ⟨spelled, named, by simp [other]⟩
  · obtain ⟨rest, rfl⟩ := List.head?_eq_some_iff.1 twice
    obtain ⟨spelled, other⟩ := ofDouble?_spelled double
    exact ⟨spelled, named, by simp [other]⟩
  · refine ⟨?_, named, fun _ => endsWord_drop_takeWhile rest⟩
    rw [Text.take_takeWhile]
    rcases kind with number | ⟨-, rfl⟩
    · exact ofNumber_spelled number
    · exact ofWord_spelled c _

/-- No token starts with white space. -/
theorem isBlank_of_start {c : Char} {rest : List Char} {token : Token} {more : Nat}
    (h : start c rest = .ok (token, more)) : Text.isBlank c = false := by
  rw [Bool.eq_false_iff]
  intro blank
  rcases start_cases h with ⟨sign, -⟩ | ⟨double, -⟩ | ⟨-, -, number | ⟨first, -⟩⟩
  · cases blank.symm.trans (isBlank_of_ofChar? sign)
  · cases (ofDouble?_of_isBlank blank).symm.trans double
  · unfold ofNumber at number
    split at number
    · exact absurd blank (by decide)
    · exact absurd blank (by decide)
    · cases number
  · cases blank.symm.trans (Text.isBlank_of_isWordStart first)

/-! ## A spelling is read -/

theorem start_literal {value : Bool} {c : Char} {more rest : List Char}
    (spelled : c :: more ∈ (literal value).spellings) (ends : EndsWord rest) :
    start c (more ++ rest) = .ok (.literal value, more.length) := by
  have none : rest.takeWhile Text.isWordChar = [] := ends.takeWhile_append []
  cases value with
  | false =>
    rcases List.mem_cons.1 spelled with word | digit
    · cases word
      exact start_ofWord (by decide) ends
    · cases List.mem_singleton.1 digit
      rw [List.nil_append, start, none]
      rfl
  | true =>
    rcases List.mem_cons.1 spelled with word | digit
    · cases word
      exact start_ofWord (by decide) ends
    · cases List.mem_singleton.1 digit
      rw [List.nil_append, start, none]
      rfl

theorem Written.start {token : Token} {c : Char} {more rest : List Char}
    (h : token.Written (c :: more) rest) :
    Token.start c (more ++ rest) = .ok (token, more.length) := by
  obtain ⟨spelled, isWord, ends⟩ := h
  cases token with
  | word name =>
    have spelling : name.text.toList = c :: more := (List.mem_singleton.1 spelled).symm
    have word : name.IsWord := isWord name rfl
    rw [← ofWord_eq word spelling]
    exact start_ofWord (spelling ▸ word.1) (ends rfl)
  | literal value => exact start_literal spelled (ends rfl)
  | operator op => cases op <;> cases List.mem_singleton.1 spelled <;> rfl
  | not | opening | closing | comma =>
    cases List.mem_singleton.1 spelled
    rfl

/-! ## Spellings -/

/-- A token that has ended before a text has ended before the first part of it. -/
theorem Written.left_of_append {token : Token} {lexeme text rest : List Char}
    (h : token.Written lexeme (text ++ rest)) : token.Written lexeme text :=
  ⟨h.spelled, h.isWord, fun takes => (h.ends takes).left_of_append⟩

theorem length_pos_of_spelled {token : Token} {lexeme : List Char}
    (spelled : lexeme ∈ token.spellings) : 0 < lexeme.length := by
  cases token with
  | word name =>
    rw [List.mem_singleton.1 spelled]
    exact List.length_pos_iff.2 (mt String.toList_eq_nil_iff.1 name.nonempty)
  | literal value =>
    have all : ∀ value, ∀ word ∈ (literal value).spellings, 0 < word.length := by decide
    exact all value lexeme spelled
  | operator op =>
    rw [List.mem_singleton.1 spelled]
    cases op <;> decide
  | not | opening | closing | comma =>
    rw [List.mem_singleton.1 spelled]
    decide

theorem Written.isWordChar {token : Token} {lexeme rest : List Char}
    (h : token.Written lexeme rest) (takes : token.takesWord = true) :
    ∀ c ∈ lexeme, Text.isWordChar c = true := by
  cases token with
  | word name =>
    rw [List.mem_singleton.1 h.spelled]
    exact Text.isWordChar_of_isWord (h.isWord name rfl).1
  | literal value =>
    have all : ∀ value, ∀ word ∈ (literal value).spellings, word.all Text.isWordChar = true := by
      decide
    exact List.all_eq_true.1 (all value lexeme h.spelled)
  | not | operator | opening | closing | comma => cases takes

end Token

end Propositional
