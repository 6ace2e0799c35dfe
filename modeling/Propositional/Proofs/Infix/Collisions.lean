import Mathlib.Data.List.Chain
import Propositional.Proofs.Infix.Injective
import Propositional.Proofs.Infix.Latex
import Propositional.Proofs.Name.Subscript

/-!
# Formulas that look the same in math mode

The LaTeX form of a formula can be read token by token: no command starts another, and a name ends
where a command or a space starts. So it tells all of the formula but what the form of a name does
not tell: whether an underscore stands before a subscript of digits.

Results:
1. `MathName.append_inj`: where a typeset name ends.
2. `Token.sign_append_inj`, `Token.endsName_of_sign`: which command comes next, and that it is no
   part of a name.
3. `rename_eq_of_append`: one token at the start of a LaTeX form.
4. `map_rename_eq_of_latexOf`: all of its tokens, by induction on them.
5. `Formula.latex_eq_iff`: which formulas have the same LaTeX form.
-/

namespace Propositional

/-! ## The end of a name -/

/-- The characters of typeset names that stand for themselves. -/
def Text.isMathChar (c : Char) : Bool := isWordChar c || c == '\x7b' || c == '\x7d'

/-- The characters of a typeset name, in which an underscore that is meant has a backslash. -/
inductive MathName : List Char → Prop
  | nil : MathName []
  | char {c : Char} {rest : List Char} :
      Text.isMathChar c = true → MathName rest → MathName (c :: rest)
  | underscore {rest : List Char} : MathName rest → MathName ('\\' :: '_' :: rest)

/-- What cannot be the next character of a name. -/
def EndsName (rest : List Char) : Prop :=
  (∀ c ∈ rest.head?, Text.isMathChar c = false) ∧ ¬ ['\\', '_'] <+: rest

theorem endsName_nil : EndsName [] := ⟨fun _ mem => by simp at mem, by simp⟩

namespace MathName

theorem append {name more : List Char} (h : MathName name) (h' : MathName more) :
    MathName (name ++ more) := by
  induction h with
  | nil => exact h'
  | char math _ ih => exact .char math ih
  | underscore _ ih => exact .underscore ih

theorem eq_nil_of_ends {name rest : List Char} (h : MathName name)
    (ends : EndsName (name ++ rest)) : name = [] := by
  cases h with
  | nil => rfl
  | char math => cases math.symm.trans (ends.1 _ rfl)
  | underscore => exact absurd (List.prefix_append ['\\', '_'] _) ends.2

/-- Of a name and what cannot be part of it, it is seen where the name ends. -/
theorem append_inj {name other rest rest' : List Char} (h : MathName name) (h' : MathName other)
    (ends : EndsName rest) (ends' : EndsName rest') (same : name ++ rest = other ++ rest') :
    name = other ∧ rest = rest' := by
  have backslash : Text.isMathChar '\\' = false := by decide
  induction h generalizing other with
  | nil =>
    have start : EndsName (other ++ rest') := same ▸ ends
    cases h'.eq_nil_of_ends start
    exact ⟨rfl, same⟩
  | @char c tail math inner ih =>
    cases h' with
    | nil =>
      have start : EndsName (c :: tail ++ rest) := by
        rw [same]
        exact ends'
      cases (MathName.char math inner).eq_nil_of_ends start
    | char _ inner' =>
      obtain ⟨rfl, later⟩ := List.cons.inj same
      obtain ⟨rfl, rests⟩ := ih inner' later
      exact ⟨rfl, rests⟩
    | underscore =>
      obtain ⟨rfl, -⟩ := List.cons.inj same
      cases math.symm.trans backslash
  | @underscore tail inner ih =>
    cases h' with
    | nil =>
      have start : EndsName ('\\' :: '_' :: tail ++ rest) := by
        rw [same]
        exact ends'
      cases (MathName.underscore inner).eq_nil_of_ends start
    | char math =>
      obtain ⟨rfl, -⟩ := List.cons.inj same
      cases math.symm.trans backslash
    | underscore inner' =>
      obtain ⟨-, later⟩ := List.cons.inj same
      obtain ⟨rfl, rests⟩ := ih inner' (List.cons.inj later).2
      exact ⟨rfl, rests⟩

/-- An escaped word is made of the characters of names. -/
theorem of_escaped {chars : List Char} (plain : Name.Plain chars) :
    MathName (Name.escapeUnderscores chars) := by
  induction chars with
  | nil => exact .nil
  | cons c chars ih =>
    obtain ⟨first, others⟩ := List.forall_mem_cons.1 plain
    rw [Name.escapeUnderscores, List.flatMap_cons]
    split
    · exact .underscore (ih others)
    · exact .char (by simp [Text.isMathChar, first]) (ih others)

theorem of_latex {name : Name} (plain : Name.Plain name.text.toList) :
    MathName name.latex.toList := by
  cases divides : Name.subscript? name.text.toList with
  | none =>
    rw [Name.latex_of_none divides]
    exact of_escaped plain
  | some parts =>
    obtain ⟨base, sub⟩ := Name.plain_of_subscript? plain divides
    rw [Name.latex_of_some divides, Name.latexParts]
    have opening : MathName ['_', '\x7b'] := .char (by decide) (.char (by decide) .nil)
    have closing : MathName ['\x7d'] := .char (by decide) .nil
    exact (((of_escaped base).append opening).append (of_escaped sub)).append closing

end MathName

/-! ## Commands -/

namespace Token

/-- Whether the token is a word. -/
def isWord : Token → Bool
  | .word _ => true
  | _ => false

theorem isWord_iff {t : Token} : t.isWord = true ↔ ∃ name, t = .word name := by
  cases t <;> simp [isWord]

/-- The tokens that are no words. -/
def signs : List Token :=
  [.literal true, .literal false, .not, .operator .and, .operator .or, .operator .xor,
    .operator .implies, .operator .equiv, .opening, .closing, .comma]

theorem mem_signs {t : Token} (sign : t.isWord = false) : t ∈ signs := by
  cases t with
  | word => cases sign
  | literal value => cases value <;> decide
  | operator op => cases op <;> decide
  | not | opening | closing | comma => decide

/-- No command is the start of another. -/
theorem signs_prefixFree : signs.all (fun t => signs.all fun u =>
    !t.latex.toList.isPrefixOf u.latex.toList || t == u) = true := by decide

section Signs

variable {t u : Token} (sign : t.isWord = false) (sign' : u.isWord = false)
include sign sign'

theorem sign_eq_of_starts (h : t.latex.toList <+: u.latex.toList) : t = u := by
  have free := List.all_eq_true.1 (List.all_eq_true.1 signs_prefixFree t (mem_signs sign)) u
    (mem_signs sign')
  simpa [List.isPrefixOf_iff_prefix.2 h] using free

/-- Of a text that starts with a command, it is seen with which. -/
theorem sign_append_inj {rest rest' : List Char}
    (same : t.latex.toList ++ rest = u.latex.toList ++ rest') : t = u ∧ rest = rest' := by
  have starts : u.latex.toList <+: t.latex.toList ++ rest := by
    rw [same]
    exact List.prefix_append _ _
  have equal : t = u := by
    rcases List.prefix_or_prefix_of_prefix (List.prefix_append _ rest) starts with before | before
    · exact sign_eq_of_starts sign sign' before
    · exact (sign_eq_of_starts sign' sign before).symm
  subst equal
  exact ⟨rfl, List.append_cancel_left same⟩

end Signs

/-- No command is what a name could go on with. -/
theorem signs_endName : signs.all (fun t => t.latex.toList.head?.any (!Text.isMathChar ·) &&
    !(['\\', '_'].isPrefixOf t.latex.toList) && !t.latex.toList.isPrefixOf ['\\', '_']) = true := by
  decide

theorem endsName_of_sign {t : Token} (sign : t.isWord = false) (rest : List Char) :
    EndsName (t.latex.toList ++ rest) := by
  have checked := List.all_eq_true.1 signs_endName t (mem_signs sign)
  simp only [Bool.and_eq_true, Bool.not_eq_true', ← Bool.not_eq_true,
    List.isPrefixOf_iff_prefix] at checked
  obtain ⟨⟨first, short⟩, long⟩ := checked
  constructor
  · obtain ⟨c, head, other⟩ := (Option.any_eq_true ..).1 first
    intro c' mem
    rw [List.head?_append, head, Option.some_or] at mem
    cases mem
    simpa using other
  · intro underscore
    exact (List.prefix_or_prefix_of_prefix underscore (List.prefix_append _ rest)).elim short long

theorem latex_ne_nil (t : Token) : t.latex.toList ≠ [] := by
  intro empty
  cases word : t.isWord with
  | false =>
    have first := List.all_eq_true.1 signs_endName t (mem_signs word)
    simp [empty] at first
  | true =>
    cases t with
    | word name => exact name.latex_ne_nil empty
    | _ => cases word

end Token

/-! ## Tokens -/

/-- The words have the characters of words. -/
def PlainWords (ts : List Token) : Prop := ∀ name, .word name ∈ ts → Name.Plain name.text.toList

theorem plainWords_cons {t : Token} {ts : List Token} :
    PlainWords (t :: ts) ↔ PlainWords [t] ∧ PlainWords ts := by
  simp [PlainWords, or_imp, forall_and]

/-- No word follows a word. -/
def WordsApart (ts : List Token) : Prop :=
  ts.IsChain fun t u => t.isWord = false ∨ u.isWord = false

theorem wordsApart_cons {t : Token} {ts : List Token} : WordsApart (t :: ts) ↔
    (∀ u ∈ ts.head?, t.isWord = false ∨ u.isWord = false) ∧ WordsApart ts :=
  List.isChain_cons

theorem WordsApart.cons_sign {t : Token} {ts : List Token} (sign : t.isWord = false)
    (apart : WordsApart ts) : WordsApart (t :: ts) :=
  wordsApart_cons.2 ⟨fun _ _ => .inl sign, apart⟩

theorem WordsApart.append_sign {t : Token} {ts us : List Token} (apart : WordsApart ts)
    (sign : t.isWord = false) (apart' : WordsApart us) : WordsApart (ts ++ t :: us) := by
  refine List.IsChain.append apart (apart'.cons_sign sign) ?_
  rintro first - second mem
  exact .inr (Option.some.inj mem ▸ sign)

namespace Formula

theorem wordsApart_parenthesized {needed : Bool} {ts : List Token} (apart : WordsApart ts) :
    WordsApart (parenthesizedTokens needed ts) := by
  cases needed with
  | false => exact apart
  | true =>
    have closed : WordsApart (ts ++ [.closing]) := apart.append_sign rfl List.isChain_nil
    exact closed.cons_sign rfl

/-- Between two operands there is a sign. -/
theorem wordsApart_tokens (f : Formula) : WordsApart f.tokens := by
  induction f with
  | const | var => exact List.isChain_singleton _
  | not a ih => exact (wordsApart_parenthesized ih).cons_sign rfl
  | binary op a b iha ihb =>
    exact (wordsApart_parenthesized iha).append_sign rfl (wordsApart_parenthesized ihb)

theorem word_mem_parenthesized {needed : Bool} {ts : List Token} {name : Name} :
    .word name ∈ parenthesizedTokens needed ts ↔ .word name ∈ ts := by
  cases needed <;> simp [parenthesizedTokens]

/-- The words among the tokens are the names of the formula. -/
theorem word_mem_tokens {f : Formula} {name : Name} :
    .word name ∈ f.tokens ↔ name ∈ f.occurrences := by
  induction f with
  | const | var => simp [tokens, occurrences]
  | not a ih => simpa [tokens, occurrences, word_mem_parenthesized] using ih
  | binary op a b iha ihb => simp [tokens, occurrences, word_mem_parenthesized, iha, ihb]

end Formula

/-! ## Reading a LaTeX form -/

theorem toList_latexOf_cons (t : Token) (ts : List Token) :
    (latexOf (t :: ts)).toList = t.latex.toList ++ (latexOf ts).toList := by
  rw [latexOf_cons, String.toList_append]

/-- What comes after a word ends its name. -/
theorem WordsApart.endsName {t : Token} {ts : List Token} (apart : WordsApart (t :: ts))
    (word : t.isWord = true) : EndsName (latexOf ts).toList := by
  cases ts with
  | nil => exact endsName_nil
  | cons u us =>
    rw [toList_latexOf_cons]
    refine Token.endsName_of_sign ?_ _
    exact ((wordsApart_cons.1 apart).1 u rfl).resolve_left (by simp [word])

/-- No name starts with a command. -/
theorem append_ne_of_sign {name : Name} (plain : Name.Plain name.text.toList) {t : Token}
    (sign : t.isWord = false) {rest rest' : List Char} :
    name.latex.toList ++ rest ≠ t.latex.toList ++ rest' := by
  intro same
  have start : EndsName (name.latex.toList ++ rest) := by
    rw [same]
    exact Token.endsName_of_sign sign rest'
  exact name.latex_ne_nil ((MathName.of_latex plain).eq_nil_of_ends start)

/-- One token: where it ends, and which token it is but for an underscore that does not show. -/
theorem rename_eq_of_append {t u : Token} {rest rest' : List Char}
    (plain : PlainWords [t]) (plain' : PlainWords [u])
    (ends : t.isWord = true → EndsName rest) (ends' : u.isWord = true → EndsName rest')
    (same : t.latex.toList ++ rest = u.latex.toList ++ rest') :
    t.rename Name.undivided = u.rename Name.undivided ∧ rest = rest' := by
  cases word : t.isWord with
  | false =>
    cases word' : u.isWord with
    | false =>
      obtain ⟨rfl, rests⟩ := Token.sign_append_inj word word' same
      exact ⟨rfl, rests⟩
    | true =>
      obtain ⟨name, rfl⟩ := Token.isWord_iff.1 word'
      exact absurd same.symm (append_ne_of_sign (plain' name List.mem_cons_self) word)
  | true =>
    obtain ⟨name, rfl⟩ := Token.isWord_iff.1 word
    cases word' : u.isWord with
    | false => exact absurd same (append_ne_of_sign (plain name List.mem_cons_self) word')
    | true =>
      obtain ⟨name', rfl⟩ := Token.isWord_iff.1 word'
      have typeset := MathName.of_latex (plain name List.mem_cons_self)
      have typeset' := MathName.of_latex (plain' name' List.mem_cons_self)
      rw [Token.latex, Token.latex] at same
      obtain ⟨names, rests⟩ := typeset.append_inj typeset' (ends word) (ends' word') same
      have same' := Name.undivided_eq_of_latex (plain name List.mem_cons_self)
        (plain' name' List.mem_cons_self) (String.toList_inj.1 names)
      exact ⟨congrArg Token.word same', rests⟩

/-- The tokens of a LaTeX form are known but for the underscores that do not show. -/
theorem map_rename_eq_of_latexOf {ts us : List Token} (apart : WordsApart ts)
    (apart' : WordsApart us) (plain : PlainWords ts) (plain' : PlainWords us)
    (same : (latexOf ts).toList = (latexOf us).toList) :
    ts.map (Token.rename Name.undivided) = us.map (Token.rename Name.undivided) := by
  induction ts generalizing us with
  | nil =>
    cases us with
    | nil => rfl
    | cons u us =>
      rw [toList_latexOf_cons] at same
      exact absurd (List.append_eq_nil_iff.1 same.symm).1 u.latex_ne_nil
  | cons t ts ih =>
    cases us with
    | nil =>
      rw [toList_latexOf_cons] at same
      exact absurd (List.append_eq_nil_iff.1 same).1 t.latex_ne_nil
    | cons u us =>
      rw [toList_latexOf_cons, toList_latexOf_cons] at same
      obtain ⟨plainT, plainTs⟩ := plainWords_cons.1 plain
      obtain ⟨plainU, plainUs⟩ := plainWords_cons.1 plain'
      obtain ⟨first, rests⟩ :=
        rename_eq_of_append plainT plainU apart.endsName apart'.endsName same
      have others := ih (wordsApart_cons.1 apart).2 (wordsApart_cons.1 apart').2 plainTs plainUs
        rests
      rw [List.map_cons, List.map_cons, first, others]

theorem latexOf_undivided (ts : List Token) :
    latexOf (ts.map (Token.rename Name.undivided)) = latexOf ts := by
  induction ts with
  | nil => rfl
  | cons t ts ih =>
    rw [List.map_cons, latexOf_cons, latexOf_cons, ih]
    cases t with
    | word name => rw [Token.rename, Token.latex, Token.latex, name.latex_undivided]
    | _ => rfl

namespace Formula

theorem latex_undivided (f : Formula) : (f.rename Name.undivided).latex = f.latex := by
  rw [← latexOf_tokens, tokens_rename, latexOf_undivided, latexOf_tokens]

theorem plainWords_tokens {f : Formula}
    (words : ∀ name ∈ f.occurrences, Text.isWord name.text.toList = true) :
    PlainWords f.tokens :=
  fun name mem => Text.isWordChar_of_isWord (words name (word_mem_tokens.1 mem))

/-- Formulas that look the same are the same but for the underscores that do not show. -/
theorem rename_undivided_eq_of_latex {f g : Formula}
    (words : ∀ name ∈ f.occurrences, Text.isWord name.text.toList = true)
    (words' : ∀ name ∈ g.occurrences, Text.isWord name.text.toList = true)
    (same : f.latex = g.latex) : f.rename Name.undivided = g.rename Name.undivided := by
  refine tokens_injective ?_
  rw [tokens_rename, tokens_rename]
  refine map_rename_eq_of_latexOf f.wordsApart_tokens g.wordsApart_tokens
    (plainWords_tokens words) (plainWords_tokens words') ?_
  rw [latexOf_tokens, latexOf_tokens, same]

/-- The LaTeX forms of two formulas whose names are words are the same exactly if the formulas are
after leaving out, in both, the underscore of every name that is a base, an underscore and a
subscript of digits, where the base has no underscore and no digit at its end. -/
theorem latex_eq_iff {f g : Formula}
    (words : ∀ name ∈ f.occurrences, Text.isWord name.text.toList = true)
    (words' : ∀ name ∈ g.occurrences, Text.isWord name.text.toList = true) :
    (∀ name base digits, Name.Divided name base digits →
      name.undivided.text = String.ofList (base ++ digits)) ∧
    (∀ name : Name, (∀ base digits, ¬ name.Divided base digits) → name.undivided = name) ∧
    (f.latex = g.latex ↔ f.rename Name.undivided = g.rename Name.undivided) := by
  refine ⟨fun _ _ _ divided => divided.text_undivided,
    fun _ whole => Name.undivided_eq_self whole, ?_, ?_⟩
  · exact rename_undivided_eq_of_latex words words'
  · intro same
    rw [← f.latex_undivided, same, g.latex_undivided]

/-- `x_1 & y` and `x1 & y` look the same. `x__1` and `x_1` do not, although both have a base and
a subscript. -/
theorem latex_eq_iff_subscripts :
    (Formula.binary .and (.var ⟨"x_1", by decide⟩) (.var ⟨"y", by decide⟩)).latex =
      (Formula.binary .and (.var ⟨"x1", by decide⟩) (.var ⟨"y", by decide⟩)).latex ∧
    (Formula.var ⟨"x__1", by decide⟩).latex ≠ (Formula.var ⟨"x_1", by decide⟩).latex := by
  constructor
  · exact (latex_eq_iff (by decide) (by decide)).2.2.2 (by decide)
  · intro same
    exact absurd ((latex_eq_iff (by decide) (by decide)).2.2.1 same) (by decide)

end Formula

end Propositional
