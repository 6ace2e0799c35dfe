import Propositional.Proofs.Infix.Injective
import Propositional.Proofs.Token.Calls

/-!
# The infix form has the fewest parentheses

A derivation without calls opens a parenthesis wherever an operand binds less strongly than its
level: no rule but that of the group leads back from a primary to a weaker level. The infix
form opens a parenthesis there and nowhere else. A call groups all its arguments with one pair,
so a text with calls may do with fewer: `And(A | B, C | D)` has one where the infix form
`(A | B) & (C | D)` has two.

Results:
1. `Derives.openings_le`: the parentheses of a phrase are at least those of its tree.
2. `Formula.separated_text`: no parenthesis of the infix form has a word or a group before it.
3. `Formula.text_fewest_parentheses`: of all the texts of a formula without calls, none has
   fewer parentheses than the infix form, and no pair can be taken out of that.
-/

namespace Propositional

open Reading (kinds)

/-! ## Parentheses of a tree -/

namespace Formula

/-- The opening parentheses of the infix form where a phrase of the level has to stand. -/
def openings (level : Level) (f : Formula) : Nat :=
  f.tokens.count .opening + if f.strength < level.strength then 1 else 0

theorem count_parenthesizedTokens (needed : Bool) (ts : List Token) :
    (parenthesizedTokens needed ts).count .opening =
      ts.count .opening + if needed then 1 else 0 := by
  cases needed <;> simp [parenthesizedTokens]

theorem openings_of_le {level : Level} {f : Formula} (h : level.strength ≤ f.strength) :
    f.openings level = f.tokens.count .opening := by
  rw [openings, if_neg (Nat.not_lt.2 h), Nat.add_zero]

theorem openings_le_succ (level : Level) (f : Formula) :
    f.openings level ≤ f.tokens.count .opening + 1 := by
  unfold openings
  split <;> simp

/-- A stronger level asks for no fewer parentheses. -/
theorem openings_mono {level level' : Level} (h : level.strength ≤ level'.strength)
    (f : Formula) : f.openings level ≤ f.openings level' := by
  unfold openings
  refine Nat.add_le_add_left ?_ _
  split
  · rename_i weaker
    rw [if_pos (Nat.lt_of_lt_of_le weaker h)]
  · exact Nat.zero_le _

/-- A whole formula stands without parentheses. -/
theorem openings_whole (f : Formula) :
    f.openings (.joined .equiv) = f.tokens.count .opening :=
  @openings_of_le (.joined .equiv) f f.one_le_strength

theorem openings_not (a : Formula) :
    (Formula.not a).openings .negation = a.openings .negation := by
  have needed : a.bracketedInNot = decide (a.strength < Level.strength .negation) := rfl
  rw [openings_of_le (Nat.le_refl (Level.strength .negation)), tokens,
    List.count_cons_of_ne (by decide), count_parenthesizedTokens, needed]
  simp only [openings, decide_eq_true_eq]

theorem openings_binary (op : Connective) (a b : Formula) :
    (Formula.binary op a b).openings (.joined op) =
      a.openings (.ofSide op .left) + b.openings (.ofSide op .right) := by
  have symbol : Token.operator op ≠ .opening := by simp
  rw [openings_of_le (Nat.le_refl (Level.strength (.joined op))), tokens, List.count_append,
    List.count_cons_of_ne symbol, count_parenthesizedTokens, count_parenthesizedTokens,
    bracketed_eq, bracketed_eq]
  simp only [openings, decide_eq_true_eq]

end Formula

/-! ## Parentheses of a derivation -/

mutual

/-- The phrase has at least the parentheses that its tree needs at the level. -/
theorem Derives.openings_le {level : Level} {d : Nat} {ts : List Token} {f : Formula}
    (h : Derives level d ts f) (free : CallFree ts) : f.openings level ≤ ts.count .opening := by
  match h with
  | .literal => exact Nat.le_refl _
  | .var _ => exact Nat.le_refl _
  | @Derives.group _ inside _ inner =>
    have within : CallFree inside := free.tail.left_of_append
    calc f.openings .primary
        ≤ f.tokens.count .opening + 1 := f.openings_le_succ _
      _ = f.openings (.joined .equiv) + 1 := by rw [Formula.openings_whole]
      _ ≤ inside.count .opening + 1 := Nat.succ_le_succ (inner.openings_le within)
      _ = (Token.opening :: inside ++ [Token.closing]).count .opening := by simp
  | .call _ inner applied =>
    -- the name of the function has a parenthesis after it
    exact absurd rfl ((List.isChain_cons_cons.1 free).1 _ rfl)
  | .bare only =>
    exact Nat.le_trans (f.openings_mono (by decide)) (only.openings_le free)
  | @Derives.not _ operand a inner =>
    calc (Formula.not a).openings .negation
        = a.openings .negation := a.openings_not
      _ ≤ operand.count .opening := inner.openings_le free.tail
      _ = (Token.not :: operand).count .opening := by simp
  | @Derives.chain op _ _ ts us a _ left first more =>
    calc f.openings (.joined op)
        ≤ a.openings (.joined op) + us.count .opening :=
          more.openings_le left free.right_of_append
      _ ≤ a.openings (.operand op) + us.count .opening :=
          Nat.add_le_add_right (a.openings_mono (Level.strength_le_operand op)) _
      _ ≤ ts.count .opening + us.count .opening :=
          Nat.add_le_add_right (first.openings_le free.left_of_append) _
      _ = (ts ++ us).count .opening := List.count_append.symm
  | .alone only =>
    exact Nat.le_trans (f.openings_mono (Level.strength_le_operand _)) (only.openings_le free)
  | @Derives.implies _ _ ts us a b first inner =>
    calc (Formula.binary .implies a b).openings (.joined .implies)
        = a.openings (.operand .implies) + b.openings (.joined .implies) :=
          Formula.openings_binary .implies a b
      _ ≤ ts.count .opening + us.count .opening :=
          Nat.add_le_add (first.openings_le free.left_of_append)
            (inner.openings_le free.right_of_append.tail)
      _ = (ts ++ .operator .implies :: us).count .opening := by simp

/-- The steps of a chain add the parentheses that their operands need. -/
theorem Steps.openings_le {op : Connective} {d : Nat} {ts : List Token} {f g : Formula}
    (h : Steps op f d ts g) (left : op ≠ .implies) (free : CallFree ts) :
    g.openings (.joined op) ≤ f.openings (.joined op) + ts.count .opening := by
  match h with
  | .done => exact Nat.le_refl _
  | @Steps.step _ _ _ ts us _ b _ next more =>
    have joined : (Formula.binary op f b).openings (.joined op) =
        f.openings (.joined op) + b.openings (.operand op) := by
      rw [Formula.openings_binary]
      cases op <;> first | rfl | contradiction
    calc g.openings (.joined op)
        ≤ (Formula.binary op f b).openings (.joined op) + us.count .opening :=
          more.openings_le left free.tail.right_of_append
      _ = f.openings (.joined op) + (b.openings (.operand op) + us.count .opening) := by
          rw [joined, Nat.add_assoc]
      _ ≤ f.openings (.joined op) + (ts.count .opening + us.count .opening) :=
          Nat.add_le_add_left
            (Nat.add_le_add_right (next.openings_le free.tail.left_of_append) _) _
      _ = f.openings (.joined op) + (Token.operator op :: (ts ++ us)).count .opening := by simp

end

/-! ## Parentheses of the infix form -/

namespace Formula

theorem separated_parenthesized {needed : Bool} {text : String}
    (h : Separated text.toList) : Separated (parenthesized needed text).toList := by
  cases needed with
  | false => exact h
  | true =>
    have closing : Separated [')'] := separated_of_notMem (by decide)
    have closed : Separated (text.toList ++ [')']) :=
      h.append closing (unopened_of_solid rfl (by decide))
    have grouped : Separated ('(' :: (text.toList ++ [')'])) :=
      closed.cons (by decide)
    simpa [parenthesized] using grouped

theorem separated_symbol (op : Connective) {text : List Char} (h : Separated text) :
    Separated ((" " ++ op.symbol ++ " ").toList ++ text) := by
  refine h.signs ?_
  cases op <;> decide

theorem unopened_symbol (op : Connective) (text : List Char) :
    Unopened ((" " ++ op.symbol ++ " ").toList ++ text) := by
  cases op <;> exact unopened_of_solid ((Text.solid_append _ text).trans rfl) (by decide)

/-- Before an opening parenthesis of the infix form stands the start of the text, a sign of an
operation or another opening parenthesis. -/
theorem separated_text {f : Formula} (words : ∀ name ∈ f.occurrences, name.IsWord) :
    Separated f.text.toList := by
  induction f with
  | const value => cases value <;> exact separated_of_notMem (by decide)
  | var name =>
    obtain ⟨word, -⟩ := words name (by simp [occurrences])
    exact separated_of_notMem (Text.opening_notMem (Text.isWordChar_of_isWord word))
  | not a ih =>
    have operand : Separated (parenthesized a.bracketedInNot a.text).toList :=
      separated_parenthesized (ih words)
    rw [text, String.toList_append]
    exact operand.signs (by decide)
  | binary op a b iha ihb =>
    have left : Separated (parenthesized (bracketed op .left a) a.text).toList :=
      separated_parenthesized (iha fun name mem => words name (List.mem_append_left _ mem))
    have right : Separated (parenthesized (bracketed op .right b) b.text).toList :=
      separated_parenthesized (ihb fun name mem => words name (List.mem_append_right _ mem))
    rw [text, String.toList_append, String.toList_append, List.append_assoc]
    exact left.append (separated_symbol op right) (unopened_symbol op _)

/-- The opening parentheses of the infix form are those of its tokens. -/
theorem count_text {f : Formula} (words : ∀ name ∈ f.occurrences, name.IsWord) :
    f.text.toList.count '(' = f.tokens.count .opening := by
  obtain ⟨placed, scanned, same⟩ := scan_text words
  rw [← scan_count_opening scanned, same]

/-- A text of the formula has a parenthesis wherever the formula needs one. -/
theorem count_text_le {text : String} {f : Formula} {placed : List Placed}
    (read : parse text = .ok f) (scanned : scan text = .ok placed)
    (free : CallFree (kinds placed)) :
    f.text.toList.count '(' ≤ (kinds placed).count .opening := by
  obtain ⟨-, -, d, -, placed', scanned', derives⟩ := parse_ok_iff.1 read
  cases scanned.symm.trans scanned'
  calc f.text.toList.count '('
      = f.openings (.joined .equiv) := by
        rw [count_text (isWord_of_parse read), openings_whole]
    _ ≤ (kinds placed).count .opening := derives.openings_le free

/-- Without one of its pairs of parentheses, the infix form is a text of another formula, or
of none. -/
theorem parse_erase_ne {f : Formula} {before inside after : List Char}
    (pair : f.text.toList = before ++ '(' :: inside ++ ')' :: after) :
    parse (String.ofList (before ++ inside ++ after)) ≠ .ok f := by
  intro read
  obtain ⟨-, -, d, -, placed, scanned, -⟩ := parse_ok_iff.1 read
  have whole : Separated (before ++ '(' :: inside ++ ')' :: after) :=
    pair ▸ separated_text (isWord_of_parse read)
  have free : CallFree (kinds placed) :=
    Separated.callFree (by simpa using whole.erase_pair) scanned
  -- the text has one parenthesis less than the fewest
  have fewest := count_text_le read scanned free
  rw [scan_count_opening scanned, pair] at fewest
  have fewer : (before ++ inside ++ after).count '(' <
      (before ++ '(' :: inside ++ ')' :: after).count '(' := by simp
  rw [String.toList_ofList] at fewest
  exact Nat.not_lt.2 fewest fewer

/-- Whatever text without a call a formula is read from, it has at least as many opening
parentheses as the infix form of the formula; and without a pair of its parentheses, the infix
form is not read as the formula any more. -/
theorem text_fewest_parentheses :
    (∀ (text : String) (f : Formula), parse text = .ok f →
      ∃ tokens, scan text = .ok tokens ∧
        (CallFree (kinds tokens) → f.text.toList.count '(' ≤ (kinds tokens).count .opening)) ∧
    ∀ (f : Formula) (before inside after : List Char),
      f.text.toList = before ++ '(' :: inside ++ ')' :: after →
      parse (String.ofList (before ++ inside ++ after)) ≠ .ok f := by
  constructor
  · intro text f read
    obtain ⟨-, -, d, -, tokens, scanned, -⟩ := parse_ok_iff.1 read
    exact ⟨tokens, scanned, count_text_le read scanned⟩
  · intro f before inside after pair
    exact parse_erase_ne pair

/-- A text with a pair of parentheses too many, and the infix form without its only pair. -/
theorem text_fewest_parentheses_conjunction :
    ∃ f tokens, parse "((A | B) & C)" = .ok f ∧ f.text = "(A | B) & C" ∧
      scan "((A | B) & C)" = .ok tokens ∧ CallFree (kinds tokens) ∧
      f.text.toList.count '(' ≤ (kinds tokens).count .opening ∧ parse "A | B & C" ≠ .ok f := by
  let f : Formula := .binary .and
    (.binary .or (.var ⟨"A", by decide⟩) (.var ⟨"B", by decide⟩)) (.var ⟨"C", by decide⟩)
  have vars : ∀ name ∈ f.occurrences, name.IsVariable := by
    unfold Name.IsVariable
    decide
  have words : ∀ name ∈ f.occurrences, name.IsWord := fun name mem =>
    (Name.isVariable_iff.1 (vars name mem)).1
  have grouped : Adds (parenthesized true f.text).toList (parenthesizedTokens true f.tokens) [] :=
    adds_parenthesized (adds_text words) endsWord_nil
  obtain ⟨tokens, scanned, same⟩ := grouped.scan
  have derives : Derives .primary (f.nesting + 1) (kinds tokens) f :=
    same ▸ .group (derives_tokens (fun name mem =>
      (Name.isVariable_iff.1 (vars name mem)).2) (.joined .equiv) (by decide))
  have read : parse (parenthesized true f.text) = .ok f :=
    parse_ok_iff.2 ⟨rfl, by decide, _, by decide, tokens, scanned, derives.loosen _ (by decide)⟩
  have free : CallFree (kinds tokens) :=
    Separated.callFree (separated_parenthesized (separated_text words)) scanned
  obtain ⟨tokens', scanned', fewest⟩ := text_fewest_parentheses.1 _ _ read
  cases scanned.symm.trans scanned'
  exact ⟨f, tokens, read, rfl, scanned, free, fewest free,
    text_fewest_parentheses.2 f [] "A | B".toList " & C".toList (by decide)⟩

end Formula

end Propositional
