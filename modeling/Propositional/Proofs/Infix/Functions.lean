import Mathlib.Data.Set.List
import Propositional.Proofs.Infix.Tokens
import Propositional.Proofs.Reading.Exactness
import Propositional.Proofs.Token.Parts

/-!
# Functions and their infix forms

`And(a, b, c)` and `(a) & (b) & (c)` are texts of one formula. In the call every operand is
inside one construct, the call itself; in the chain every operand is inside its parentheses.
So both forms are nested equally deep. The sign of a negation and the right side of `>>` are
constructs of their own: there the infix form can be nested one deeper than the call.

Results:
1. `adds_intercalate`: the tokens of texts with a separator between them.
2. `arguments_and_steps`: operands between commas and the same operands in parentheses between
   connectives, by induction on their list: one depth and one chain of trees.
3. `exists_isText_chain`, `isText_not`, `isText_implies`: the formula of both forms.
4. `parse_function_forms`: what both forms are read as, also at the limits.
5. `parse_sign_tooDeep`: where the infix form of a negation is nested too deep and the call is not.
-/

namespace Propositional

open Reading (kinds)

/-! ## Texts with a separator -/

/-- Pieces that are divided by a separator add their tokens, and those of the separator. -/
theorem adds_intercalate {α : Type} {text : α → String} {tokens : α → List Token}
    {separator : String} {between : List Token} {rest : List Char} {pieces : List α}
    (adds : ∀ a ∈ pieces, ∀ rest, Parted rest → Adds (text a).toList (tokens a) rest)
    (divides : ∀ rest, Parted (separator.toList ++ rest))
    (separates : ∀ rest, Adds separator.toList between rest) (parted : Parted rest) :
    Adds (separator.intercalate (pieces.map text)).toList
      (between.intercalate (pieces.map tokens)) rest := by
  induction pieces with
  | nil => exact adds_nil rest
  | cons a pieces ih =>
    obtain ⟨first, others⟩ := List.forall_mem_cons.1 adds
    cases pieces with
    | nil => simpa using first rest parted
    | cons b pieces =>
      simp only [List.map_cons, String.intercalate_cons_cons, List.intercalate_cons_cons,
        String.toList_append] at ih ⊢
      exact (Adds.append (first _ (divides _)) (separates _)).append (ih others)

/-- The symbol of a connective, with its blanks, divides a text. -/
theorem parted_symbol (op : Connective) (rest : List Char) :
    Parted ((" " ++ op.symbol ++ " ").toList ++ rest) := by
  rw [String.toList_append, String.toList_append]
  exact parted_blank (by decide) _

/-! ## The two forms -/

namespace Formula

/-- The call of a function: `And(a, b, c)`. -/
def callText (function : String) (operands : List String) : String :=
  function ++ "(" ++ ", ".intercalate operands ++ ")"

/-- The operands in parentheses, with the connective between them: `(a) & (b) & (c)`. -/
def chainText (op : Connective) (operands : List String) : String :=
  (" " ++ op.symbol ++ " ").intercalate (operands.map fun a => "(" ++ a ++ ")")

/-- The text is read as a formula, or it would be if it were not a constant. -/
def IsOperand (text : String) : Prop :=
  (∃ f, parse text = .ok f) ∨ parse text = .error .notSymbolic

/-- A text with its tokens, and their derivation as a formula. -/
structure Operand where
  text : String
  tokens : List Token
  depth : Nat
  tree : Formula
  adds : ∀ rest, Parted rest → Adds text.toList tokens rest
  derives : Derives (.joined .equiv) depth tokens tree

theorem IsText.exists_operand {f : Formula} {d : Nat} {text : String} (h : f.IsText d text) :
    ∃ operand : Operand, operand.text = text := by
  obtain ⟨placed, scanned, derives⟩ := h
  exact ⟨⟨text, kinds placed, d, f, fun _ => adds_of_scan scanned, derives⟩, rfl⟩

theorem IsOperand.exists_operand {text : String} (h : IsOperand text) :
    ∃ operand : Operand, operand.text = text := by
  rcases h with ⟨f, read⟩ | constant
  · obtain ⟨-, -, d, -, written⟩ := parse_ok_iff.1 read
    exact written.exists_operand
  · obtain ⟨value, -, d, -, written⟩ := parse_notSymbolic_iff.1 constant
    exact written.exists_operand

theorem exists_operands {texts : List String} (h : ∀ text ∈ texts, IsOperand text) :
    ∃ operands : List Operand, operands.map Operand.text = texts := by
  have each : texts ∈ Set.range (List.map Operand.text) := by
    rw [Set.range_list_map]
    exact fun text mem => (h text mem).exists_operand
  exact each

/-! ## Their tokens -/

namespace Operand

/-- The operand in parentheses. -/
def group (a : Operand) : List Token := .opening :: a.tokens ++ [.closing]

theorem adds_group (a : Operand) (rest : List Char) :
    Adds ("(" ++ a.text ++ ")").toList a.group rest := by
  have closing : Parted (")".toList ++ rest) := parted_cons (by decide) rfl rest
  rw [String.toList_append, String.toList_append]
  exact ((adds_sign rfl _).append (a.adds _ closing)).append (adds_sign rfl _)

theorem derives_group (a : Operand) (level : Level) : Derives level (a.depth + 1) a.group a.tree :=
  a.derives.group.loosen level level.strength_le

theorem adds_call {name : Name} (word : name.IsWord) (operands : List Operand) :
    Adds (callText name.text (operands.map text)).toList
      (.word name :: .opening :: [.comma].intercalate (operands.map tokens) ++ [.closing]) [] := by
  have separates (rest : List Char) : Adds ", ".toList [.comma] rest :=
    (adds_sign rfl _).append (adds_blank (by decide) rest)
  have divides (rest : List Char) : Parted (", ".toList ++ rest) :=
    parted_cons (by decide) rfl _
  have closing : Parted (")".toList ++ []) := parted_cons (by decide) rfl []
  have adds : ∀ a ∈ operands, ∀ rest, Parted rest → Adds a.text.toList a.tokens rest :=
    fun a _ => a.adds
  have inner := adds_intercalate adds divides separates closing
  simp only [callText, String.toList_append]
  refine (Adds.append (Adds.append (adds_name word ?_) (adds_sign rfl _)) inner).append
    (adds_sign rfl _)
  exact endsWord_cons (by decide) _

theorem adds_chain (op : Connective) (operands : List Operand) :
    Adds (chainText op (operands.map text)).toList
      ([.operator op].intercalate (operands.map group)) [] := by
  rw [chainText, List.map_map]
  exact adds_intercalate (fun a _ rest _ => a.adds_group rest) (parted_symbol op) (adds_symbol op)
    parted_nil

/-! ## Their derivations -/

/-- One construct is around every operand in the call, and one in the chain. -/
theorem arguments_and_steps (a : Operand) (rest : List Operand) :
    ∃ d, Arguments d ([.comma].intercalate ((a :: rest).map tokens)) ((a :: rest).map tree) ∧
      ∀ op f, Steps op f (d + 1)
        (.operator op :: [.operator op].intercalate ((a :: rest).map group))
        (((a :: rest).map tree).foldl (.binary op) f) := by
  induction rest generalizing a with
  | nil =>
    refine ⟨a.depth, ?_, fun op f => ?_⟩
    · simpa using Arguments.one a.derives
    · simpa using Steps.step (a.derives_group _) (.done (f := .binary op f a.tree))
  | cons b rest ih =>
    obtain ⟨d, arguments, steps⟩ := ih b
    refine ⟨max a.depth d, ?_, fun op f => ?_⟩
    · simpa using Arguments.more a.derives arguments
    · have chain := Steps.step (a.derives_group _) (steps op (.binary op f a.tree))
      rw [Nat.add_max_add_right] at chain
      simpa using chain

/-- The names of functions are words. -/
theorem exists_name {function : String} {operation : Operation}
    (h : Operation.ofName? function = some operation) :
    ∃ name : Name, name.text = function ∧ name.IsWord := by
  unfold Operation.ofName? at h
  split at h
  case h_8 => cases h
  all_goals exact ⟨⟨_, by decide⟩, rfl, by decide, by decide, by decide⟩

theorem isText_call {function : String} {operation : Operation}
    (named : Operation.ofName? function = some operation) {operands : List Operand} {d : Nat}
    {f : Formula} (arguments : Arguments d ([.comma].intercalate (operands.map tokens))
      (operands.map tree)) (applied : operation.applied (operands.map tree) = some f) :
    f.IsText (d + 1) (callText function (operands.map text)) := by
  obtain ⟨name, rfl, word⟩ := exists_name named
  have call := Derives.call named arguments applied
  exact .of_adds (adds_call word operands) (call.loosen _ (by decide))

theorem isText_chain {op : Connective} {operands : List Operand} {d : Nat} {f : Formula}
    (derives : Derives (.joined op) d ([.operator op].intercalate (operands.map group)) f) :
    f.IsText d (chainText op (operands.map text)) :=
  .of_adds (adds_chain op operands) (derives.loosen _ (by cases op <;> decide))

/-- A chain and the call of its operands are one formula, and equally deep. -/
theorem exists_isText_chain {function : String} {op : Connective}
    (named : Operation.ofName? function = some (.binary op)) (left : op ≠ .implies)
    {operands : List Operand} (admitted : (Operation.binary op).arity.admits operands.length) :
    ∃ d f, IsText f d (callText function (operands.map text)) ∧
      IsText f d (chainText op (operands.map text)) := by
  match operands with
  | [] => cases op <;> cases admitted
  | [_] => cases op <;> cases admitted
  | a :: b :: rest =>
    obtain ⟨d, arguments, steps⟩ := arguments_and_steps b rest
    have call : Arguments (max a.depth d) ([.comma].intercalate ((a :: b :: rest).map tokens))
        ((a :: b :: rest).map tree) := by
      simpa using Arguments.more a.derives arguments
    have chain : Derives (.joined op) (max a.depth d + 1)
        ([.operator op].intercalate ((a :: b :: rest).map group))
        (((b :: rest).map tree).foldl (.binary op) a.tree) := by
      have chain := Derives.chain left (a.derives_group _) (steps op a.tree)
      rw [Nat.add_max_add_right] at chain
      simpa using chain
    have applied := Operation.applied_binary op a.tree ((b :: rest).map tree)
    rw [if_pos (by simpa using admitted)] at applied
    exact ⟨_, _, isText_call named call applied, isText_chain chain⟩

/-- A negation by its sign is one deeper than the call: the sign and the parentheses are two
constructs. -/
theorem isText_not (a : Operand) :
    IsText (.not a.tree) (a.depth + 1) (callText "Not" [a.text]) ∧
      IsText (.not a.tree) (a.depth + 1 + 1) ("~(" ++ a.text ++ ")") := by
  have arguments : Arguments a.depth ([.comma].intercalate ([a].map tokens)) ([a].map tree) := by
    simpa using Arguments.one a.derives
  have adds : Adds ("~(" ++ a.text ++ ")").toList (.not :: a.group) [] := by
    have sign : "~(" ++ a.text ++ ")" = "~" ++ ("(" ++ a.text ++ ")") := by
      rw [← String.append_assoc, ← String.append_assoc]
      rfl
    rw [sign, String.toList_append]
    exact (adds_sign rfl _).append (a.adds_group [])
  have named : Operation.ofName? "Not" = some .not := rfl
  have call := isText_call named arguments rfl
  have negation := (a.derives_group .negation).not
  exact ⟨call, .of_adds adds (negation.loosen _ (by decide))⟩

/-- The right operand of `>>` is inside one construct more than in the call. -/
theorem isText_implies (a b : Operand) :
    IsText (.binary .implies a.tree b.tree) (max a.depth b.depth + 1)
        (callText "Implies" [a.text, b.text]) ∧
      IsText (.binary .implies a.tree b.tree) (max (a.depth + 1) (b.depth + 1 + 1))
        (chainText .implies [a.text, b.text]) := by
  have arguments : Arguments (max a.depth b.depth) ([.comma].intercalate ([a, b].map tokens))
      ([a, b].map tree) := by
    simpa using Arguments.more a.derives (.one b.derives)
  have steps : Derives (.joined .implies) (max (a.depth + 1) (b.depth + 1 + 1))
      ([.operator .implies].intercalate ([a, b].map group))
      (.binary .implies a.tree b.tree) := by
    simpa using Derives.implies (a.derives_group _) (b.derives_group _)
  have named : Operation.ofName? "Implies" = some (.binary .implies) := rfl
  have call := isText_call named arguments rfl
  have chain := isText_chain steps
  exact ⟨call, chain⟩

end Operand

/-! ## What the two forms are read as -/

/-- The functions of the connectives whose chains group to the left. -/
def chainFunctions : List (String × Connective) :=
  [("And", .and), ("Or", .or), ("Xor", .xor), ("Eq", .equiv), ("Equivalent", .equiv)]

theorem chainFunctions_named :
    ∀ entry ∈ chainFunctions, Operation.ofName? entry.1 = some (.binary entry.2) ∧
      entry.2 ≠ .implies := by
  decide

/-- The call is read as what its infix form is read as. What the call is read as, the infix form
is read as too, unless it is nested just one construct too deep. -/
def CallSuffices (call form : String) : Prop :=
  ∀ f, (parse form = .ok f → parse call = .ok f) ∧
    (parse call = .ok f → parse form = .ok f ∨
      f.IsText 257 form ∧ ∃ column, parse form = .error (.malformed column .tooDeep))

theorem IsText.callSuffices {g : Formula} {d e : Nat} {call form : String}
    (h : g.IsText d call) (h' : g.IsText e form) (deeper : d ≤ e) (once : e ≤ d + 1) :
    CallSuffices call form := by
  intro f
  refine ⟨h.parse_of_deeper h' deeper, fun read => ?_⟩
  obtain ⟨proper, within⟩ := parse_ok_iff.1 read
  obtain ⟨rfl, low, depth⟩ := h.withinLimits_iff.1 within
  by_cases fits : e ≤ 256
  · exact .inl (parse_ok_iff.2 ⟨proper, h'.withinLimits_iff.2 ⟨rfl, low, fits⟩⟩)
  · obtain rfl : e = 257 := by omega
    have beyond : ¬ f.IsTextWithinLimits form := fun within =>
      fits (h'.withinLimits_iff.1 within).2.2
    exact .inr ⟨h', h'.parse_tooDeep beyond⟩

/-- A call and the chain of its operands in parentheses are read as the same formula, or neither
is, for every number of operands and also at the limits. The calls of `Not` and `Implies` are
read whenever their infix forms are. -/
theorem parse_function_forms :
    (∀ function op operands, (function, op) ∈ chainFunctions → 2 ≤ operands.length →
      (op = .equiv → operands.length = 2) → (∀ a ∈ operands, IsOperand a) →
      ∀ f, parse (callText function operands) = .ok f ↔ parse (chainText op operands) = .ok f) ∧
    (∀ a, IsOperand a → CallSuffices (callText "Not" [a]) ("~(" ++ a ++ ")")) ∧
    (∀ a b, IsOperand a → IsOperand b →
      CallSuffices (callText "Implies" [a, b]) (chainText .implies [a, b])) := by
  refine ⟨fun function op texts known many two all f => ?_, fun text operand => ?_,
    fun text text' operand operand' => ?_⟩
  · obtain ⟨operands, rfl⟩ := exists_operands all
    obtain ⟨named, left⟩ := chainFunctions_named (function, op) known
    have admitted : (Operation.binary op).arity.admits operands.length := by
      rw [List.length_map] at many two
      cases op with
      | and | or | xor => exact decide_eq_true many
      | equiv => exact decide_eq_true (two rfl)
      | implies => exact absurd rfl left
    obtain ⟨d, g, call, chain⟩ := Operand.exists_isText_chain named left admitted
    exact ⟨chain.parse_of_deeper call (Nat.le_refl d), call.parse_of_deeper chain (Nat.le_refl d)⟩
  · obtain ⟨a, rfl⟩ := operand.exists_operand
    obtain ⟨call, sign⟩ := a.isText_not
    exact call.callSuffices sign (Nat.le_succ _) (Nat.le_refl _)
  · obtain ⟨a, rfl⟩ := operand.exists_operand
    obtain ⟨b, rfl⟩ := operand'.exists_operand
    obtain ⟨call, chain⟩ := a.isText_implies b
    exact call.callSuffices chain (by omega) (by omega)

/-- Operands that bind less strongly than the connective around them, and a constant. -/
theorem parse_function_forms_constant :
    parse (callText "Xor" ["A == B", "0", "~A"]) =
        .ok (.binary .xor (.binary .xor (.binary .equiv (.var ⟨"A", by decide⟩)
          (.var ⟨"B", by decide⟩)) (.const false)) (.not (.var ⟨"A", by decide⟩))) ∧
      parse (callText "Not" ["0"]) = .ok (.not (.const false)) ∧
      parse (callText "Implies" ["~A", "0"]) =
        .ok (.binary .implies (.not (.var ⟨"A", by decide⟩)) (.const false)) := by
  have equivalence : IsOperand "A == B" := .inl ⟨_, by with_unfolding_all rfl⟩
  have negation : IsOperand "~A" := .inl ⟨_, by with_unfolding_all rfl⟩
  have constant : IsOperand "0" := .inr (by with_unfolding_all rfl)
  have all : ∀ text ∈ ["A == B", "0", "~A"], IsOperand text := by
    simpa using ⟨equivalence, constant, negation⟩
  refine ⟨?_, ?_, ?_⟩
  · refine (parse_function_forms.1 "Xor" .xor _ (by decide) (by decide) (by decide) all _).2 ?_
    with_unfolding_all rfl
  · refine (parse_function_forms.2.1 "0" constant _).1 ?_
    with_unfolding_all rfl
  · refine (parse_function_forms.2.2 "~A" "0" negation constant _).1 ?_
    with_unfolding_all rfl

/-- Around an operand that is nested 255 deep there is room for the call of `Not`, and not for
the sign and its parentheses. -/
theorem parse_sign_tooDeep {a : Operand} (deep : a.depth = 255) (low : a.tree.height ≤ 255) :
    parse (callText "Not" [a.text]) = .ok (.not a.tree) ∧
      ∃ column, parse ("~(" ++ a.text ++ ")") = .error (.malformed column .tooDeep) := by
  obtain ⟨call, sign⟩ := a.isText_not
  have low : (Formula.not a.tree).height ≤ 256 := Nat.succ_le_succ low
  refine ⟨parse_ok_iff.2 ⟨rfl, call.withinLimits_iff.2 ⟨rfl, low, by omega⟩⟩,
    sign.parse_tooDeep fun within => ?_⟩
  have depth := (sign.withinLimits_iff.1 within).2.2
  omega

end Formula

end Propositional
