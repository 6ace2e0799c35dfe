import Mathlib.Data.List.Basic
import Mathlib.Data.List.TakeWhile
import Propositional.Formula.Latex
import Propositional.Proofs.Text.Classes

/-!
# Names in math mode

The name of a variable is typeset with a subscript, if it has one: what follows its first
underscore, or the digits at its end. So `x_1` and `x1` look the same. No other names do: a name
can be read off its LaTeX form but for the underscore before a subscript of digits.

Results:
1. `Name.latex_undivided`: the underscore before a subscript of digits does not show.
2. `Name.undivided_eq_of_latex`: names that look the same differ in nothing else.
-/

namespace Propositional

namespace Name

/-! ## Dividing a name -/

/-- What is before the first underscore and what is after it, if that is anything. -/
theorem eq_append_underscore {chars : List Char}
    (after : (chars.dropWhile (· != '_')).drop 1 ≠ []) :
    chars = chars.takeWhile (· != '_') ++ '_' :: (chars.dropWhile (· != '_')).drop 1 := by
  induction chars with
  | nil => contradiction
  | cons c chars ih =>
    by_cases first : c = '_'
    · simp [first]
    · have other : (c != '_') = true := bne_iff_ne.2 first
      simp only [List.dropWhile_cons, List.takeWhile_cons, other, if_true] at after ⊢
      rw [List.cons_append, ← ih after]

theorem underscore_notMem_takeWhile (chars : List Char) : '_' ∉ chars.takeWhile (· != '_') := by
  intro mem
  exact bne_iff_ne.1 (List.mem_takeWhile_imp (p := (· != '_')) mem) rfl

theorem takeWhile_append_underscore {base : List Char} (rest : List Char) (plain : '_' ∉ base) :
    (base ++ '_' :: rest).takeWhile (· != '_') = base ∧
      ((base ++ '_' :: rest).dropWhile (· != '_')).drop 1 = rest := by
  have before : ∀ c ∈ base, (c != '_') = true := fun c mem => by
    rw [bne_iff_ne]
    rintro rfl
    exact plain mem
  rw [List.takeWhile_append_of_pos before, List.dropWhile_append_of_pos before]
  simp

/-- The digits at the end of a name are those after the last character that is none. -/
theorem splitDigits_eq_iff {chars base digits : List Char} :
    splitDigits chars = (base, digits) ↔ chars = base ++ digits ∧
      (∀ c ∈ digits, c.isDigit = true) ∧ ∀ c ∈ base.getLast?, c.isDigit = false := by
  constructor
  · intro split
    obtain ⟨rfl, rfl⟩ := Prod.mk.inj split
    refine ⟨?_, fun c mem => ?_, fun c mem => ?_⟩
    · rw [← List.reverse_append, List.takeWhile_append_dropWhile, List.reverse_reverse]
    · exact List.mem_takeWhile_imp (List.mem_reverse.1 mem)
    · rw [List.getLast?_reverse] at mem
      simpa [Option.mem_def.1 mem] using List.head?_dropWhile_not Char.isDigit chars.reverse
  · rintro ⟨rfl, all, last⟩
    have inside : ∀ c ∈ digits.reverse, c.isDigit = true := by simpa using all
    have none : base.reverse.dropWhile Char.isDigit = base.reverse ∧
        base.reverse.takeWhile Char.isDigit = [] := by
      rw [← List.head?_reverse] at last
      cases h : base.reverse with
      | nil => simp
      | cons c rest => simp [last c (by simp [h])]
    rw [splitDigits, List.reverse_append, List.dropWhile_append_of_pos inside,
      List.takeWhile_append_of_pos inside, none.1, none.2]
    simp

/-- What the base and the subscript of a name are. -/
theorem subscript?_eq_some {chars base sub : List Char} (h : subscript? chars = some (base, sub)) :
    chars = base ++ '_' :: sub ∧ '_' ∉ base ∨
      chars = base ++ sub ∧ base ≠ [] ∧ sub ≠ [] ∧ (∀ c ∈ sub, c.isDigit = true) ∧
        ∀ c ∈ base.getLast?, c.isDigit = false := by
  unfold subscript? at h
  dsimp only at h
  split at h
  · rename_i found
    cases h
    exact .inl ⟨eq_append_underscore found.2, underscore_notMem_takeWhile chars⟩
  · split at h
    · rename_i found
      cases h
      obtain ⟨same, all, last⟩ := splitDigits_eq_iff.1 (Prod.eta (splitDigits chars)).symm
      exact .inr ⟨same, found.1, found.2, all, last⟩
    · cases h

/-! ## Underscores before digits -/

/-- The name is the base, an underscore and the digits, and the digits could be told from the base
without the underscore. -/
structure Divided (name : Name) (base digits : List Char) : Prop where
  text_eq : name.text.toList = base ++ '_' :: digits
  base_ne_nil : base ≠ []
  underscore_notMem : '_' ∉ base
  last_base : ∀ c ∈ base.getLast?, c.isDigit = false
  digits_ne_nil : digits ≠ []
  isDigit_digits : ∀ c ∈ digits, c.isDigit = true

/-- The base and the digits of a name that is divided so. -/
def divided? (name : Name) : Option (List Char × List Char) :=
  let base := name.text.toList.takeWhile (· != '_')
  let digits := (name.text.toList.dropWhile (· != '_')).drop 1
  if base ≠ [] ∧ base.getLast?.all (fun c => !c.isDigit) = true ∧
      digits ≠ [] ∧ digits.all Char.isDigit = true then
    some (base, digits)
  else none

theorem all_last_iff {base : List Char} : base.getLast?.all (fun c => !c.isDigit) = true ↔
    ∀ c ∈ base.getLast?, c.isDigit = false := by
  cases base.getLast? <;> simp

theorem divided?_eq_some_iff {name : Name} {base digits : List Char} :
    name.divided? = some (base, digits) ↔ name.Divided base digits := by
  unfold divided?
  dsimp only
  constructor
  · intro found
    split at found
    · rename_i parts
      obtain ⟨nonempty, last, nonempty', all⟩ := parts
      cases found
      exact ⟨eq_append_underscore nonempty', nonempty, underscore_notMem_takeWhile _,
        all_last_iff.1 last, nonempty', List.all_eq_true.1 all⟩
    · cases found
  · intro divided
    obtain ⟨start, rest⟩ := takeWhile_append_underscore digits divided.underscore_notMem
    rw [divided.text_eq, start, rest]
    exact if_pos ⟨divided.base_ne_nil, all_last_iff.2 divided.last_base, divided.digits_ne_nil,
      List.all_eq_true.2 divided.isDigit_digits⟩

/-- The name without the underscore before its digits, if it is divided so. -/
def undivided (name : Name) : Name :=
  match name.divided? with
  | some (base, digits) => (ofString? (String.ofList (base ++ digits))).getD name
  | none => name

theorem Divided.text_undivided {name : Name} {base digits : List Char}
    (h : name.Divided base digits) : name.undivided.text = String.ofList (base ++ digits) := by
  have nonempty : String.ofList (base ++ digits) ≠ "" := by
    simp [← String.toList_inj, h.base_ne_nil]
  rw [undivided, divided?_eq_some_iff.2 h]
  simp only [ofString?, dif_pos nonempty, Option.getD_some]

theorem ext_toList {a b : Name} (same : a.text.toList = b.text.toList) : a = b := by
  cases a
  cases b
  exact Name.mk.injEq .. ▸ String.toList_inj.1 same

theorem undivided_eq_self {name : Name} (h : ∀ base digits, ¬ name.Divided base digits) :
    name.undivided = name := by
  have none : name.divided? = none := by
    cases found : name.divided? with
    | none => rfl
    | some parts => exact absurd (divided?_eq_some_iff.1 found) (h _ _)
  rw [undivided, none]

/-- Nothing divides the digits from the base where the underscore is left out. -/
theorem Divided.underscore_notMem_joined {name : Name} {base digits : List Char}
    (h : name.Divided base digits) : '_' ∉ base ++ digits := by
  intro mem
  rcases List.mem_append.1 mem with inside | inside
  · exact h.underscore_notMem inside
  · cases h.isDigit_digits '_' inside

/-- Such a name has the same subscript with and without the underscore. -/
theorem Divided.subscript?_eq {name : Name} {base digits : List Char}
    (h : name.Divided base digits) :
    subscript? (base ++ '_' :: digits) = some (base, digits) ∧
      subscript? (base ++ digits) = some (base, digits) := by
  obtain ⟨start, rest⟩ := takeWhile_append_underscore digits h.underscore_notMem
  constructor
  · rw [subscript?, start, rest]
    exact if_pos ⟨h.base_ne_nil, h.digits_ne_nil⟩
  · have none : ∀ c ∈ base ++ digits, (c != '_') = true := by
      intro c mem
      rw [bne_iff_ne]
      rintro rfl
      exact h.underscore_notMem_joined mem
    have split := splitDigits_eq_iff.2 ⟨rfl, h.isDigit_digits, h.last_base⟩
    rw [subscript?, List.dropWhile_eq_nil_iff.2 none, if_neg (by simp)]
    simp only [split]
    exact if_pos ⟨h.base_ne_nil, h.digits_ne_nil⟩

theorem latex_undivided (name : Name) : name.undivided.latex = name.latex := by
  by_cases divided : ∃ base digits, name.Divided base digits
  · obtain ⟨base, digits, h⟩ := divided
    obtain ⟨divided, joined⟩ := h.subscript?_eq
    have text : name.undivided.text.toList = base ++ digits := by
      rw [h.text_undivided, String.toList_ofList]
    simp only [latex, text, h.text_eq, divided, joined]
  · rw [undivided_eq_self fun base digits h => divided ⟨base, digits, h⟩]

/-! ## Reading a typeset name -/

/-- The characters of a name that is a word. -/
def Plain (chars : List Char) : Prop := ∀ c ∈ chars, Text.isWordChar c = true

theorem Plain.append_left {chars more : List Char} (h : Plain (chars ++ more)) : Plain chars :=
  fun c mem => h c (List.mem_append_left _ mem)

theorem Plain.append_right {chars more : List Char} (h : Plain (chars ++ more)) : Plain more :=
  fun c mem => h c (List.mem_append_right _ mem)

theorem Plain.notMem {chars : List Char} (h : Plain chars) {c : Char}
    (other : Text.isWordChar c = false) : c ∉ chars := by
  intro mem
  cases other.symm.trans (h c mem)

theorem mem_escapeUnderscores {chars : List Char} {c : Char} (mem : c ∈ escapeUnderscores chars) :
    c = '\\' ∨ c ∈ chars := by
  obtain ⟨original, there, copied⟩ := List.mem_flatMap.1 mem
  split at copied
  · rename_i underscore
    subst underscore
    rcases List.mem_cons.1 copied with backslash | same
    · exact .inl backslash
    · exact .inr (List.mem_singleton.1 same ▸ there)
  · exact .inr (List.mem_singleton.1 copied ▸ there)

/-- Without its backslashes an escaped name is the name. -/
theorem filter_escapeUnderscores {chars : List Char} (plain : '\\' ∉ chars) :
    (escapeUnderscores chars).filter (· != '\\') = chars := by
  induction chars with
  | nil => rfl
  | cons c chars ih =>
    obtain ⟨first, others⟩ := not_or.1 (mt List.mem_cons.2 plain)
    have later := ih others
    by_cases underscore : c = '_'
    · simp [escapeUnderscores, underscore] at later ⊢
      exact later
    · simp [escapeUnderscores, underscore, Ne.symm first] at later ⊢
      exact later

theorem escapeUnderscores_inj {chars others : List Char} (plain : Plain chars)
    (plain' : Plain others) (same : escapeUnderscores chars = escapeUnderscores others) :
    chars = others := by
  have backslash : Text.isWordChar '\\' = false := by decide
  rw [← filter_escapeUnderscores (plain.notMem backslash), same,
    filter_escapeUnderscores (plain'.notMem backslash)]

theorem brace_notMem_escapeUnderscores {chars : List Char} (plain : Plain chars) :
    '\x7b' ∉ escapeUnderscores chars := by
  intro mem
  rcases mem_escapeUnderscores mem with backslash | inside
  · cases backslash
  · exact plain.notMem (by decide) inside

/-- Base and subscript with their commands. -/
def latexParts (base sub : List Char) : List Char :=
  escapeUnderscores base ++ ['_', '\x7b'] ++ escapeUnderscores sub ++ ['\x7d']

theorem latexParts_inj {base sub base' sub' : List Char} (plain : Plain base) (plain' : Plain base')
    (plainSub : Plain sub) (plainSub' : Plain sub')
    (same : latexParts base sub = latexParts base' sub') : base = base' ∧ sub = sub' := by
  have notMem {chars : List Char} (plain : Plain chars) {sign : Char} (other : '\x7b' ≠ sign) :
      '\x7b' ∉ escapeUnderscores chars ++ [sign] := by
    simp [brace_notMem_escapeUnderscores plain, other]
  have cut : (escapeUnderscores base ++ ['_']) ++ '\x7b' :: (escapeUnderscores sub ++ ['\x7d']) =
      (escapeUnderscores base' ++ ['_']) ++ '\x7b' :: (escapeUnderscores sub' ++ ['\x7d']) := by
    simpa [latexParts] using same
  obtain ⟨bases, -, subs⟩ := (List.append_cons_inj_of_notMem (notMem plain (by decide))
    (notMem plainSub (by decide))).1 cut
  exact ⟨escapeUnderscores_inj plain plain' (List.append_cancel_right bases),
    escapeUnderscores_inj plainSub plainSub' (List.append_cancel_right subs)⟩

theorem latex_of_some {name : Name} {base sub : List Char}
    (h : subscript? name.text.toList = some (base, sub)) :
    name.latex.toList = latexParts base sub := by
  simp only [latex, h, String.toList_ofList, latexParts]

theorem latex_of_none {name : Name} (h : subscript? name.text.toList = none) :
    name.latex.toList = escapeUnderscores name.text.toList := by
  simp only [latex, h, String.toList_ofList]

theorem escapeUnderscores_eq_nil {chars : List Char} :
    escapeUnderscores chars = [] ↔ chars = [] := by
  cases chars with
  | nil => simp [escapeUnderscores]
  | cons c chars => by_cases underscore : c = '_' <;> simp [escapeUnderscores, underscore]

theorem latex_ne_nil (name : Name) : name.latex.toList ≠ [] := by
  cases divides : subscript? name.text.toList with
  | none =>
    rw [latex_of_none divides, Ne, escapeUnderscores_eq_nil]
    exact mt String.toList_eq_nil_iff.1 name.nonempty
  | some parts =>
    rw [latex_of_some divides]
    simp [latexParts]

theorem plain_of_subscript? {chars base sub : List Char} (plain : Plain chars)
    (h : subscript? chars = some (base, sub)) : Plain base ∧ Plain sub := by
  rcases subscript?_eq_some h with ⟨rfl, -⟩ | ⟨rfl, -⟩
  · refine ⟨plain.append_left, fun c mem => plain c ?_⟩
    exact List.mem_append_right _ (List.mem_cons_of_mem _ mem)
  · exact ⟨plain.append_left, plain.append_right⟩

theorem brace_mem_latexParts (base sub : List Char) : '\x7b' ∈ latexParts base sub := by
  simp [latexParts]

/-- What a name looks like tells its base and its subscript, and all of a name without a
subscript. -/
theorem subscript?_eq_of_latex {a b : Name} (plain : Plain a.text.toList)
    (plain' : Plain b.text.toList) (same : a.latex = b.latex) :
    subscript? a.text.toList = subscript? b.text.toList ∧
      (subscript? a.text.toList = none → a.text.toList = b.text.toList) := by
  have chars : a.latex.toList = b.latex.toList := congrArg _ same
  cases divides : subscript? a.text.toList with
  | none =>
    rw [latex_of_none divides] at chars
    cases divides' : subscript? b.text.toList with
    | none =>
      rw [latex_of_none divides'] at chars
      exact ⟨rfl, fun _ => escapeUnderscores_inj plain plain' chars⟩
    | some parts =>
      rw [latex_of_some divides'] at chars
      exact absurd (chars ▸ brace_mem_latexParts _ _) (brace_notMem_escapeUnderscores plain)
  | some parts =>
    rw [latex_of_some divides] at chars
    cases divides' : subscript? b.text.toList with
    | none =>
      rw [latex_of_none divides'] at chars
      exact absurd (chars ▸ brace_mem_latexParts _ _) (brace_notMem_escapeUnderscores plain')
    | some parts' =>
      rw [latex_of_some divides'] at chars
      obtain ⟨base, sub⟩ := plain_of_subscript? plain divides
      obtain ⟨base', sub'⟩ := plain_of_subscript? plain' divides'
      obtain ⟨bases, subs⟩ := latexParts_inj base base' sub sub' chars
      exact ⟨congrArg _ (Prod.ext bases subs), fun none => by cases none⟩

/-- A name and the one without the underscore before its digits. -/
theorem Divided.undivided_eq {a b : Name} {base digits : List Char} (h : a.Divided base digits)
    (joined : b.text.toList = base ++ digits) : a.undivided = b.undivided := by
  have whole : ∀ base' digits', ¬ b.Divided base' digits' := by
    intro base' digits' divided
    refine h.underscore_notMem_joined ?_
    rw [← joined, divided.text_eq]
    exact List.mem_append_right _ List.mem_cons_self
  refine ext_toList ?_
  rw [undivided_eq_self whole, joined, h.text_undivided, String.toList_ofList]

/-- Names that look the same are the same but for the underscores before their digits. -/
theorem undivided_eq_of_latex {a b : Name} (plain : Plain a.text.toList)
    (plain' : Plain b.text.toList) (same : a.latex = b.latex) : a.undivided = b.undivided := by
  obtain ⟨subscripts, whole⟩ := subscript?_eq_of_latex plain plain' same
  cases divides : subscript? a.text.toList with
  | none => rw [ext_toList (whole divides)]
  | some parts =>
    have divides' := subscripts.symm.trans divides
    rcases subscript?_eq_some divides with ⟨text, notMem⟩ | ⟨text, base, sub, all, last⟩
    · rcases subscript?_eq_some divides' with ⟨text', -⟩ | ⟨text', base, sub, all, last⟩
      · rw [ext_toList (text.trans text'.symm)]
      · exact Divided.undivided_eq ⟨text, base, notMem, last, sub, all⟩ text'
    · rcases subscript?_eq_some divides' with ⟨text', notMem⟩ | ⟨text', -⟩
      · exact (Divided.undivided_eq ⟨text', base, notMem, last, sub, all⟩ text).symm
      · rw [ext_toList (text.trans text'.symm)]

end Name

end Propositional
