import Propositional.Proofs.Infix.RoundTrip
import Propositional.Proofs.Renaming
import Propositional.Proofs.Table.Rows

/-!
# The infix form identifies the formula

Two formulas with one infix form are the same formula, however high their trees are and
whether or not the form could be read again. A name may even be that of a function: without
an opening parenthesis after it, it is still a word among the tokens. So the names are marked
until none of them is the name of a function; then the tokens have a derivation, and the
grammar has no two trees for them.

Results:
1. `Formula.tokens_injective`: formulas with the same tokens are equal, whatever their names.
2. `Formula.text_injective`: formulas with the same infix form are equal, if their names are
   words.
3. `Table.text_identifies`: the same, and that equal tables are tables of one formula.
-/

namespace Propositional

/-! ## Names that are not those of functions -/

namespace Name

/-- The name with an underscore before it. -/
def marked (name : Name) : Name := ⟨"_" ++ name.text, by simp [← String.toList_inj]⟩

theorem marked_injective : Function.Injective marked := by
  intro a b same
  have texts : "_" ++ a.text = "_" ++ b.text := congrArg text same
  cases a
  cases b
  simpa [← String.toList_inj] using texts

theorem ofName?_marked (name : Name) : Operation.ofName? name.marked.text = none := by
  refine Operation.ofName?_eq_none.2 fun function => ?_
  have first : name.marked.text.toList.head? = some '_' := by simp [marked]
  have others : ∀ function ∈ ["Not", "And", "Or", "Xor", "Implies", "Eq", "Equivalent"],
      function.toList.head? ≠ some '_' := by decide
  exact others _ function first

end Name

/-! ## Tokens and text -/

namespace Formula

theorem derives_tokens_marked (f : Formula) :
    Derives (.joined .equiv) (f.rename Name.marked).nesting
      (f.tokens.map (Token.rename Name.marked)) (f.rename Name.marked) := by
  rw [← tokens_rename]
  refine derives_tokens (fun name mem => ?_) _ (one_le_strength _)
  rw [occurrences_rename, List.mem_map] at mem
  obtain ⟨original, -, rfl⟩ := mem
  exact original.ofName?_marked

theorem tokens_injective : Function.Injective tokens := by
  intro f g same
  have derives := derives_tokens_marked f
  rw [same] at derives
  obtain ⟨-, trees⟩ := derives.whole_unique (derives_tokens_marked g)
  exact rename_injective Name.marked_injective trees

theorem text_injective {f g : Formula} (wordsF : ∀ name ∈ f.occurrences, name.IsWord)
    (wordsG : ∀ name ∈ g.occurrences, name.IsWord) (same : f.text = g.text) : f = g := by
  obtain ⟨placed, scanned, tokensF⟩ := scan_text wordsF
  obtain ⟨placed', scanned', tokensG⟩ := scan_text wordsG
  rw [same] at scanned
  cases scanned.symm.trans scanned'
  exact tokens_injective (tokensF.symm.trans tokensG)

/-- The names of a formula that was read are words. -/
theorem isWord_of_parse {text : String} {f : Formula} (h : parse text = .ok f) :
    ∀ name ∈ f.occurrences, name.IsWord := by
  obtain ⟨-, -, d, -, written⟩ := parse_ok_iff.1 h
  exact fun name mem => (Name.isVariable_iff.1 (written.isVariable name mem)).1

end Formula

/-! ## Tables -/

namespace Table

/-- The infix form in the title of a table says which formula the table is of, and the formula
says all of the table. -/
theorem eq_iff_of_build {limits limits' : Limits} {f g : Formula} {t t' : Table}
    (wordsF : ∀ name ∈ f.occurrences, name.IsWord) (wordsG : ∀ name ∈ g.occurrences, name.IsWord)
    (built : build limits f = .ok t) (built' : build limits' g = .ok t') : t = t' ↔ f = g := by
  obtain ⟨-, fits, rfl⟩ := build_eq_ok built
  obtain ⟨-, fits', rfl⟩ := build_eq_ok built'
  constructor
  · intro same
    exact Formula.text_injective wordsF wordsG (congrArg formula same)
  · rintro rfl
    rfl

/-- Of the formulas whose names are words and no literals, no two have the same infix form,
be they read from a text or not, and at any height. So the tables of formulas that were read
are equal exactly if the formulas are. -/
theorem text_identifies :
    (∀ f g : Formula,
      (∀ name ∈ f.occurrences, Text.isWord name.text.toList = true ∧
        name.text ∉ ["True", "False"]) →
      (∀ name ∈ g.occurrences, Text.isWord name.text.toList = true ∧
        name.text ∉ ["True", "False"]) →
      f.text = g.text → f = g) ∧
    ∀ (s s' : String) (f g : Formula) (limits limits' : Limits) (t t' : Table),
      Formula.parse s = .ok f → Formula.parse s' = .ok g →
      build limits f = .ok t → build limits' g = .ok t' → (t = t' ↔ f = g) := by
  constructor
  · intro f g wordsF wordsG same
    refine Formula.text_injective ?_ ?_ same
    · exact fun name mem => by simpa [Name.IsWord] using wordsF name mem
    · exact fun name mem => by simpa [Name.IsWord] using wordsG name mem
  · intro s s' f g limits limits' t t' read read' built built'
    exact eq_iff_of_build (Formula.isWord_of_parse read) (Formula.isWord_of_parse read')
      built built'

/-- Grouping shows in the infix form, also next to a name that is that of a function, and
`A & B` and `B & A` have different tables. -/
theorem text_identifies_conjunctions :
    (Formula.binary .and (.var ⟨"Not", by decide⟩)
        (.binary .and (.var ⟨"A", by decide⟩) (.var ⟨"B", by decide⟩))).text ≠
      (Formula.binary .and (.binary .and (.var ⟨"Not", by decide⟩) (.var ⟨"A", by decide⟩))
        (.var ⟨"B", by decide⟩)).text ∧
    ∃ f g t t', Formula.parse "A & B" = .ok f ∧ Formula.parse "B & A" = .ok g ∧
      build .roomy f = .ok t ∧ build .roomy g = .ok t' ∧ t ≠ t' := by
  constructor
  · intro same
    cases text_identifies.1 _ _ (by decide) (by decide) same
  · let f : Formula := .binary .and (.var ⟨"A", by decide⟩) (.var ⟨"B", by decide⟩)
    let g : Formula := .binary .and (.var ⟨"B", by decide⟩) (.var ⟨"A", by decide⟩)
    have read : Formula.parse f.text = .ok f :=
      Formula.parse_ok_iff.2 ⟨rfl, Formula.isTextWithinLimits_text_iff.2
        ⟨by unfold Name.IsVariable; decide, by decide, by decide⟩⟩
    have read' : Formula.parse g.text = .ok g :=
      Formula.parse_ok_iff.2 ⟨rfl, Formula.isTextWithinLimits_text_iff.2
        ⟨by unfold Name.IsVariable; decide, by decide, by decide⟩⟩
    obtain ⟨t, built⟩ : ∃ t, build .roomy f = .ok t := ⟨_, rfl⟩
    obtain ⟨t', built'⟩ : ∃ t, build .roomy g = .ok t := ⟨_, rfl⟩
    refine ⟨f, g, t, t', read, read', built, built', fun same => ?_⟩
    have equal := (text_identifies.2 _ _ f g .roomy .roomy t t' read read' built built').1 same
    exact absurd equal (by decide)

end Table

end Propositional
