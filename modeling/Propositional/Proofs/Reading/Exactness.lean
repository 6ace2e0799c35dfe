import Propositional.Formula.Parse
import Propositional.Proofs.Reading.Completeness
import Propositional.Proofs.Token.Scanning

/-!
# A text is read exactly if the grammar derives it

A text is the formula `f` if its tokens have a derivation from the level of whole formulas
with the tree `f`. Reading finds this tree if no token is inside more than 256 constructs
and no branch is longer than 256 steps; a constant alone is told apart after that.

Results:
1. `Reading.all_ok_iff`: the tokens that are read as a formula are the phrases within both
   limits.
2. `Formula.parse_ok_iff`, `Formula.IsText.parse_tooDeep`: what the text of a formula is read as,
   within the limits and beyond them.
3. `Formula.parse_exact`: what reading answers for every text, and that a text is no two
   formulas, whatever their depth and height.
-/

namespace Propositional

/-- The tokens of a formula are read as it, or one of the limits is exceeded and is the reason
why they are not. -/
theorem Reading.all_of_derives {tokens : List Placed} {d : Nat} {f : Formula}
    (derives : Derives (.joined .equiv) d (kinds tokens) f) :
    all tokens = .ok f ∨
      Exceeds 0 d f.height ∧ ∃ column, all tokens = .error ⟨.tooDeep, column⟩ := by
  have read := formula_complete [] derives (stops_nil _)
  have nonempty : tokens.isEmpty = false := by
    cases tokens with
    | nil => exact absurd rfl derives.ne_nil
    | cons => rfl
  rw [List.append_nil] at read
  unfold all
  rw [nonempty]
  generalize formula.read ⟨tokens, 0⟩ = result at read
  cases read with
  | done => exact .inl rfl
  | @tooDeep problem _ deep beyond =>
    obtain ⟨_, column⟩ := problem
    cases deep
    exact .inr ⟨beyond, column, rfl⟩

theorem Reading.all_ok_iff {tokens : List Placed} {f : Formula} :
    Reading.all tokens = .ok f ↔
      ∃ d ≤ depthLimit, Derives (.joined .equiv) d (kinds tokens) f ∧ f.height ≤ depthLimit := by
  constructor
  · intro h
    unfold all at h
    split at h
    · cases h
    split at h
    · rename_i node c read
      split at h
      · rename_i done
        cases h
        obtain ⟨used, d, takes, depth, derives, measured⟩ := formula_sound read (Nat.zero_le _)
        have whole : tokens = used := by simpa [done] using takes.rest
        rw [Nat.zero_add] at depth
        exact ⟨d, depth, whole ▸ derives, measured.1 ▸ measured.2⟩
      · cases h
    · cases h
  · rintro ⟨d, depth, derives, low⟩
    rcases all_of_derives derives with read | ⟨deep | high, -⟩
    · exact read
    · omega
    · omega

namespace Formula

/-- The tokens of the text have a derivation of this depth with the tree `f`. -/
def IsText (f : Formula) (depth : Nat) (text : String) : Prop :=
  ∃ tokens, scan text = .ok tokens ∧ Derives (.joined .equiv) depth (Reading.kinds tokens) f

/-- The text has a derivation within the limits of reading. -/
def IsTextWithinLimits (f : Formula) (text : String) : Prop :=
  f.height ≤ 256 ∧ ∃ depth ≤ 256, f.IsText depth text

/-- The pieces of a text add the tokens of a formula. -/
theorem IsText.of_adds {f : Formula} {d : Nat} {text : String} {ts : List Token}
    (adds : Adds text.toList ts []) (derives : Derives (.joined .equiv) d ts f) :
    f.IsText d text := by
  obtain ⟨placed, scanned, rfl⟩ := adds.scan
  exact ⟨placed, scanned, derives⟩

/-- A text is at most one formula, in one way. -/
theorem IsText.unique {f g : Formula} {d e : Nat} {text : String} (h : f.IsText d text)
    (h' : g.IsText e text) : d = e ∧ f = g := by
  obtain ⟨tokens, scanned, derives⟩ := h
  obtain ⟨tokens', scanned', derives'⟩ := h'
  cases scanned.symm.trans scanned'
  exact derives.whole_unique derives'

/-- A text that is a formula is no other, and is within the limits if it is. -/
theorem IsText.withinLimits_iff {f g : Formula} {d : Nat} {text : String} (h : g.IsText d text) :
    f.IsTextWithinLimits text ↔ f = g ∧ g.height ≤ 256 ∧ d ≤ 256 := by
  constructor
  · rintro ⟨low, e, depth, h'⟩
    obtain ⟨rfl, rfl⟩ := h.unique h'
    exact ⟨rfl, low, depth⟩
  · rintro ⟨rfl, low, depth⟩
    exact ⟨low, d, depth, h⟩

/-- The formula that is read, if any, before a constant alone is refused. -/
theorem all_ok_iff_isText {text : String} {tokens : List Placed} (scanned : scan text = .ok tokens)
    {f : Formula} : Reading.all tokens = .ok f ↔ f.IsTextWithinLimits text := by
  rw [Reading.all_ok_iff]
  constructor
  · rintro ⟨d, depth, derives, low⟩
    exact ⟨low, d, depth, tokens, scanned, derives⟩
  · rintro ⟨low, d, depth, tokens', scanned', derives⟩
    cases scanned.symm.trans scanned'
    exact ⟨d, depth, derives, low⟩

theorem parse_ok_iff {text : String} {f : Formula} :
    parse text = .ok f ↔ f.isConst = false ∧ f.IsTextWithinLimits text := by
  unfold parse
  split
  · rename_i failure scanned
    simp [IsTextWithinLimits, IsText, scanned]
  · rename_i tokens scanned
    rw [← all_ok_iff_isText scanned]
    cases Reading.all tokens with
    | error problem => simp
    | ok g =>
      constructor
      · intro h
        dsimp only at h
        split at h
        · cases h
        · rename_i proper
          cases h
          exact ⟨by simpa using proper, rfl⟩
      · rintro ⟨proper, same⟩
        cases same
        simp [proper]

/-- A constant alone is well formed and still refused. -/
theorem parse_notSymbolic_iff {text : String} :
    parse text = .error .notSymbolic ↔ ∃ value, (const value).IsTextWithinLimits text := by
  unfold parse
  split
  · rename_i failure scanned
    simp [IsTextWithinLimits, IsText, scanned]
  · rename_i tokens scanned
    simp only [← all_ok_iff_isText scanned]
    cases Reading.all tokens with
    | error problem => simp
    | ok g => cases g <;> simp [isConst]

/-- The one way for a text to be refused otherwise is that it is no formula within the limits. -/
theorem parse_malformed_iff {text : String} :
    (∃ column cause, parse text = .error (.malformed column cause)) ↔
      ¬ ∃ f : Formula, f.IsTextWithinLimits text := by
  constructor
  · rintro ⟨column, cause, malformed⟩ ⟨f, within⟩
    cases constant : f.isConst with
    | false => cases malformed.symm.trans (parse_ok_iff.2 ⟨constant, within⟩)
    | true =>
      obtain ⟨value, rfl⟩ : ∃ value, f = .const value := by
        cases f <;> simp_all [isConst]
      cases malformed.symm.trans (parse_notSymbolic_iff.2 ⟨value, within⟩)
  · intro none
    cases answer : parse text with
    | ok f => exact absurd ⟨f, (parse_ok_iff.1 answer).2⟩ none
    | error error =>
      cases error with
      | malformed column cause => exact ⟨column, cause, rfl⟩
      | notSymbolic =>
        obtain ⟨value, within⟩ := parse_notSymbolic_iff.1 answer
        exact absurd ⟨_, within⟩ none

/-- A formula beyond the limits is refused because it is too deep. -/
theorem IsText.parse_tooDeep {f : Formula} {d : Nat} {text : String} (h : f.IsText d text)
    (beyond : ¬ f.IsTextWithinLimits text) :
    ∃ column, parse text = .error (.malformed column .tooDeep) := by
  obtain ⟨tokens, scanned, derives⟩ := h
  rcases Reading.all_of_derives derives with read | ⟨-, column, failed⟩
  · exact absurd ((all_ok_iff_isText scanned).1 read) beyond
  · refine ⟨column.getD (text.length + 1), ?_⟩
    unfold parse
    rw [scanned]
    simp only [failed]

/-- Of two texts of one formula, the one that is nested less deep is read if the other is. -/
theorem IsText.parse_of_deeper {f g : Formula} {d e : Nat} {text text' : String}
    (h : g.IsText d text) (h' : g.IsText e text') (deeper : d ≤ e) (read : parse text' = .ok f) :
    parse text = .ok f := by
  obtain ⟨proper, within⟩ := parse_ok_iff.1 read
  obtain ⟨rfl, low, depth⟩ := h'.withinLimits_iff.1 within
  exact parse_ok_iff.2 ⟨proper, h.withinLimits_iff.2 ⟨rfl, low, Nat.le_trans deeper depth⟩⟩

/-- Every text is read as the one formula that the grammar derives from it within the limits,
refused as a constant, or malformed. Without the limits there is at most one formula too. -/
theorem parse_exact (text : String) :
    (∀ f : Formula, parse text = .ok f ↔ f.isConst = false ∧ f.IsTextWithinLimits text) ∧
      (∀ (f g : Formula) (d e : Nat), f.IsText d text → g.IsText e text → f = g) ∧
      (parse text = .error .notSymbolic ↔
        ∃ value, (Formula.const value).IsTextWithinLimits text) ∧
      ((∃ column cause, parse text = .error (.malformed column cause)) ↔
        ¬ ∃ f : Formula, f.IsTextWithinLimits text) :=
  ⟨fun _ => parse_ok_iff, fun _ _ _ _ h h' => (h.unique h').2, parse_notSymbolic_iff,
    parse_malformed_iff⟩

end Formula

end Propositional
