import Propositional.Proofs.Grammar

/-!
# The grammar is unambiguous

A phrase is read from the left, and the token after it decides where it ends. `Stops` says
that a token cannot go on with a phrase of a level. Of two phrases of one level at the start
of the same tokens, each stopped by what follows it, neither is longer than the other.

Results:
1. `Derives.unique`: two such phrases are the same tokens, with the same tree and the same
   depth.
2. `Derives.whole_unique`: a list of tokens is a formula in at most one way, at any depth.
-/

namespace Propositional

/-- No phrase of the level goes on into these tokens. -/
def Stops (level : Level) (rest : List Token) : Prop :=
  ∀ token ∈ rest.head?, level.continuedBy token = false

theorem stops_nil (level : Level) : Stops level [] := by
  simp [Stops]

@[simp] theorem stops_cons {level : Level} {token : Token} {rest : List Token} :
    Stops level (token :: rest) ↔ level.continuedBy token = false := by
  simp [Stops]

@[simp] theorem Level.continuedBy_closing (level : Level) :
    level.continuedBy .closing = false := by
  cases level <;> rfl

@[simp] theorem Level.continuedBy_comma (level : Level) :
    level.continuedBy .comma = false := by
  cases level <;> rfl

/-- What ends a phrase of any level also ends a primary. -/
theorem Stops.primary {level : Level} {rest : List Token} (h : Stops level rest) :
    Stops .primary rest := by
  cases rest with
  | nil => exact stops_nil _
  | cons token rest =>
    rw [stops_cons] at h ⊢
    cases token with
    | opening => cases level <;> exact h
    | _ => rfl

/-- What ends a chain also ends its last operand. -/
theorem Stops.operand {op : Connective} {rest : List Token} (h : Stops (.joined op) rest) :
    Stops (.operand op) rest := by
  cases rest with
  | nil => exact stops_nil _
  | cons token rest =>
    rw [stops_cons] at h ⊢
    cases token with
    | operator found => cases op <;> cases found <;> first | rfl | contradiction
    | opening => contradiction
    | _ => cases op <;> rfl

/-- The connective of a chain ends the operand before it. -/
theorem stops_operand_operator (op : Connective) (rest : List Token) :
    Stops (.operand op) (.operator op :: rest) := by
  cases op <;> exact stops_cons.2 rfl

/-- An opening parenthesis ends no phrase. -/
theorem not_stops_opening (level : Level) (rest : List Token) :
    ¬ Stops level (.opening :: rest) := by
  cases level <;> simp [Level.continuedBy]

/-- The connective of a chain does not end the chain. -/
theorem not_stops_operator (op : Connective) (rest : List Token) :
    ¬ Stops (.joined op) (.operator op :: rest) := by
  simp [Level.continuedBy]

/-- Whether a chain ends or goes on, the operand before ends. -/
theorem Steps.stops {op : Connective} {d : Nat} {ts rest : List Token} {f g : Formula}
    (h : Steps op f d ts g) (stop : Stops (.joined op) rest) :
    Stops (.operand op) (ts ++ rest) := by
  cases h with
  | done => exact stop.operand
  | step => exact stops_operand_operator _ _

theorem Derives.head?_ne_not {d : Nat} {ts : List Token} {f : Formula}
    (h : Derives .primary d ts f) (rest : List Token) : (ts ++ rest).head? ≠ some .not := by
  cases h <;> simp

mutual

theorem Derives.unique {level : Level} {d : Nat} {ts : List Token} {f : Formula}
    (h : Derives level d ts f) {e : Nat} {us rest rest' : List Token} {g : Formula}
    (h' : Derives level e us g) (same : ts ++ rest = us ++ rest')
    (stop : Stops level rest) (stop' : Stops level rest') : d = e ∧ ts = us ∧ f = g := by
  match h with
  | .literal =>
    cases h' with
    | literal => simp_all
    | _ => simp at same
  | .var free =>
    cases h' with
    | var => simp_all
    | call named =>
      obtain ⟨names, -⟩ := List.cons.inj same
      cases names
      simp [free] at named
    | _ => simp at same
  | .group inner =>
    cases h' with
    | group inner' =>
      obtain ⟨rfl, rfl, rfl⟩ := inner.unique inner' (by simpa using same) (by simp) (by simp)
      exact ⟨rfl, rfl, rfl⟩
    | _ => simp at same
  | .call named inner applied =>
    cases h' with
    | var free =>
      obtain ⟨names, -⟩ := List.cons.inj same
      cases names
      simp [free] at named
    | call named' inner' applied' =>
      obtain ⟨names, same⟩ := List.cons.inj same
      cases names
      obtain ⟨rfl, rfl, rfl⟩ := inner.unique inner' (by simpa using same)
      simp_all
    | _ => simp at same
  -- a primary never starts with a negation sign, so both phrases start in the same way
  | .bare only =>
    cases h' with
    | bare only' => exact only.unique only' same stop.primary stop'.primary
    | not => exact absurd (by simp [same]) (only.head?_ne_not rest)
  | .not inner =>
    cases h' with
    | bare only' => exact absurd (by simp [← same]) (only'.head?_ne_not rest')
    | not inner' =>
      obtain ⟨rfl, rfl, rfl⟩ := inner.unique inner' (List.cons.inj same).2 stop stop'
      exact ⟨rfl, rfl, rfl⟩
  | .chain left first more =>
    cases h' with
    | chain _ first' more' =>
      simp only [List.append_assoc] at same
      obtain ⟨rfl, rfl, rfl⟩ := first.unique first' same (more.stops stop) (more'.stops stop')
      obtain ⟨rfl, rfl, rfl⟩ := more.unique more' (List.append_cancel_left same) stop stop'
      exact ⟨rfl, rfl, rfl⟩
    | alone | implies => exact absurd rfl left
  -- where one phrase ends after its operand, the other would go on with the same rest
  | .alone only =>
    cases h' with
    | chain left => exact absurd rfl left
    | alone only' => exact only.unique only' same stop.operand stop'.operand
    | implies first' inner' =>
      simp only [List.append_assoc] at same
      obtain ⟨-, rfl, -⟩ := only.unique first' same stop.operand (stops_operand_operator _ _)
      rw [List.append_cancel_left same] at stop
      exact absurd stop (not_stops_operator _ _)
  | .implies first inner =>
    simp only [List.append_assoc] at same
    cases h' with
    | chain left => exact absurd rfl left
    | alone only' =>
      obtain ⟨-, rfl, -⟩ := first.unique only' same (stops_operand_operator _ _) stop'.operand
      rw [← List.append_cancel_left same] at stop'
      exact absurd stop' (not_stops_operator _ _)
    | implies first' inner' =>
      simp only [List.append_assoc] at same
      obtain ⟨rfl, rfl, rfl⟩ := first.unique first' same (stops_operand_operator _ _)
        (stops_operand_operator _ _)
      obtain ⟨rfl, rfl, rfl⟩ := inner.unique inner'
        (List.cons.inj (List.append_cancel_left same)).2 stop stop'
      exact ⟨rfl, rfl, rfl⟩

theorem Steps.unique {op : Connective} {d : Nat} {ts : List Token} {f g : Formula}
    (p : Steps op f d ts g) {e : Nat} {us rest rest' : List Token} {h : Formula}
    (p' : Steps op f e us h) (same : ts ++ rest = us ++ rest')
    (stop : Stops (.joined op) rest) (stop' : Stops (.joined op) rest') :
    d = e ∧ ts = us ∧ g = h := by
  match p with
  | .done =>
    cases p' with
    | done => exact ⟨rfl, rfl, rfl⟩
    | step =>
      rw [List.nil_append] at same
      rw [same] at stop
      exact absurd stop (not_stops_operator _ _)
  | .step next more =>
    cases p' with
    | done =>
      rw [List.nil_append] at same
      rw [← same] at stop'
      exact absurd stop' (not_stops_operator _ _)
    | step next' more' =>
      simp only [List.cons_append, List.append_assoc, List.cons.injEq, true_and] at same
      obtain ⟨rfl, rfl, rfl⟩ := next.unique next' same (more.stops stop) (more'.stops stop')
      obtain ⟨rfl, rfl, rfl⟩ := more.unique more' (List.append_cancel_left same) stop stop'
      exact ⟨rfl, rfl, rfl⟩

theorem Arguments.unique {d : Nat} {ts : List Token} {fs : List Formula}
    (p : Arguments d ts fs) {e : Nat} {us rest rest' : List Token} {gs : List Formula}
    (p' : Arguments e us gs) (same : ts ++ .closing :: rest = us ++ .closing :: rest') :
    d = e ∧ ts = us ∧ fs = gs := by
  match p with
  | .one only =>
    cases p' with
    | one only' =>
      obtain ⟨rfl, rfl, rfl⟩ := only.unique only' same (by simp) (by simp)
      exact ⟨rfl, rfl, rfl⟩
    | more first' rest' =>
      simp only [List.append_assoc] at same
      obtain ⟨-, rfl, -⟩ := only.unique first' same (by simp) (by simp)
      cases List.append_cancel_left same
  | .more first others =>
    simp only [List.append_assoc] at same
    cases p' with
    | one only' =>
      obtain ⟨-, rfl, -⟩ := first.unique only' same (by simp) (by simp)
      cases List.append_cancel_left same
    | more first' others' =>
      simp only [List.append_assoc] at same
      obtain ⟨rfl, rfl, rfl⟩ := first.unique first' same (by simp) (by simp)
      obtain ⟨rfl, rfl, rfl⟩ := others.unique others'
        (List.cons.inj (List.append_cancel_left same)).2
      exact ⟨rfl, rfl, rfl⟩

end

/-- At most one derivation of all the tokens: the end of the tokens stops every phrase. -/
theorem Derives.whole_unique {level : Level} {d e : Nat} {ts : List Token} {f g : Formula}
    (h : Derives level d ts f) (h' : Derives level e ts g) : d = e ∧ f = g := by
  obtain ⟨depths, -, trees⟩ := h.unique h' rfl (stops_nil level) (stops_nil level)
  exact ⟨depths, trees⟩

end Propositional
