import Propositional.Proofs.Grammar

/-!
# The operands of a phrase

A word with an opening parenthesis after it is the name of a call, and every other word is an
operand. The tree of a phrase has these operands as its variables, one for one and in their
order: no level of the grammar loses, repeats or exchanges any.

Results:
1. `mem_operands_iff`: the operands by their places.
2. `Derives.operands_eq`: the operands of a phrase are the occurrences of its tree.
-/

namespace Propositional

/-- The words without an opening parenthesis after them, in their order. -/
def operands : List Token → List Name
  | [] => []
  | .word name :: rest =>
    if rest.head? = some .opening then operands rest else name :: operands rest
  | _ :: rest => operands rest

theorem operands_call {name : Name} {rest : List Token} (h : rest.head? = some .opening) :
    operands (.word name :: rest) = operands rest := by
  rw [operands, if_pos h]

theorem operands_word {name : Name} {rest : List Token} (h : rest.head? ≠ some .opening) :
    operands (.word name :: rest) = name :: operands rest := by
  rw [operands, if_neg h]

/-- Where no parenthesis follows, the operands of both parts are the operands of the whole. -/
theorem operands_append {ts us : List Token} (h : us.head? ≠ some .opening) :
    operands (ts ++ us) = operands ts ++ operands us := by
  induction ts with
  | nil => rfl
  | cons token ts ih =>
    cases token with
    | word name =>
      -- what follows the word is in `ts`, or no parenthesis
      have next : (ts ++ us).head? = some .opening ↔ ts.head? = some .opening := by
        cases ts <;> simp [h]
      by_cases call : ts.head? = some .opening
      · rw [List.cons_append, operands_call (next.2 call), operands_call call, ih]
      · rw [List.cons_append, operands_word (mt next.1 call), operands_word call, ih]
        rfl
    | _ => exact ih

/-- The operands are the words, at whatever place, that no opening parenthesis follows. -/
theorem mem_operands_iff {name : Name} {ts : List Token} :
    name ∈ operands ts ↔ ∃ i : Nat, ts[i]? = some (.word name) ∧ ts[i + 1]? ≠ some .opening := by
  induction ts with
  | nil => simp [operands]
  | cons token ts ih =>
    -- a later place is one in the rest of the tokens
    have places : (∃ i : Nat, (token :: ts)[i]? = some (.word name) ∧
          (token :: ts)[i + 1]? ≠ some .opening) ↔
        token = .word name ∧ ts.head? ≠ some .opening ∨ name ∈ operands ts := by
      rw [ih]
      constructor
      · rintro ⟨_ | i, here, next⟩
        · exact .inl ⟨by simpa using here, by simpa [List.head?_eq_getElem?] using next⟩
        · exact .inr ⟨i, by simpa using here, by simpa using next⟩
      · rintro (⟨rfl, next⟩ | ⟨i, here, next⟩)
        · exact ⟨0, rfl, by simpa [List.head?_eq_getElem?] using next⟩
        · exact ⟨i + 1, by simpa using here, by simpa using next⟩
    rw [places]
    cases token with
    | word other =>
      by_cases call : ts.head? = some .opening
      · simp [operands_call call, call]
      · simp [operands_word call, call, eq_comm]
    | _ => simp [operands]

theorem mem_of_mem_operands {name : Name} {ts : List Token} (h : name ∈ operands ts) :
    .word name ∈ ts := by
  obtain ⟨i, here, -⟩ := mem_operands_iff.1 h
  exact List.mem_of_getElem? here

/-! ## Phrases -/

theorem Steps.head?_ne_opening {op : Connective} {d : Nat} {ts : List Token} {f g : Formula}
    (h : Steps op f d ts g) : ts.head? ≠ some .opening := by
  cases h <;> simp

mutual

theorem Derives.operands_eq {level : Level} {d : Nat} {ts : List Token} {f : Formula}
    (h : Derives level d ts f) : operands ts = f.occurrences := by
  match h with
  | .literal => rfl
  | .var _ => rfl
  | .group inner =>
    rw [← inner.operands_eq]
    exact (operands_append (by simp)).trans (List.append_nil _)
  | .call _ inner applied =>
    rw [Operation.occurrences_applied applied, ← inner.operands_eq, List.cons_append,
      operands_call (by simp)]
    exact (operands_append (by simp)).trans (List.append_nil _)
  | .bare only => exact only.operands_eq
  | .not inner => exact inner.operands_eq
  | .chain _ first more =>
    rw [operands_append more.head?_ne_opening, first.operands_eq, more.operands_eq]
  | .alone only => exact only.operands_eq
  | .implies first inner =>
    rw [operands_append (by simp), first.operands_eq]
    exact congrArg (_ ++ ·) inner.operands_eq

theorem Steps.operands_eq {op : Connective} {d : Nat} {ts : List Token} {f g : Formula}
    (h : Steps op f d ts g) : f.occurrences ++ operands ts = g.occurrences := by
  match h with
  | .done => exact List.append_nil _
  | .step next more =>
    rw [← more.operands_eq, Formula.occurrences, List.append_assoc, ← next.operands_eq,
      ← operands_append more.head?_ne_opening]
    rfl

theorem Arguments.operands_eq {d : Nat} {ts : List Token} {fs : List Formula}
    (h : Arguments d ts fs) : operands ts = fs.flatMap Formula.occurrences := by
  match h with
  | .one only => simpa using only.operands_eq
  | .more first rest =>
    rw [List.flatMap_cons, ← first.operands_eq, ← rest.operands_eq, operands_append (by simp)]
    rfl

end

end Propositional
