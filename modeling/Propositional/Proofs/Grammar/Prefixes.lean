import Propositional.Proofs.Grammar

/-!
# Beginnings of formulas

A sentence is a formula as the grammar has it when nothing limits it: constructs stand inside
each other as deep as may be, and a call of a known function has one argument or more.

The automaton reads a sentence token by token. It keeps what may come next and the parentheses
that are open; how strongly the connectives bind makes no difference to which tokens may follow
each other. Where it has no step, no sentence goes on like that, and until then the tokens are
the beginning of a sentence.

Results:
1. `Phrase.run_eq`: the automaton reads every phrase and leaves the open parentheses as they were.
2. `completes_of_step`, `completes_of_run`: what the automaton accepts from a configuration
   completes what the configuration has left open.
3. `sentence_iff`, `viable_iff`: the sentences, and the beginnings of sentences.
-/

namespace Propositional

/-! ## Sentences -/

/-- `Phrase level ts`: the tokens are a phrase of the level. -/
inductive Phrase : Level → List Token → Prop
  | literal {value : Bool} : Phrase .primary [.literal value]
  | var {name : Name} (free : Operation.ofName? name.text = none) : Phrase .primary [.word name]
  | group {ts : List Token} (inner : Phrase (.joined .equiv) ts) :
      Phrase .primary (.opening :: ts ++ [.closing])
  | call {name : Name} {operation : Operation} {ts : List Token} {more : List (List Token)}
      (named : Operation.ofName? name.text = some operation)
      (first : Phrase (.joined .equiv) ts) (others : ∀ us ∈ more, Phrase (.joined .equiv) us) :
      Phrase .primary
        (.word name :: .opening :: (ts ++ more.flatMap (.comma :: ·)) ++ [.closing])
  | bare {ts : List Token} (only : Phrase .primary ts) : Phrase .negation ts
  | not {ts : List Token} (inner : Phrase .negation ts) : Phrase .negation (.not :: ts)
  | operand {op : Connective} {ts : List Token} (only : Phrase (.operand op) ts) :
      Phrase (.joined op) ts
  | chain {op : Connective} {ts us : List Token} (left : op ≠ .implies)
      (before : Phrase (.joined op) ts) (last : Phrase (.operand op) us) :
      Phrase (.joined op) (ts ++ .operator op :: us)
  | implies {ts us : List Token} (first : Phrase (.operand .implies) ts)
      (inner : Phrase (.joined .implies) us) :
      Phrase (.joined .implies) (ts ++ .operator .implies :: us)

/-- The tokens are a whole formula. -/
def Sentence (ts : List Token) : Prop := Phrase (.joined .equiv) ts

/-- The tokens are the beginning of a whole formula, or all of it. -/
def Viable (ts : List Token) : Prop := ∃ rest, Sentence (ts ++ rest)

mutual

/-- A derivation with a tree is one without. -/
theorem Derives.phrase {level : Level} {d : Nat} {ts : List Token} {f : Formula}
    (h : Derives level d ts f) : Phrase level ts := by
  match h with
  | .literal => exact .literal
  | .var free => exact .var free
  | .group inner => exact .group inner.phrase
  | .call named inner _ =>
    obtain ⟨first, more, here, others, rfl⟩ := inner.phrases
    exact .call named here others
  | .bare only => exact .bare only.phrase
  | .not inner => exact .not inner.phrase
  | .chain left first more => exact more.phrase left (.operand first.phrase)
  | .alone only => exact .operand only.phrase
  | .implies first inner => exact .implies first.phrase inner.phrase

theorem Steps.phrase {op : Connective} {d : Nat} {ts us : List Token} {f g : Formula}
    (h : Steps op f d us g) (left : op ≠ .implies) (before : Phrase (.joined op) ts) :
    Phrase (.joined op) (ts ++ us) := by
  match h with
  | .done => simpa using before
  | .step next more =>
    simpa using more.phrase left (.chain left before next.phrase)

theorem Arguments.phrases {d : Nat} {ts : List Token} {fs : List Formula}
    (h : Arguments d ts fs) :
    ∃ (first : List Token) (more : List (List Token)), Phrase (.joined .equiv) first ∧
      (∀ us ∈ more, Phrase (.joined .equiv) us) ∧ ts = first ++ more.flatMap (.comma :: ·) := by
  match h with
  | .one only => exact ⟨_, [], only.phrase, by simp, by simp⟩
  | .more first rest =>
    obtain ⟨second, more, here, others, rfl⟩ := rest.phrases
    exact ⟨_, second :: more, first.phrase, by simpa using ⟨here, others⟩, by simp⟩

end

/-! ## The automaton -/

namespace Prefixes

/-- An open parenthesis, around a formula or around the arguments of a call. -/
inductive Frame where
  | group
  | call
deriving DecidableEq, Repr

/-- What has been read last decides what may come next. -/
inductive State where
  /-- An operand has to follow. -/
  | operand
  /-- The name of a function: its parenthesis has to follow. -/
  | function
  /-- A complete operand. -/
  | complete
deriving DecidableEq, Repr

/-- The parentheses that are open, the innermost first. -/
structure Config where
  state : State
  frames : List Frame
deriving DecidableEq, Repr

/-- The configuration after one more token. -/
def step : Config → Token → Option Config
  | ⟨.operand, frames⟩, .literal _ => some ⟨.complete, frames⟩
  | ⟨.operand, frames⟩, .word name =>
    match Operation.ofName? name.text with
    | some _ => some ⟨.function, frames⟩
    | none => some ⟨.complete, frames⟩
  | ⟨.operand, frames⟩, .not => some ⟨.operand, frames⟩
  | ⟨.operand, frames⟩, .opening => some ⟨.operand, .group :: frames⟩
  | ⟨.function, frames⟩, .opening => some ⟨.operand, .call :: frames⟩
  | ⟨.complete, frames⟩, .operator _ => some ⟨.operand, frames⟩
  | ⟨.complete, _ :: frames⟩, .closing => some ⟨.complete, frames⟩
  | ⟨.complete, .call :: frames⟩, .comma => some ⟨.operand, .call :: frames⟩
  | _, _ => none

/-- The configuration after some tokens. -/
def run (k : Config) (ts : List Token) : Option Config := ts.foldlM step k

/-- Nothing has been read. -/
def start : Config := ⟨.operand, []⟩

/-- A formula has been read, with all of its parentheses closed. -/
def accepting : Config := ⟨.complete, []⟩

@[simp] theorem run_nil (k : Config) : run k [] = some k := rfl

@[simp] theorem run_cons (k : Config) (t : Token) (ts : List Token) :
    run k (t :: ts) = (step k t).bind (run · ts) := rfl

@[simp] theorem run_append (k : Config) (ts us : List Token) :
    run k (ts ++ us) = (run k ts).bind (run · us) := List.foldlM_append

end Prefixes

open Prefixes

/-! ## Phrases are read -/

/-- Further arguments of a call leave the parenthesis of the call open. -/
theorem run_arguments {more : List (List Token)} {frames : List Frame}
    (each : ∀ us ∈ more,
      run ⟨.operand, .call :: frames⟩ us = some ⟨.complete, .call :: frames⟩) :
    run ⟨.complete, .call :: frames⟩ (more.flatMap (.comma :: ·)) =
      some ⟨.complete, .call :: frames⟩ := by
  induction more with
  | nil => rfl
  | cons us more ih =>
    have others := ih fun vs mem => each vs (List.mem_cons_of_mem _ mem)
    simp [step, each us List.mem_cons_self, others]

/-- A phrase of any level is read as one operand. -/
theorem Phrase.run_eq {level : Level} {ts : List Token} (h : Phrase level ts)
    (frames : List Frame) : run ⟨.operand, frames⟩ ts = some ⟨.complete, frames⟩ := by
  induction h generalizing frames with
  | literal => rfl
  | var free => simp [step, free]
  | group inner ih => simp [step, ih]
  | call named first others ih ihs =>
    have more := run_arguments fun us mem => ihs us mem (.call :: frames)
    simp [step, named, ih, more]
  | bare only ih | operand only ih => exact ih frames
  | not inner ih => simp [step, ih]
  | chain left before last ih ih' | implies before last ih ih' => simp [step, ih, ih']

/-! ## What is read is a phrase -/

namespace Phrase

/-- What binds most strongly is an operand of every connective. -/
theorem joined {ts : List Token} (h : Phrase .negation ts) (op : Connective) :
    Phrase (.joined op) ts := by
  have conjunction : Phrase (.joined .and) ts := .operand h
  have exclusion : Phrase (.joined .xor) ts := .operand conjunction
  have disjunction : Phrase (.joined .or) ts := .operand exclusion
  have implication : Phrase (.joined .implies) ts := .operand disjunction
  cases op with
  | and => exact conjunction
  | xor => exact exclusion
  | or => exact disjunction
  | implies => exact implication
  | equiv => exact .operand implication

theorem operand_of_negation {ts : List Token} (h : Phrase .negation ts) (op : Connective) :
    Phrase (.operand op) ts := by
  cases op with
  | and => exact h
  | xor | or | implies | equiv => exact h.joined _

/-- A connective is that of the chain, or it goes into the operands of the chain. -/
theorem eq_or_operand_eq {outer op : Connective} (weaker : outer.strength ≤ op.strength) :
    op = outer ∨
      ∃ inner, Level.joined inner = .operand outer ∧ inner.strength ≤ op.strength := by
  cases outer <;> cases op <;>
    first
    | exact .inl rfl
    | exact .inr ⟨_, rfl, by decide⟩
    | exact absurd weaker (by decide)

/-- One more operand, after any connective, makes a longer formula of a formula. The connective
goes into the last operand of the chains that bind less strongly. -/
theorem append_operand {outer op : Connective} {ts us : List Token}
    (h : Phrase (.joined outer) ts) (weaker : outer.strength ≤ op.strength)
    (last : Phrase .negation us) : Phrase (.joined outer) (ts ++ .operator op :: us) := by
  generalize same : Level.joined outer = level at h
  induction h generalizing outer with
  | literal | var | group | call | bare | not => cases same
  | @operand chained ts only ih =>
    cases same
    rcases eq_or_operand_eq weaker with rfl | ⟨inner, level, weaker⟩
    · by_cases right : op = .implies
      · subst right
        exact .implies only (last.joined _)
      · exact .chain right (.operand only) (last.operand_of_negation _)
    · exact .operand (ih weaker level)
  | @chain chained ts us' left before final ih ih' =>
    cases same
    rcases eq_or_operand_eq weaker with rfl | ⟨inner, level, weaker⟩
    · exact .chain left (.chain left before final) (last.operand_of_negation _)
    · simpa using Phrase.chain left before (ih' weaker level)
  | @implies ts us' first inner ih ih' =>
    cases same
    simpa using Phrase.implies first (ih' weaker rfl)

end Phrase

/-- `op operand op operand …`: what can follow an operand without a parenthesis. -/
inductive Tail : List Token → Prop
  | nil : Tail []
  | cons {op : Connective} {ts us : List Token} (next : Phrase .negation ts) (more : Tail us) :
      Tail (.operator op :: (ts ++ us))

theorem Phrase.append_tail {ts us : List Token} (h : Phrase (.joined .equiv) ts) (tail : Tail us) :
    Phrase (.joined .equiv) (ts ++ us) := by
  induction tail generalizing ts with
  | nil => simpa using h
  | @cons op _ _ next more ih =>
    have weaker : Connective.equiv.strength ≤ op.strength := by cases op <;> decide
    simpa using ih (h.append_operand weaker next)

/-- `, formula , formula …` in a call, and nothing in a group: what can follow a formula before
the parenthesis around it is closed. -/
def Further : Frame → List Token → Prop
  | .group, ts => ts = []
  | .call, ts =>
    ∃ more : List (List Token), (∀ us ∈ more, Phrase (.joined .equiv) us) ∧
      ts = more.flatMap (.comma :: ·)

theorem further_nil (frame : Frame) : Further frame [] := by
  cases frame with
  | group => rfl
  | call => exact ⟨[], by simp, rfl⟩

/-- The tokens go on from an operand, and close all of the open parentheses. -/
def Continues : List Frame → List Token → Prop
  | [], ts => Tail ts
  | frame :: frames, ts =>
    ∃ tail more rest, ts = tail ++ more ++ .closing :: rest ∧ Tail tail ∧ Further frame more ∧
      Continues frames rest

/-- The tokens complete what the configuration has left open. -/
def Completes : Config → List Token → Prop
  | ⟨.complete, frames⟩, ts => Continues frames ts
  | ⟨.operand, frames⟩, ts =>
    ∃ us rest, ts = us ++ rest ∧ Phrase .negation us ∧ Continues frames rest
  | ⟨.function, frames⟩, ts =>
    ∃ us more rest, ts = .opening :: (us ++ more ++ .closing :: rest) ∧
      Phrase (.joined .equiv) us ∧ Further .call more ∧ Continues frames rest

theorem Continues.cons {frames : List Frame} {op : Connective} {ts us : List Token}
    (next : Phrase .negation ts) (h : Continues frames us) :
    Continues frames (.operator op :: (ts ++ us)) := by
  cases frames with
  | nil => exact Tail.cons next h
  | cons frame frames =>
    obtain ⟨tail, more, rest, rfl, operands, further, closed⟩ := h
    exact ⟨.operator op :: (ts ++ tail), more, rest, by simp, .cons next operands, further, closed⟩

/-- The inside of a parenthesis is a formula, maybe with further arguments after it. -/
theorem exists_inside {frame : Frame} {frames : List Frame} {ts us : List Token}
    (operand : Phrase .negation ts) (h : Continues (frame :: frames) us) :
    ∃ vs more rest, ts ++ us = vs ++ more ++ .closing :: rest ∧ Phrase (.joined .equiv) vs ∧
      Further frame more ∧ Continues frames rest := by
  obtain ⟨tail, more, rest, rfl, operands, further, closed⟩ := h
  exact ⟨_, more, rest, by simp, (operand.joined .equiv).append_tail operands, further, closed⟩

/-- With a token before it, what completes the next configuration completes this one. -/
theorem completes_of_step {k k' : Config} {t : Token} {ts : List Token} (h : step k t = some k')
    (completes : Completes k' ts) : Completes k (t :: ts) := by
  -- only the tokens that the state admits have a next configuration
  obtain ⟨state, frames⟩ := k
  cases state with
  | operand =>
    cases t with
    | literal value =>
      cases h
      exact ⟨_, ts, rfl, .bare .literal, completes⟩
    | word name =>
      simp only [step] at h
      split at h
      · rename_i operation named
        cases h
        obtain ⟨us, more, rest, rfl, first, ⟨others, each, rfl⟩, closed⟩ := completes
        exact ⟨_, rest, by simp, .bare (.call named first each), closed⟩
      · rename_i free
        cases h
        exact ⟨_, ts, rfl, .bare (.var free), completes⟩
    | not =>
      cases h
      obtain ⟨us, rest, rfl, inner, closed⟩ := completes
      exact ⟨_, rest, rfl, .not inner, closed⟩
    | opening =>
      cases h
      obtain ⟨us, rest, rfl, operand, closed⟩ := completes
      obtain ⟨vs, more, rest, same, inner, rfl, closed⟩ := exists_inside operand closed
      exact ⟨_, rest, by simp [same], .bare (.group inner), closed⟩
    | operator | closing | comma => cases h
  | function =>
    cases t with
    | opening =>
      cases h
      obtain ⟨us, rest, rfl, operand, closed⟩ := completes
      obtain ⟨vs, more, rest, same, inner, further, closed⟩ := exists_inside operand closed
      exact ⟨vs, more, rest, by rw [same], inner, further, closed⟩
    | literal | word | not | operator | closing | comma => cases h
  | complete =>
    cases t with
    | operator op =>
      cases h
      obtain ⟨us, rest, rfl, operand, closed⟩ := completes
      exact closed.cons operand
    | closing =>
      cases frames with
      | nil => cases h
      | cons frame frames =>
        cases h
        exact ⟨[], [], ts, rfl, .nil, further_nil frame, completes⟩
    | comma =>
      match frames with
      | [] | .group :: frames => cases h
      | .call :: frames =>
        cases h
        obtain ⟨us, rest, rfl, operand, closed⟩ := completes
        obtain ⟨vs, more, rest, same, inner, ⟨others, each, rfl⟩, closed⟩ :=
          exists_inside operand closed
        exact ⟨[], .comma :: vs ++ others.flatMap (.comma :: ·), rest, by simp [same], .nil,
          ⟨vs :: others, by simpa using ⟨inner, each⟩, by simp⟩, closed⟩
    | literal | word | not | opening => cases h

/-- What the automaton accepts from a configuration completes what is left open there. -/
theorem completes_of_run {k : Config} {ts : List Token} (h : run k ts = some accepting) :
    Completes k ts := by
  induction ts generalizing k with
  | nil =>
    cases h
    exact Tail.nil
  | cons t ts ih =>
    rw [run_cons, Option.bind_eq_some_iff] at h
    obtain ⟨k', next, h⟩ := h
    exact completes_of_step next (ih h)

/-- Whatever has been left open can be completed. -/
theorem exists_completion (k : Config) : ∃ ts, run k ts = some accepting := by
  -- an operand is complete, so that only its parentheses are to be closed
  have closed (frames : List Frame) : ∃ ts, run ⟨.complete, frames⟩ ts = some accepting := by
    induction frames with
    | nil => exact ⟨[], rfl⟩
    | cons frame frames ih =>
      obtain ⟨ts, h⟩ := ih
      exact ⟨.closing :: ts, h⟩
  obtain ⟨state, frames⟩ := k
  obtain ⟨ts, h⟩ := closed frames
  cases state with
  | complete => exact ⟨ts, h⟩
  | operand => exact ⟨.literal true :: ts, h⟩
  | function => exact ⟨.opening :: .literal true :: .closing :: ts, h⟩

/-! ## Sentences and their beginnings -/

/-- The automaton accepts the sentences. -/
theorem sentence_iff {ts : List Token} : Sentence ts ↔ run start ts = some accepting := by
  refine ⟨fun h => h.run_eq [], fun h => ?_⟩
  obtain ⟨us, rest, rfl, operand, tail⟩ := completes_of_run h
  exact (operand.joined .equiv).append_tail tail

/-- The automaton has a run on the beginnings of sentences. -/
theorem viable_iff {ts : List Token} : Viable ts ↔ ∃ k, run start ts = some k := by
  constructor
  · rintro ⟨rest, h⟩
    rw [sentence_iff, run_append, Option.bind_eq_some_iff] at h
    obtain ⟨k, h, -⟩ := h
    exact ⟨k, h⟩
  · rintro ⟨k, h⟩
    obtain ⟨rest, completed⟩ := exists_completion k
    exact ⟨rest, sentence_iff.2 (by simp [h, completed])⟩

/-- Where the automaton has no step, no sentence goes on. -/
theorem viable_of_stuck {ts : List Token} {t : Token} {k : Config} (reads : run start ts = some k)
    (stuck : step k t = none) : Viable ts ∧ ¬ Viable (ts ++ [t]) := by
  refine ⟨viable_iff.2 ⟨k, reads⟩, ?_⟩
  rw [viable_iff]
  rintro ⟨k', further⟩
  simp [reads, stuck] at further

/-- Where the automaton does not accept, a sentence can go on and does not end. -/
theorem viable_of_incomplete {ts : List Token} {k : Config} (reads : run start ts = some k)
    (incomplete : k ≠ accepting) : Viable ts ∧ ¬ Sentence ts := by
  refine ⟨viable_iff.2 ⟨k, reads⟩, fun sentence => incomplete ?_⟩
  exact Option.some.inj (reads.symm.trans (sentence_iff.1 sentence))

instance (ts : List Token) : Decidable (Sentence ts) := decidable_of_iff _ sentence_iff.symm

instance (ts : List Token) : Decidable (Viable ts) :=
  decidable_of_iff _ (Option.isSome_iff_exists.trans viable_iff.symm)

/-- An open parenthesis can be closed after the operand that is to follow, and not before. -/
example : Viable [.opening, .literal true, .operator .and] ∧
    ¬ Viable [.opening, .literal true, .operator .and, .closing] := by decide

end Propositional
