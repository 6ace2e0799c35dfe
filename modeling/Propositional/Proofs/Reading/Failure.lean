import Propositional.Formula.Parse
import Propositional.Proofs.Grammar.Prefixes
import Propositional.Proofs.Reading.Soundness
import Propositional.Proofs.Token.Scanning

/-!
# Where a text stops being the beginning of a formula

While a formula is read, the automaton of the beginnings of formulas reads along. A problem
with a token that cannot stand where it does is found where the automaton has no step, and
a text that ends too early where the automaton has not accepted it. The limits, the number of
arguments and the names of functions are problems of other kinds; nothing is said about them.

Results:
1. `Explains.later`: a problem with the later tokens is a problem with all of them.
2. `chain_explains`, `arguments_explains`: the two loops, by induction on their runs.
3. `tracks_insideOf`: the automaton reads along at every level of the grammar, by induction
   on the fuel.
4. `Formula.parse_malformed_viable`: what a problem says about the tokens of a text.
-/

namespace Propositional

namespace Cause

/-- The token that cannot stand where it does. -/
def misplaced : Cause → Option Token
  | .notAnOperand found | .afterFormula found => some found
  | .expected _ found => found
  | _ => none

/-- Whether the text ends too early. -/
def unfinished : Cause → Bool
  | .endOfText | .expected _ none => true
  | _ => false

theorem misplaced_eq_none {cause : Cause} (h : cause.unfinished = true) :
    cause.misplaced = none := by
  unfold unfinished at h
  split at h
  · rfl
  · rfl
  · cases h

end Cause

namespace Reading

open Step Prefixes

/-! ## Problems of steps -/

theorem bind_error {α β : Type} {first : Step α} {next : α → Step β} {c c' : Cursor}
    {problem : Problem} (h : (first >>= next) c = .error problem c') :
    first c = .error problem c' ∨
      ∃ middle inner, first c = .ok middle inner ∧ next middle inner = .error problem c' := by
  simp only [bind, EStateM.bind] at h
  split at h
  · rename_i middle inner found
    exact .inr ⟨middle, inner, found, h⟩
  · rename_i failed
    cases h
    exact .inl failed

theorem of_error {α : Type} {result : Except Problem α} {c c' : Cursor} {problem : Problem}
    (h : of result c = .error problem c') : result = .error problem := by
  unfold of at h
  split at h <;> cases h
  rfl

/-- There is no room for a construct, or the problem is inside it. -/
theorem within_error {α : Type} {column : Nat} {read : Step α} {c c' : Cursor}
    {problem : Problem} (h : within column read c = .error problem c') :
    (depthLimit ≤ c.opened ∧ problem = .atToken column .tooDeep) ∨
      ∃ inner, c.opened < depthLimit ∧ read ⟨c.rest, c.opened + 1⟩ = .error problem inner := by
  unfold within at h
  split at h
  · rename_i room
    split at h
    · cases h
    · rename_i _ inner failed
      cases h
      exact .inr ⟨inner, room, failed⟩
  · rename_i full
    cases h
    exact .inl ⟨Nat.le_of_not_lt full, rfl⟩

/-- A tree over subtrees is too high, or it is built. -/
theorem Node.map_grow_error {α : Type} {column height : Nat} {build : Nat → α}
    {problem : Problem} (h : (grow column height).map build = .error problem) :
    problem.cause = .tooDeep := by
  unfold grow at h
  split at h <;> cases h
  rfl

theorem Node.negate_error {column : Nat} {inner : Node} {problem : Problem}
    (h : negate column inner = .error problem) : problem.cause = .tooDeep :=
  map_grow_error h

theorem Node.join_error {op : Connective} {column : Nat} {left right : Node} {problem : Problem}
    (h : join op column left right = .error problem) : problem.cause = .tooDeep :=
  map_grow_error h

theorem Node.foldlM_join_error {op : Connective} {column : Nat} {rest : List Node}
    {first : Node} {problem : Problem}
    (h : rest.foldlM (join op column) first = .error problem) : problem.cause = .tooDeep := by
  induction rest generalizing first with
  | nil => cases h
  | cons right rest ih =>
    rw [List.foldlM_cons] at h
    cases joined : join op column first right with
    | ok next =>
      rw [joined] at h
      exact ih h
    | error found =>
      rw [joined] at h
      cases h
      exact join_error joined

theorem Node.apply_error {operation : Operation} {column : Nat} {arguments : List Node}
    {problem : Problem} (h : apply operation column arguments = .error problem) :
    problem.cause = .tooDeep ∨ problem.cause = .wrongArity operation arguments.length := by
  unfold apply at h
  split at h
  · exact .inl (negate_error h)
  · split at h
    · exact .inl (foldlM_join_error h)
    · cases h
      exact .inr rfl
  · cases h
    exact .inr rfl

/-! ## What a problem says about the tokens -/

/-- The automaton finds the problem in the tokens when it reads them from the configuration,
or the problem is of another kind. -/
inductive Explains (k : Config) (ts : List Placed) : Problem → Prop
  | token {used rest : List Placed} {t : Placed} {k' : Config} {cause : Cause}
      (tokens : ts = used ++ t :: rest) (misplaced : cause.misplaced = some t.token)
      (reads : run k (kinds used) = some k') (stuck : step k' t.token = none) :
      Explains k ts (.atToken t.column cause)
  | ending {k' : Config} {cause : Cause} (unfinished : cause.unfinished = true)
      (reads : run k (kinds ts) = some k') (incomplete : k' ≠ accepting) :
      Explains k ts (.atEnd cause)
  | other {problem : Problem} (placed : problem.cause.misplaced = none)
      (finished : problem.cause.unfinished = false) : Explains k ts problem

namespace Explains

variable {k k' : Config} {ts : List Placed} {problem : Problem}

theorem tooDeep (h : problem.cause = .tooDeep) : Explains k ts problem :=
  .other (by rw [h]; rfl) (by rw [h]; rfl)

/-- What is wrong with the tokens after others is wrong with all of them. -/
theorem later {used rest : List Placed} (reads : run k (kinds used) = some k')
    (h : Explains k' rest problem) : Explains k (used ++ rest) problem := by
  cases h with
  | @token used' after t _ _ tokens misplaced reads' stuck =>
    have split : used ++ rest = (used ++ used') ++ t :: after := by
      rw [tokens, List.append_assoc]
    exact .token split misplaced (by simp [reads, reads']) stuck
  | ending unfinished reads' incomplete =>
    exact .ending unfinished (by simp [reads, reads']) incomplete
  | other placed finished => exact .other placed finished

/-- The first token takes the automaton to where the problem is. -/
theorem next {t : Placed} {rest : List Placed} (reads : step k t.token = some k')
    (h : Explains k' rest problem) : Explains k (t :: rest) problem := by
  have first : run k (kinds [t]) = some k' := by simp [reads]
  exact later first h

/-- The first token is the problem. -/
theorem here {t : Placed} {rest : List Placed} {cause : Cause}
    (misplaced : cause.misplaced = some t.token) (stuck : step k t.token = none) :
    Explains k (t :: rest) (.atToken t.column cause) :=
  .token (List.nil_append _).symm misplaced rfl stuck

end Explains

/-! ## Steps -/

/-- The phrase of the level before these tokens does not go on with a connective. -/
def Ended (level : Level) (ts : List Placed) : Prop :=
  ∀ op column rest, ts = ⟨.operator op, column⟩ :: rest → level.continuedBy (.operator op) = false

/-- A chain ends where its last operand has ended, before no connective or another one. -/
theorem Ended.joined {op : Connective} {ts : List Placed} (h : Ended (.operand op) ts)
    (other : ∀ column rest, ts ≠ ⟨.operator op, column⟩ :: rest) : Ended (.joined op) ts := by
  intro found column rest present
  have ended := h found column rest present
  have ne : found ≠ op := fun same => other column rest (same ▸ present)
  cases op <;> cases found <;> first | rfl | contradiction

/-- Every connective continues a formula. -/
theorem Ended.ne_operator {ts : List Placed} (h : Ended (.joined .equiv) ts) (op : Connective)
    (column : Nat) (rest : List Placed) : ts ≠ ⟨.operator op, column⟩ :: rest := by
  intro present
  have ended := h op column rest present
  cases op <;> contradiction

/-- The automaton reads along with a step that reads phrases of the level: it takes what the
step reads for one operand, the phrase ends where the step stops, and the automaton finds the
problems of the step. -/
structure Tracks (level : Level) (read : Step Node) : Prop where
  sound : Sound level read
  ends : ∀ {c node c'}, read c = .ok node c' → Ended level c'.rest
  explains : ∀ {c problem c'}, read c = .error problem c' → c.opened ≤ depthLimit →
    ∀ frames, Explains ⟨.operand, frames⟩ c.rest problem

/-- What a step has read is one operand. -/
theorem Tracks.run_eq {level : Level} {read : Step Node} (tracks : Tracks level read)
    {c c' : Cursor} {node : Node} (h : read c = .ok node c') (bound : c.opened ≤ depthLimit)
    (frames : List Frame) :
    ∃ used, Takes used c c' ∧ run ⟨.operand, frames⟩ (kinds used) = some ⟨.complete, frames⟩ := by
  obtain ⟨used, d, takes, -, derives, -⟩ := tracks.sound h bound
  exact ⟨used, takes, derives.phrase.run_eq frames⟩

/-- A phrase inside of a construct ends as one outside does. -/
theorem Tracks.ends_within {level : Level} {read : Step Node} (tracks : Tracks level read)
    {column : Nat} {c c' : Cursor} {node : Node} (h : within column read c = .ok node c') :
    Ended level c'.rest := by
  obtain ⟨inner, found, rfl⟩ := within_ok h
  have ended : Ended level inner.rest := tracks.ends found
  exact ended

theorem Tracks.within_explains {level : Level} {read : Step Node} (tracks : Tracks level read)
    {column : Nat} {c c' : Cursor} {problem : Problem}
    (h : within column read c = .error problem c') (frames : List Frame) :
    Explains ⟨.operand, frames⟩ c.rest problem := by
  rcases within_error h with ⟨-, rfl⟩ | ⟨inner, room, failed⟩
  · exact .tooDeep rfl
  · exact tracks.explains failed room frames

/-- After a formula in parentheses, only the closing one can follow, and in a call a comma. -/
theorem expect_explains {c c' : Cursor} {problem : Problem} {frame : Frame} {frames : List Frame}
    (h : expect .closing c = .error problem c') (ended : Ended (.joined .equiv) c.rest)
    (last : frame = .call → ∀ column rest, c.rest ≠ ⟨.comma, column⟩ :: rest) :
    Explains ⟨.complete, frame :: frames⟩ c.rest problem := by
  unfold expect at h
  split at h
  · rename_i found column rest present
    rw [present] at ended last ⊢
    split at h
    · cases h
    · rename_i other
      cases h
      refine .here rfl ?_
      cases found with
      | operator op => exact absurd rfl (ended.ne_operator op column rest)
      | closing => exact absurd rfl other
      | comma =>
        cases frame with
        | group => rfl
        | call => exact absurd rfl (last rfl column rest)
      | _ => rfl
  · rename_i present
    cases h
    rw [present]
    exact .ending rfl rfl (by simp [accepting])

/-! ## The loops -/

theorem chain_ended {op : Connective} {operand : Reader}
    (tracks : Tracks (.operand op) operand.read) {left node : Node} {c c' : Cursor}
    (h : chain op operand left c = .ok node c')
    (ended : Ended (.operand op) c.rest) : Ended (.joined op) c'.rest := by
  fun_induction chain op operand left c with
  | case1 left c column rest right inner found next joined present ih =>
    exact ih h (tracks.ends found)
  | case2 | case3 => cases h
  | case4 left c found column rest present other =>
    cases h
    exact ended.joined (by simpa [present] using other)
  | case5 left c other =>
    cases h
    exact ended.joined fun column rest present => other op column rest present

theorem chain_explains {op : Connective} {operand : Reader}
    (tracks : Tracks (.operand op) operand.read) {left : Node} {c c' : Cursor}
    {problem : Problem} (h : chain op operand left c = .error problem c')
    (bound : c.opened ≤ depthLimit) (frames : List Frame) :
    Explains ⟨.complete, frames⟩ c.rest problem := by
  fun_induction chain op operand left c with
  -- the automaton is back in the same configuration after one more operand
  | case1 left c column rest right inner found next joined present ih =>
    obtain ⟨used, takes, reads⟩ := tracks.run_eq found bound frames
    have tokens : rest = used ++ inner.rest := takes.rest
    have same : inner.opened = c.opened := takes.opened
    rw [present, tokens]
    exact .next rfl (.later reads (ih h (same ▸ bound)))
  | case2 left c column rest right inner found next failed present =>
    cases h
    exact .tooDeep (Node.join_error failed)
  | case3 left c column rest problem' inner failed present =>
    cases h
    rw [present]
    exact .next rfl (tracks.explains failed bound frames)
  | case4 | case5 => cases h

theorem arguments_explains {formula : Reader} (tracks : Tracks (.joined .equiv) formula.read)
    {before : List Node} {c c' : Cursor} {problem : Problem}
    (h : arguments formula before c = .error problem c') (bound : c.opened ≤ depthLimit)
    (frames : List Frame) : Explains ⟨.operand, .call :: frames⟩ c.rest problem := by
  fun_induction arguments formula before c with
  | case1 before c node inner found column rest present ih =>
    obtain ⟨used, takes, reads⟩ := tracks.run_eq found bound (.call :: frames)
    have same : inner.opened = c.opened := takes.opened
    rw [takes.rest, present]
    exact .later reads (.next rfl (ih h (same ▸ bound)))
  | case2 => cases h
  | case3 before c node inner found problem' after failed last =>
    obtain ⟨used, takes, reads⟩ := tracks.run_eq found bound (.call :: frames)
    cases h
    rw [takes.rest]
    exact .later reads (expect_explains failed (tracks.ends found) fun _ => last)
  | case4 before c problem' inner failed =>
    cases h
    exact tracks.explains failed bound _

/-! ## The levels -/

theorem group_explains {formula : Reader} (tracks : Tracks (.joined .equiv) formula.read)
    {column : Nat} {c c' : Cursor} {problem : Problem}
    (h : group formula column c = .error problem c') (frames : List Frame) :
    Explains ⟨.operand, .group :: frames⟩ c.rest problem := by
  rcases bind_error h with failed | ⟨node, middle, read, h⟩
  · exact tracks.within_explains failed _
  · have ended := tracks.ends_within read
    obtain ⟨inner, room, read, takes⟩ := within_takes read
    obtain ⟨used, takes', reads⟩ := tracks.run_eq read room (.group :: frames)
    rcases bind_error h with failed | ⟨_, _, _, h⟩
    · rw [(takes takes').rest]
      exact .later reads (expect_explains failed ended nofun)
    · cases h

theorem call_explains {formula : Reader} (tracks : Tracks (.joined .equiv) formula.read)
    {operation : Operation} {column : Nat} {c c' : Cursor} {problem : Problem}
    (h : call formula operation column c = .error problem c') (frames : List Frame) :
    Explains ⟨.operand, .call :: frames⟩ c.rest problem := by
  rcases bind_error h with failed | ⟨nodes, middle, read, h⟩
  · rcases within_error failed with ⟨-, rfl⟩ | ⟨inner, room, failed⟩
    · exact .tooDeep rfl
    · exact arguments_explains tracks failed room frames
  · rcases Node.apply_error (of_error h) with cause | cause
    · exact .tooDeep cause
    · exact .other (by rw [cause]; rfl) (by rw [cause]; rfl)

theorem named_explains {formula : Reader} (tracks : Tracks (.joined .equiv) formula.read)
    {name : Name} {column : Nat} {c c' : Cursor} {problem : Problem}
    (h : named formula name column c = .error problem c') (frames : List Frame) :
    Explains ⟨.operand, frames⟩ (⟨.word name, column⟩ :: c.rest) problem := by
  unfold named at h
  split at h
  · rename_i column' rest operation present isFunction
    rw [present]
    have reads : step ⟨.operand, frames⟩ (.word name) = some ⟨.function, frames⟩ := by
      simp [step, isFunction]
    exact .next reads (.next rfl (call_explains tracks h frames))
  · cases h
    exact .other rfl rfl
  · cases h
    exact .other rfl rfl
  · cases h

theorem primary_explains {formula : Reader} (tracks : Tracks (.joined .equiv) formula.read)
    {c c' : Cursor} {problem : Problem} (h : primary formula c = .error problem c')
    (plain : ∀ column rest, c.rest ≠ ⟨.not, column⟩ :: rest) (frames : List Frame) :
    Explains ⟨.operand, frames⟩ c.rest problem := by
  unfold primary at h
  split at h
  · rename_i present
    cases h
    rw [present]
    exact .ending rfl rfl (by simp [accepting])
  · rename_i token column rest present
    rw [present] at plain ⊢
    split at h
    · cases h
    · exact named_explains tracks h frames
    · exact .next rfl (group_explains tracks h frames)
    · rename_i noLiteral noWord noOpening
      cases h
      refine .here rfl ?_
      cases token with
      | literal value => exact absurd rfl (noLiteral value)
      | word name => exact absurd rfl (noWord name)
      | opening => exact absurd rfl noOpening
      | not => exact absurd rfl (plain column rest)
      | operator | closing | comma => rfl

theorem negate_explains {negated : Reader} (tracks : Tracks .negation negated.read)
    {column : Nat} {c c' : Cursor} {problem : Problem}
    (h : negate negated column c = .error problem c') (frames : List Frame) :
    Explains ⟨.operand, frames⟩ c.rest problem := by
  rcases bind_error h with failed | ⟨inner, middle, -, h⟩
  · exact tracks.within_explains failed frames
  · exact .tooDeep (Node.negate_error (of_error h))

theorem imply_explains {consequent : Reader} (tracks : Tracks (.joined .implies) consequent.read)
    {column : Nat} {left : Node} {c c' : Cursor} {problem : Problem}
    (h : imply consequent column left c = .error problem c') (frames : List Frame) :
    Explains ⟨.operand, frames⟩ c.rest problem := by
  rcases bind_error h with failed | ⟨right, middle, -, h⟩
  · exact tracks.within_explains failed frames
  · exact .tooDeep (Node.join_error (of_error h))

theorem leftChain_tracks {op : Connective} (left : op ≠ .implies) {operand : Reader}
    (tracks : Tracks (.operand op) operand.read) :
    Tracks (.joined op) (leftChain op operand).read where
  sound := leftChain_sound left tracks.sound
  ends h := by
    simp only [leftChain] at h
    split at h
    · rename_i first inner read
      exact chain_ended tracks h (tracks.ends read)
    · cases h
  explains {c _ _} h bound frames := by
    simp only [leftChain] at h
    split at h
    · rename_i first inner read
      obtain ⟨used, takes, reads⟩ := tracks.run_eq read bound frames
      rw [takes.rest]
      exact .later reads (chain_explains tracks h (takes.opened ▸ bound) frames)
    · rename_i failed
      cases h
      exact tracks.explains failed bound frames

/-- The automaton reads along with the readers of the inside of a construct. -/
structure Inside.Tracks (inside : Inside) : Prop where
  formula : Reading.Tracks (.joined .equiv) inside.formula.read
  consequent : Reading.Tracks (.joined .implies) inside.consequent.read
  negated : Reading.Tracks .negation inside.negated.read

namespace Inside.Tracks

variable {inside : Inside}

theorem sound (tracks : inside.Tracks) : inside.Sound :=
  ⟨tracks.formula.sound, tracks.consequent.sound, tracks.negated.sound⟩

theorem negation (tracks : inside.Tracks) : Reading.Tracks .negation (negation inside).read where
  sound := tracks.sound.negation
  ends _ := fun _ _ _ _ => rfl
  explains h bound frames := by
    simp only [Reading.negation] at h
    split at h
    · rename_i column rest present
      rw [present]
      exact .next rfl (negate_explains tracks.negated h frames)
    · rename_i plain
      exact primary_explains tracks.formula h plain frames

theorem conjunction (tracks : inside.Tracks) :
    Reading.Tracks (.joined .and) (conjunction inside).read :=
  leftChain_tracks (by decide) tracks.negation

theorem exclusion (tracks : inside.Tracks) :
    Reading.Tracks (.joined .xor) (exclusion inside).read :=
  leftChain_tracks (by decide) tracks.conjunction

theorem disjunction (tracks : inside.Tracks) :
    Reading.Tracks (.joined .or) (disjunction inside).read :=
  leftChain_tracks (by decide) tracks.exclusion

theorem implication (tracks : inside.Tracks) :
    Reading.Tracks (.joined .implies) (implication inside).read where
  sound := tracks.sound.implication
  ends h := by
    simp only [Reading.implication] at h
    split at h
    · rename_i left middle read
      split at h
      · rename_i column rest present
        obtain ⟨right, after, read', h⟩ := bind_ok h
        obtain ⟨-, rfl⟩ := of_ok h
        exact tracks.consequent.ends_within read'
      · rename_i other
        have ended : Ended (.operand .implies) middle.rest := tracks.disjunction.ends read
        cases h
        exact ended.joined other
    · cases h
  explains h bound frames := by
    simp only [Reading.implication] at h
    split at h
    · rename_i left middle read
      obtain ⟨used, takes, reads⟩ := tracks.disjunction.run_eq read bound frames
      split at h
      · rename_i column rest present
        rw [takes.rest, present]
        exact .later reads (.next rfl (imply_explains tracks.consequent h frames))
      · cases h
    · rename_i failed
      cases h
      exact tracks.disjunction.explains failed bound frames

theorem equivalence (tracks : inside.Tracks) :
    Reading.Tracks (.joined .equiv) (equivalence inside).read :=
  leftChain_tracks (by decide) tracks.implication

end Inside.Tracks

theorem exhausted_tracks (level : Level) : Tracks level exhausted.read where
  sound := exhausted_sound level
  ends h := by cases h
  explains h _ _ := by
    cases h
    exact .tooDeep rfl

/-- The automaton reads along at every level, with any fuel. -/
theorem tracks_insideOf (fuel : Nat) : (insideOf fuel).Tracks := by
  induction fuel with
  | zero => exact ⟨exhausted_tracks _, exhausted_tracks _, exhausted_tracks _⟩
  | succ fuel ih => exact ⟨ih.equivalence, ih.implication, ih.negation⟩

/-- The automaton finds every problem with the tokens of a text from its start. -/
theorem all_explains {tokens : List Placed} {problem : Problem}
    (h : all tokens = .error problem) : Explains start tokens problem := by
  have tracks : Tracks (.joined .equiv) formula.read := (tracks_insideOf depthLimit).equivalence
  unfold all at h
  split at h
  · cases h
    exact .other rfl rfl
  · split at h
    · rename_i node c read
      obtain ⟨used, takes, reads⟩ := tracks.run_eq read (Nat.zero_le _) []
      split at h
      · cases h
      · rename_i found column rest present
        cases h
        have ended := tracks.ends read
        have parts : tokens = used ++ ⟨found, column⟩ :: rest := present ▸ takes.rest
        rw [parts]
        refine .later reads (.here rfl ?_)
        cases found with
        | operator op => exact absurd present (ended.ne_operator op column rest)
        | _ => rfl
    · rename_i failed
      cases h
      exact tracks.explains failed (Nat.zero_le _) []

end Reading

namespace Formula

open Reading (kinds)

/-- A token that is said not to stand where it does is the first that no formula goes on with:
the tokens before it are the beginning of a formula, and with it they are not. A text that is
said to end too early is the beginning of a longer formula and no formula. Formulas are those
of the grammar alone, without the limits, and with any number of arguments in a call. -/
theorem parse_malformed_viable {text : String} {tokens : List Placed} {column : Nat}
    {cause : Cause} (scanned : scan text = .ok tokens)
    (failed : parse text = .error (.malformed column cause)) :
    (∀ found, cause.misplaced = some found →
      ∃ before after, tokens = before ++ ⟨found, column⟩ :: after ∧
        (∀ t ∈ before ++ after, t.column ≠ column) ∧
        Viable (kinds before) ∧ ¬ Viable (kinds before ++ [found])) ∧
    (cause.unfinished = true →
      ¬ Sentence (kinds tokens) ∧ ∃ rest, rest ≠ [] ∧ Sentence (kinds tokens ++ rest)) := by
  simp only [parse, scanned] at failed
  split at failed
  · rename_i problem refused
    have explains := Reading.all_explains refused
    cases failed
    cases explains with
    | @token before after t k' cause parts misplaced reads stuck =>
      subst parts
      constructor
      · intro found same
        cases misplaced.symm.trans same
        refine ⟨before, after, rfl, ?_, viable_iff.2 ⟨k', reads⟩, ?_⟩
        · exact scan_column_ne scanned
        · rw [viable_iff]
          rintro ⟨k, further⟩
          simp [reads, stuck] at further
      · intro unfinished
        cases misplaced.symm.trans (Cause.misplaced_eq_none unfinished)
    | @ending k' cause unfinished reads incomplete =>
      refine ⟨fun found misplaced => ?_, fun _ => ?_⟩
      · cases (Cause.misplaced_eq_none unfinished).symm.trans misplaced
      · have noSentence : ¬ Sentence (kinds tokens) := fun sentence =>
          incomplete (Option.some.inj (reads.symm.trans (sentence_iff.1 sentence)))
        obtain ⟨rest, sentence⟩ := viable_iff.2 ⟨k', reads⟩
        refine ⟨noSentence, rest, ?_, sentence⟩
        rintro rfl
        exact noSentence (by simpa using sentence)
    | other placed finished =>
      rw [placed, finished]
      exact ⟨nofun, nofun⟩
  · split at failed <;> cases failed

/-- Parentheses without a function take no comma. With a function they take commas, even if it
has one argument only, and have to be closed. -/
theorem parse_malformed_viable_comma :
    (∃ before after,
      [⟨.opening, 1⟩, ⟨.literal false, 2⟩, ⟨.comma, 3⟩, ⟨.literal true, 4⟩, ⟨.closing, 5⟩] =
          before ++ ⟨.comma, 3⟩ :: after ∧
        (∀ t ∈ before ++ after, t.column ≠ 3) ∧
        Viable (kinds before) ∧ ¬ Viable (kinds before ++ [.comma])) ∧
    ¬ Sentence [.word ⟨"Not", by decide⟩, .opening, .literal false, .comma, .literal true] ∧
      ∃ rest, rest ≠ [] ∧ Sentence
        ([.word ⟨"Not", by decide⟩, .opening, .literal false, .comma, .literal true] ++ rest) := by
  constructor
  · have scanned : scan "(0,1)" = .ok [⟨.opening, 1⟩, ⟨.literal false, 2⟩, ⟨.comma, 3⟩,
        ⟨.literal true, 4⟩, ⟨.closing, 5⟩] := by
      with_unfolding_all rfl
    have failed : parse "(0,1)" =
        .error (.malformed 3 (.expected .closing (some .comma))) := by
      with_unfolding_all rfl
    exact (parse_malformed_viable scanned failed).1 .comma rfl
  · have scanned : scan "Not(0,1" = .ok [⟨.word ⟨"Not", by decide⟩, 1⟩, ⟨.opening, 4⟩,
        ⟨.literal false, 5⟩, ⟨.comma, 6⟩, ⟨.literal true, 7⟩] := by
      with_unfolding_all rfl
    have failed : parse "Not(0,1" = .error (.malformed 8 (.expected .closing none)) := by
      with_unfolding_all rfl
    exact (parse_malformed_viable scanned failed).2 rfl

end Formula

end Propositional
