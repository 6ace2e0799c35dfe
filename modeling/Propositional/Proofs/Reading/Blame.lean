import Propositional.Proofs.Grammar.Blame
import Propositional.Proofs.Reading.Completeness
import Propositional.Proofs.Reading.Failure
import Propositional.Proofs.Token.Tiling

/-!
# What the column of a problem is the column of

The automaton of the beginnings finds the problems of the order of the tokens. Every other problem
of a text with tokens is about one token, which `Blamed` names: that of a function, or the one at
which a limit is exceeded. The place of the problem is this token, however far the text has been
read when the problem is found. Only a text that ends too early has a problem at its end.

Results:
1. `Located.later`: a problem inside a phrase is a problem of the phrase.
2. `chain_located`, `arguments_located`: the two loops, by induction on their runs.
3. `finds_insideOf`: every level of the grammar places its problems, by induction on the fuel,
   as long as the fuel and the open constructs together make up the limit.
4. `Formula.pointsAt_of_parse`, `Formula.parse_malformed_column`: what the column of a problem is
   the column of, and that it is one of the text or the one after it.
-/

namespace Propositional

/-- A token is not blamed for the end of the text. -/
theorem Blamed.finished {level : Level} {opened : Nat} {cause : Cause}
    {before after : List Token} {t : Token} (h : Blamed level opened cause before t after) :
    cause.unfinished = false := by
  induction h with
  | here offends => cases offends <;> rfl
  | inside enters blamed ih => exact ih

namespace Reading

open Step

/-- The problem is one of the order of the tokens, or one with the token that it is placed at. -/
inductive Located (level : Level) (opened : Nat) (ts : List Placed) : Problem → Prop
  | order {problem : Problem}
      (found : problem.cause.misplaced ≠ none ∨ problem.cause.unfinished = true) :
      Located level opened ts problem
  | token {before after : List Placed} {t : Placed} {cause : Cause}
      (tokens : ts = before ++ t :: after)
      (blamed : Blamed level opened cause (kinds before) t.token (kinds after)) :
      Located level opened ts (.atToken t.column cause)

namespace Located

variable {level inner : Level} {opened more : Nat} {problem : Problem}

/-- What is wrong with the inner phrase is wrong with the outer one. -/
theorem later {ts used rest : List Placed} {outer : List Token} (tokens : ts = used ++ rest)
    (enters : Enters level more outer inner) (before : kinds used = outer)
    (h : Located inner (opened + more) rest problem) : Located level opened ts problem := by
  subst tokens before
  cases h with
  | order found => exact .order found
  | @token before after t cause tokens blamed =>
    have split : used ++ rest = (used ++ before) ++ t :: after := by
      rw [tokens, List.append_assoc]
    refine .token split ?_
    rw [kinds_append]
    exact .inside enters blamed

/-- The token after these is the problem. -/
theorem here {ts before after : List Placed} {t : Placed} {cause : Cause}
    (tokens : ts = before ++ t :: after)
    (offends : Offends level opened cause (kinds before) t.token (kinds after)) :
    Located level opened ts (.atToken t.column cause) :=
  .token tokens (.here offends)

/-- The first token is the problem. -/
theorem first {after : List Placed} {t : Placed} {cause : Cause}
    (offends : Offends level opened cause [] t.token (kinds after)) :
    Located level opened (t :: after) (.atToken t.column cause) :=
  .here (List.nil_append _).symm offends

end Located

/-! ## Steps -/

/-- A step that places its problems in the phrases that it reads, inside of so many constructs. -/
def Locates (level : Level) (opened : Nat) (step : Step Node) : Prop :=
  ∀ {c problem c'}, step c = .error problem c' → c.opened = opened →
    Located level opened c.rest problem

theorem Ended.endsBefore {level : Level} {ts : List Placed} (h : Ended level ts) :
    level.EndsBefore (kinds ts) := by
  intro op us starts
  obtain ⟨column, rest, present, -⟩ := kinds_eq_cons starts
  exact h op column rest present

section Steps

variable {opened column : Nat} {c c' : Cursor} {problem : Problem}

/-- Another token than the one that has to follow, or none, is a problem of their order. -/
theorem expect_order {wanted : Token} (h : expect wanted c = .error problem c') :
    problem.cause.misplaced ≠ none ∨ problem.cause.unfinished = true := by
  unfold expect at h
  split at h
  · split at h
    · cases h
    · cases h
      exact .inl nofun
  · cases h
    exact .inr rfl

/-- The token that opens a construct has no room for it, or the problem is inside of it. -/
theorem within_located {α : Type} {level : Level} {read : Step α}
    {ts before after : List Placed} {t : Placed} (tokens : ts = before ++ t :: after)
    (opens : Opens level (kinds before) t.token (kinds after)) (bound : opened ≤ depthLimit)
    (h : within t.column read c = .error problem c') (same : c.opened = opened)
    (inside : ∀ {inner}, opened < depthLimit →
      read ⟨c.rest, opened + 1⟩ = .error problem inner → Located level opened ts problem) :
    Located level opened ts problem := by
  subst same
  rcases within_error h with ⟨full, rfl⟩ | ⟨inner, room, failed⟩
  · refine .here tokens ?_
    rw [Nat.le_antisymm bound full]
    exact .nested opens
  · exact inside room failed

end Steps

/-! ## The loops -/

/-- After a chain of the connective, one more operand is wrong, or makes the tree too high. -/
theorem chain_located {op : Connective} (left : op ≠ .implies) {operand : Reader} {opened : Nat}
    (bound : opened ≤ depthLimit) (tracks : Tracks (.operand op) operand.read)
    (locates : Locates (.operand op) opened operand.read) {node : Node} {c c' : Cursor}
    {problem : Problem} (h : chain op operand node c = .error problem c')
    (same : c.opened = opened) {before : List Placed} {d : Nat}
    (derives : Derives (.joined op) d (kinds before) node.formula) (measured : node.Measured) :
    Located (.joined op) opened (before ++ c.rest) problem := by
  fun_induction chain op operand node c generalizing before d with
  | case1 node c column rest right inner found next joined present ih =>
    obtain ⟨used, e, takes, -, derives', measured'⟩ := tracks.sound found (same ▸ bound)
    obtain ⟨tree, measured⟩ := Node.join_ok measured measured' joined
    have longer : Derives (.joined op) (max d e)
        (kinds (before ++ ⟨.operator op, column⟩ :: used)) next.formula := by
      rw [tree, kinds_append, kinds_cons]
      exact derives.snoc left derives'
    have located := ih h (takes.opened.trans same) longer measured
    have tokens : rest = used ++ inner.rest := takes.rest
    rw [present, tokens]
    rwa [List.append_assoc, List.cons_append] at located
  | case2 node c column rest right inner found problem' failed present =>
    obtain ⟨used, e, takes, -, derives', measured'⟩ := tracks.sound found (same ▸ bound)
    obtain ⟨rfl, high⟩ := Node.join_high measured measured' failed
    have tokens : rest = used ++ inner.rest := takes.rest
    have first : Derives (Level.ofSide op .left) d (kinds before) node.formula :=
      Level.ofSide_left left ▸ derives
    have second : Derives (Level.ofSide op .right) e (kinds used) right.formula :=
      Level.ofSide_right left ▸ derives'
    have ends : (Level.ofSide op .right).EndsBefore (kinds inner.rest) :=
      Level.ofSide_right left ▸ (tracks.ends found).endsBefore
    cases h
    rw [present]
    refine .here rfl ?_
    rw [tokens, kinds_append]
    exact .high (.binary first second ends) (by simpa using ⟨measured.low, measured'.low⟩) high
  | case3 node c column rest problem' inner failed present =>
    cases h
    rw [present, ← List.singleton_append, ← List.append_assoc]
    exact .later rfl (.next left derives) (kinds_append _ _) (locates failed same)
  | case4 | case5 => cases h

/-- After the name of a function, its parenthesis and some arguments with their commas, one more
argument is wrong, or the token after it. -/
theorem arguments_located {formula : Reader} {opened : Nat} (bound : opened < depthLimit)
    (sound : Sound (.joined .equiv) formula.read)
    (locates : Locates (.joined .equiv) (opened + 1) formula.read) {name : Name}
    {operation : Operation} (named : Operation.ofName? name.text = some operation)
    {nodes : List Node} {c c' : Cursor} {problem : Problem}
    (h : arguments formula nodes c = .error problem c') (same : c.opened = opened + 1)
    {used : List Placed} {before : List (List Token)}
    (phrases : ∀ ts ∈ before, ∃ d f, Derives (.joined .equiv) d ts f)
    (between : kinds used = .word name :: .opening :: before.flatMap (· ++ [.comma])) :
    Located .primary opened (used ++ c.rest) problem := by
  fun_induction arguments formula nodes c generalizing used before with
  | case1 nodes c node inner found column rest present ih =>
    obtain ⟨argument, d, takes, -, derives, -⟩ := sound found (same ▸ bound)
    have phrases : ∀ ts ∈ before ++ [kinds argument], ∃ d f, Derives (.joined .equiv) d ts f := by
      simpa [or_imp, forall_and] using ⟨phrases, d, node.formula, derives⟩
    have between : kinds (used ++ (argument ++ [⟨.comma, column⟩])) =
        .word name :: .opening :: (before ++ [kinds argument]).flatMap (· ++ [.comma]) := by
      simp [between]
    have located := ih h (takes.opened.trans same) phrases between
    rw [takes.rest, present]
    simpa using located
  | case2 => cases h
  | case3 nodes c node inner found problem' after failed last =>
    cases h
    exact .order (expect_order failed)
  | case4 nodes c problem' inner failed =>
    cases h
    exact .later rfl (.argument named phrases) between (locates failed same)

/-! ## The levels -/

section Levels

variable {opened column : Nat} {c c' : Cursor} {problem : Problem}

/-- A call with all of its arguments takes another number of them, or its tree is too high. -/
theorem apply_located {name : Name} {operation : Operation}
    (named : Operation.ofName? name.text = some operation) {nodes : List Node} {d : Nat}
    {ts after : List Token} {rest : List Placed}
    (derives : Arguments d ts (nodes.map Node.formula)) (all : ∀ node ∈ nodes, node.Measured)
    (failed : Node.apply operation column nodes = .error problem)
    (tokens : kinds rest = ts ++ .closing :: after) (opening : Nat) :
    Located .primary opened (⟨.word name, column⟩ :: ⟨.opening, opening⟩ :: rest) problem := by
  cases applied : operation.applied (nodes.map Node.formula) with
  | none =>
    have refused : operation.arity.admits (nodes.map Node.formula).length = false := by
      rw [← Operation.isSome_applied derives.ne_nil, applied]
      rfl
    cases (Node.apply_refused applied).symm.trans failed
    refine .first ?_
    rw [kinds_cons, tokens, ← List.length_map]
    exact .wrongArity named derives refused
  | some f =>
    obtain ⟨rfl, high⟩ := Node.apply_high all applied failed
    have low : ∀ operand ∈ nodes.map Node.formula, operand.height ≤ depthLimit := by
      intro operand mem
      obtain ⟨node, among, rfl⟩ := List.mem_map.1 mem
      exact (all node among).low
    refine .first ?_
    rw [kinds_cons, tokens]
    exact .high (.call named derives applied) low high

section Formula

variable {formula : Reader} (bound : opened ≤ depthLimit)
  (locates : opened < depthLimit → Locates (.joined .equiv) (opened + 1) formula.read)

include bound locates

theorem group_located (h : group formula column c = .error problem c')
    (same : c.opened = opened) :
    Located .primary opened (⟨.opening, column⟩ :: c.rest) problem := by
  rcases bind_error h with failed | ⟨node, middle, read, h⟩
  · refine within_located (List.nil_append _).symm .group bound failed same ?_
    intro inner room failed
    have inside := locates room failed rfl
    exact .later List.singleton_append.symm .group rfl inside
  · rcases bind_error h with failed | ⟨_, _, _, h⟩
    · exact .order (expect_order failed)
    · cases h

variable (sound : Sound (.joined .equiv) formula.read)

include sound

theorem call_located {name : Name} {operation : Operation}
    (named : Operation.ofName? name.text = some operation)
    (h : call formula operation column c = .error problem c') (same : c.opened = opened)
    (opening : Nat) :
    Located .primary opened (⟨.word name, column⟩ :: ⟨.opening, opening⟩ :: c.rest) problem := by
  rcases bind_error h with failed | ⟨nodes, middle, read, h⟩
  · refine within_located (List.nil_append _).symm (.call named) bound failed same ?_
    intro inner room failed
    have between : kinds [⟨.word name, column⟩, ⟨.opening, opening⟩] =
        .word name :: .opening :: [].flatMap (· ++ [.comma]) := rfl
    exact arguments_located room sound (locates room) named failed rfl (by simp) between
  · obtain ⟨inner, room, read, takes⟩ := within_takes read
    obtain ⟨used, t, d, _, takes', closing, rfl, -, derives, all⟩ :=
      arguments_sound sound read room (by simp)
    have tokens : kinds c.rest = kinds used ++ .closing :: kinds middle.rest := by
      rw [(takes takes').rest]
      simp [closing]
    exact apply_located named derives all (of_error h) tokens opening

theorem named_located {name : Name} (h : named formula name column c = .error problem c')
    (same : c.opened = opened) :
    Located .primary opened (⟨.word name, column⟩ :: c.rest) problem := by
  unfold named at h
  split at h
  · rename_i opening rest operation present isFunction
    rw [present]
    exact call_located bound locates sound isFunction h same opening
  · rename_i opening rest present unknown
    cases h
    rw [present]
    exact .first (.unknownFunction unknown)
  · rename_i operation isFunction other
    cases h
    refine .first (.bareFunction isFunction ?_)
    intro opens
    obtain ⟨ts, starts⟩ := List.head?_eq_some_iff.1 opens
    obtain ⟨place, more, present, -⟩ := kinds_eq_cons starts
    exact other place more present
  · cases h

theorem primary_located : Locates .primary opened (primary formula) := by
  intro c problem c' h same
  unfold primary at h
  split at h
  · cases h
    exact .order (.inr rfl)
  · rename_i token column rest present
    rw [present]
    split at h
    · cases h
    · exact named_located bound locates sound h same
    · exact group_located bound locates h same
    · cases h
      exact .order (.inl nofun)

end Formula

theorem negate_located {negated : Reader} (bound : opened ≤ depthLimit)
    (sound : Sound .negation negated.read)
    (locates : opened < depthLimit → Locates .negation (opened + 1) negated.read)
    (h : negate negated column c = .error problem c') (same : c.opened = opened) :
    Located .negation opened (⟨.not, column⟩ :: c.rest) problem := by
  rcases bind_error h with failed | ⟨inner, middle, read, h⟩
  · refine within_located (List.nil_append _).symm .not bound failed same ?_
    intro inner room failed
    have inside := locates room failed rfl
    exact .later List.singleton_append.symm .not rfl inside
  · obtain ⟨_, room, read, takes⟩ := within_takes read
    obtain ⟨used, d, takes', -, derives, measured⟩ := sound read room
    obtain ⟨rfl, high⟩ := Node.negate_high measured (of_error h)
    refine .first ?_
    rw [(takes takes').rest, kinds_append]
    exact .high (.not derives) (by simpa using measured.low) high

theorem imply_located {consequent : Reader} (bound : opened ≤ depthLimit)
    (tracks : Tracks (.joined .implies) consequent.read)
    (locates : opened < depthLimit → Locates (.joined .implies) (opened + 1) consequent.read)
    {left : Node} {before : List Placed} {d : Nat}
    (derives : Derives (.operand .implies) d (kinds before) left.formula)
    (measured : left.Measured) (h : imply consequent column left c = .error problem c')
    (same : c.opened = opened) :
    Located (.joined .implies) opened (before ++ ⟨.operator .implies, column⟩ :: c.rest)
      problem := by
  rcases bind_error h with failed | ⟨right, middle, read, h⟩
  · refine within_located rfl (.consequent derives) bound failed same ?_
    intro inner room failed
    have inside := locates room failed rfl
    rw [← List.singleton_append, ← List.append_assoc]
    exact .later rfl (.consequent derives) (kinds_append _ _) inside
  · have ends : Ended (.joined .implies) middle.rest := tracks.ends_within read
    obtain ⟨_, room, read, takes⟩ := within_takes read
    obtain ⟨used, e, takes', -, derives', measured'⟩ := tracks.sound read room
    obtain ⟨rfl, high⟩ := Node.join_high measured measured' (of_error h)
    refine .here rfl ?_
    rw [(takes takes').rest, kinds_append]
    refine .high (.binary derives derives' ends.endsBefore) ?_ high
    simpa using ⟨measured.low, measured'.low⟩

theorem leftChain_locates (op : Connective) (left : op ≠ .implies) {operand : Reader}
    (bound : opened ≤ depthLimit) (tracks : Tracks (.operand op) operand.read)
    (locates : Locates (.operand op) opened operand.read) :
    Locates (.joined op) opened (leftChain op operand).read := by
  intro c problem c' h same
  simp only [leftChain] at h
  split at h
  · rename_i first inner read
    obtain ⟨used, d, takes, -, derives, measured⟩ := tracks.sound read (same ▸ bound)
    rw [takes.rest]
    exact chain_located left bound tracks locates h (takes.opened.trans same) derives.up measured
  · rename_i failed
    cases h
    exact .later (List.nil_append _).symm .first rfl (locates failed same)

end Levels

/-- The readers of the inside of a construct place their problems, where one can be opened. -/
structure Inside.Finds (inside : Inside) (opened : Nat) : Prop where
  bound : opened ≤ depthLimit
  tracks : inside.Tracks
  formula : opened < depthLimit → Locates (.joined .equiv) (opened + 1) inside.formula.read
  consequent : opened < depthLimit →
    Locates (.joined .implies) (opened + 1) inside.consequent.read
  negated : opened < depthLimit → Locates .negation (opened + 1) inside.negated.read

namespace Inside.Finds

variable {inside : Inside} {opened : Nat}

theorem negation (finds : inside.Finds opened) :
    Locates .negation opened (negation inside).read := by
  intro c problem c' h same
  simp only [Reading.negation] at h
  split at h
  · rename_i column rest present
    rw [present]
    exact negate_located finds.bound finds.tracks.negated.sound finds.negated h same
  · have inside := primary_located finds.bound finds.formula finds.tracks.formula.sound h same
    exact .later (List.nil_append _).symm .bare rfl inside

theorem conjunction (finds : inside.Finds opened) :
    Locates (.joined .and) opened (conjunction inside).read :=
  leftChain_locates .and (by decide) finds.bound finds.tracks.negation finds.negation

theorem exclusion (finds : inside.Finds opened) :
    Locates (.joined .xor) opened (exclusion inside).read :=
  leftChain_locates .xor (by decide) finds.bound finds.tracks.conjunction finds.conjunction

theorem disjunction (finds : inside.Finds opened) :
    Locates (.joined .or) opened (disjunction inside).read :=
  leftChain_locates .or (by decide) finds.bound finds.tracks.exclusion finds.exclusion

theorem implication (finds : inside.Finds opened) :
    Locates (.joined .implies) opened (implication inside).read := by
  intro c problem c' h same
  simp only [Reading.implication] at h
  split at h
  · rename_i left middle read
    obtain ⟨used, d, takes, -, derives, measured⟩ :=
      finds.tracks.disjunction.sound read (same ▸ finds.bound)
    split at h
    · rename_i column rest present
      rw [takes.rest, present]
      exact imply_located finds.bound finds.tracks.consequent finds.consequent derives measured h
        (takes.opened.trans same)
    · cases h
  · rename_i failed
    cases h
    exact .later (List.nil_append _).symm .first rfl (finds.disjunction failed same)

theorem equivalence (finds : inside.Finds opened) :
    Locates (.joined .equiv) opened (equivalence inside).read :=
  leftChain_locates .equiv (by decide) finds.bound finds.tracks.implication finds.implication

end Inside.Finds

/-- Every level places its problems, as long as the fuel lasts to the limit. -/
theorem finds_insideOf {fuel opened : Nat} (bound : opened ≤ depthLimit)
    (enough : depthLimit ≤ opened + fuel) : (insideOf fuel).Finds opened := by
  induction fuel generalizing opened with
  -- without fuel the limit is reached, and no construct can be opened
  | zero =>
    have full {p : Prop} (room : opened < depthLimit) : p := absurd room (by omega)
    exact ⟨bound, tracks_insideOf 0, full, full, full⟩
  | succ fuel ih =>
    have finds (room : opened < depthLimit) : (insideOf fuel).Finds (opened + 1) :=
      ih room (by omega)
    exact ⟨bound, tracks_insideOf _, fun room => (finds room).equivalence,
      fun room => (finds room).implication, fun room => (finds room).negation⟩

/-- The problem of a text with tokens is one of their order, or one with the token that it is
placed at. -/
theorem all_located {tokens : List Placed} {problem : Problem} (nonempty : tokens ≠ [])
    (h : all tokens = .error problem) : Located (.joined .equiv) 0 tokens problem := by
  have locates : Locates (.joined .equiv) 0 formula.read :=
    (finds_insideOf (Nat.zero_le _) (by omega)).equivalence
  unfold all at h
  rw [if_neg (by simpa using nonempty)] at h
  generalize read : formula.read ⟨tokens, 0⟩ = result at h
  cases result with
  | error found c =>
    cases h
    exact locates read rfl
  | ok node c =>
    obtain ⟨rest, opened⟩ := c
    cases rest with
    | nil => cases h
    | cons t rest =>
      cases h
      exact .order (.inl nofun)

end Reading

namespace Formula

open Reading (kinds)

/-- What a column of the text is the column of, if it is given for the cause. -/
inductive PointsAt (text : String) : Nat → Cause → Prop
  /-- The character at which the scan ends. -/
  | character {failure : ScanError} (scanned : scan text = .error failure) :
      PointsAt text failure.column (.scan failure.cause)
  | empty (scanned : scan text = .ok []) : PointsAt text 1 .empty
  /-- The end of a text that is only the beginning of a formula. -/
  | ending {tokens : List Placed} {cause : Cause} (scanned : scan text = .ok tokens)
      (unfinished : cause.unfinished = true) (viable : Viable (kinds tokens))
      (incomplete : ¬ Sentence (kinds tokens)) : PointsAt text (text.length + 1) cause
  /-- The first token that no formula goes on with. -/
  | misplaced {before after : List Placed} {t : Placed} {cause : Cause}
      (scanned : scan text = .ok (before ++ t :: after))
      (found : cause.misplaced = some t.token) (viable : Viable (kinds before))
      (stuck : ¬ Viable (kinds before ++ [t.token])) : PointsAt text t.column cause
  /-- The name of a function, or the token at which a limit is exceeded. -/
  | blamed {before after : List Placed} {t : Placed} {cause : Cause}
      (scanned : scan text = .ok (before ++ t :: after))
      (blamed : Blamed (.joined .equiv) 0 cause (kinds before) t.token (kinds after)) :
      PointsAt text t.column cause

theorem pointsAt_of_parse {text : String} {column : Nat} {cause : Cause}
    (failed : parse text = .error (.malformed column cause)) : PointsAt text column cause := by
  unfold parse at failed
  split at failed
  · rename_i failure scanned
    cases failed
    exact .character scanned
  · rename_i tokens scanned
    split at failed
    · rename_i problem refused
      cases failed
      by_cases empty : tokens = []
      · subst empty
        cases refused
        exact .empty scanned
      -- the automaton of the beginnings finds it, or it is located
      cases Reading.all_explains refused with
      | @token before after t k cause parts misplaced reads stuck =>
        subst parts
        obtain ⟨viable, stuck⟩ := viable_of_stuck reads stuck
        exact .misplaced scanned misplaced viable stuck
      | @ending k cause unfinished reads incomplete =>
        obtain ⟨viable, incomplete⟩ := viable_of_incomplete reads incomplete
        exact .ending scanned unfinished viable incomplete
      | other placed finished =>
        cases Reading.all_located empty refused with
        | order found => simp [placed, finished] at found
        | @token before after t cause parts blamed =>
          subst parts
          exact .blamed scanned blamed
    · split at failed <;> cases failed

namespace PointsAt

variable {text : String} {column : Nat} {cause : Cause}

/-- A column is one of the text, or the one after its last. -/
theorem bounds (h : PointsAt text column cause) : 1 ≤ column ∧ column ≤ text.length + 1 := by
  cases h with
  | character scanned =>
    obtain ⟨positive, inside, -⟩ := scan_error_column scanned
    exact ⟨positive, Nat.le_succ_of_le inside⟩
  | empty => exact ⟨Nat.le_refl 1, Nat.le_add_left 1 _⟩
  | ending => exact ⟨Nat.le_add_left 1 _, Nat.le_refl _⟩
  | misplaced scanned | blamed scanned =>
    obtain ⟨positive, inside⟩ := scan_column_inside scanned _ List.mem_append_cons_self
    exact ⟨positive, Nat.le_succ_of_le inside⟩

/-- The column after the last is given if the text ends too early, and for no other cause. -/
theorem eq_end_iff (h : PointsAt text column cause) (nonempty : text ≠ "") :
    column = text.length + 1 ↔ cause.unfinished = true := by
  cases h with
  | @character failure scanned =>
    obtain ⟨-, inside, -⟩ := scan_error_column scanned
    exact iff_of_false (by omega) nofun
  | empty =>
    have positive : text.length ≠ 0 := mt String.length_eq_zero_iff.1 nonempty
    exact iff_of_false (by omega) nofun
  | ending scanned unfinished => exact iff_of_true rfl unfinished
  | misplaced scanned found =>
    obtain ⟨-, inside⟩ := scan_column_inside scanned _ List.mem_append_cons_self
    refine iff_of_false (by omega) fun unfinished => ?_
    cases found.symm.trans (Cause.misplaced_eq_none unfinished)
  | blamed scanned blamed =>
    obtain ⟨-, inside⟩ := scan_column_inside scanned _ List.mem_append_cons_self
    exact iff_of_false (by omega) (by simp [blamed.finished])

end PointsAt

/-- The column of a problem is that of a character at which the scan ends, the first of a text
without tokens, the one after the last of a text that ends too early, or the column of a token:
of the one that cannot stand there, of the name of a function, or of the token at which a limit
is exceeded. It is never 0, and after the text only if the text ends too early or is empty. -/
theorem parse_malformed_column {text : String} {column : Nat} {cause : Cause}
    (failed : parse text = .error (.malformed column cause)) :
    PointsAt text column cause ∧ (1 ≤ column ∧ column ≤ text.length + 1) ∧
      (text ≠ "" → (column = text.length + 1 ↔ cause.unfinished = true)) := by
  have points := pointsAt_of_parse failed
  exact ⟨points, points.bounds, points.eq_end_iff⟩

/-- A call with too few arguments is told at the name of the function, although the last token
of the text is read before. -/
theorem parse_malformed_column_arity :
    PointsAt "A & Or(B)" 5 (.wrongArity (.binary .or) 1) ∧ (1 ≤ 5 ∧ 5 ≤ "A & Or(B)".length + 1) ∧
      ("A & Or(B)" ≠ "" →
        (5 = "A & Or(B)".length + 1 ↔ Cause.unfinished (.wrongArity (.binary .or) 1) = true)) :=
  parse_malformed_column (by with_unfolding_all rfl)

end Formula

end Propositional
