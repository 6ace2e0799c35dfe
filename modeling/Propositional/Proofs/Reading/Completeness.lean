import Propositional.Proofs.Grammar.Unambiguous
import Propositional.Proofs.Reading.Soundness

/-!
# Every phrase is read, or too deep

A step is complete for a level if it reads every phrase of the level that is stopped by the
token after it: no more than the phrase, as the tree with its height. It may find the phrase
too deep, but only if the constructs around one of its tokens, with those open already, or
the steps of one branch of its tree exceed the limit.

Results:
1. `Node.join_eq`, `Node.apply_eq`: a tree is built, or too high.
2. `ReadUnless.bind`, `readUnless_within`: what a phrase exceeds, its parts may exceed.
3. `chain_complete`, `arguments_complete`: the two loops, by induction on what they read.
4. `complete_insideOf`: every level of the grammar is complete, by induction on the fuel,
   as long as the fuel and the open constructs together make up the limit.
-/

namespace Propositional.Reading

open Step

/-! ## Nodes -/

/-- The tree with its height. -/
def Node.ofFormula (f : Formula) : Node := ⟨f, f.height⟩

/-- The tree with its height, or the operation at `column` is too high for it. -/
def Node.built (column : Nat) (f : Formula) : Except Problem Node :=
  if f.height ≤ depthLimit then .ok (ofFormula f) else .error (.atToken column .tooDeep)

theorem Node.map_grow_eq {column height : Nat} {f : Formula} (top : f.height = height + 1) :
    (grow column height).map (⟨f, ·⟩) = built column f := by
  by_cases room : height < depthLimit
  · have low : f.height ≤ depthLimit := top ▸ room
    rw [grow, if_pos room, built, if_pos low, ofFormula, top]
    rfl
  · have high : ¬ f.height ≤ depthLimit := top ▸ room
    rw [grow, if_neg room, built, if_neg high]
    rfl

theorem Node.negate_eq (column : Nat) (f : Formula) :
    negate column (ofFormula f) = built column (.not f) :=
  map_grow_eq rfl

theorem Node.join_eq (op : Connective) (column : Nat) (f g : Formula) :
    join op column (ofFormula f) (ofFormula g) = built column (.binary op f g) :=
  map_grow_eq rfl

/-- A chain is too high from the first tree on that is. -/
theorem Node.foldlM_join_eq (op : Connective) (column : Nat) (f : Formula)
    (rest : List Formula) :
    (built column f >>= fun node => (rest.map ofFormula).foldlM (join op column) node) =
      built column (rest.foldl (.binary op) f) := by
  induction rest generalizing f with
  | nil => simp
  | cons g rest ih =>
    rw [List.foldl_cons, ← ih]
    by_cases low : f.height ≤ depthLimit
    · rw [built, if_pos low, List.map_cons, ← join_eq]
      rfl
    · have high : ¬ (Formula.binary op f g).height ≤ depthLimit := by
        simp only [Formula.height]
        omega
      simp only [built, if_neg low, if_neg high]
      rfl

theorem Node.apply_eq {operation : Operation} {fs : List Formula} {f : Formula}
    (applied : operation.applied fs = some f) (column : Nat) :
    apply operation column (fs.map ofFormula) = built column f := by
  rcases Operation.applied_some applied with ⟨rfl, a, rfl, rfl⟩ | ⟨op, a, b, rest, rfl, rfl, rfl⟩
  · exact negate_eq column a
  · rw [Operation.applied_binary] at applied
    split at applied
    · rename_i admitted
      simp only [List.map_cons, apply]
      rw [if_pos (by simpa using admitted), List.foldlM_cons, join_eq]
      exact foldlM_join_eq op column (.binary op a b) rest
    · cases applied

theorem Node.Measured.eq_ofFormula {node : Node} (measured : node.Measured) :
    node = .ofFormula node.formula := by
  rw [ofFormula, ← measured.1]

theorem Node.Measured.low {node : Node} (measured : node.Measured) :
    node.formula.height ≤ depthLimit := measured.1 ▸ measured.2

theorem Node.built_error {column : Nat} {f : Formula} {problem : Problem}
    (h : built column f = .error problem) :
    problem = .atToken column .tooDeep ∧ depthLimit < f.height := by
  unfold built at h
  split at h
  · cases h
  · rename_i high
    cases h
    exact ⟨rfl, Nat.lt_of_not_le high⟩

theorem Node.negate_high {column : Nat} {inner : Node} {problem : Problem}
    (measured : inner.Measured) (h : negate column inner = .error problem) :
    problem = .atToken column .tooDeep ∧ depthLimit < (Formula.not inner.formula).height := by
  rw [measured.eq_ofFormula, negate_eq] at h
  exact built_error h

theorem Node.join_high {op : Connective} {column : Nat} {left right : Node} {problem : Problem}
    (measured : left.Measured) (measured' : right.Measured)
    (h : join op column left right = .error problem) :
    problem = .atToken column .tooDeep ∧
      depthLimit < (Formula.binary op left.formula right.formula).height := by
  rw [measured.eq_ofFormula, measured'.eq_ofFormula, join_eq] at h
  exact built_error h

theorem Node.map_ofFormula {nodes : List Node} (all : ∀ node ∈ nodes, node.Measured) :
    (nodes.map Node.formula).map ofFormula = nodes := by
  rw [List.map_map]
  refine (List.map_congr_left fun node mem => ?_).trans (List.map_id nodes)
  exact (all node mem).eq_ofFormula.symm

/-- A call without a tree is refused for the number of its arguments. -/
theorem Node.apply_refused {operation : Operation} {column : Nat} {arguments : List Node}
    (none : operation.applied (arguments.map Node.formula) = none) :
    apply operation column arguments =
      .error (.atToken column (.wrongArity operation arguments.length)) := by
  unfold apply
  split
  · cases none
  · rename_i op first rest
    rw [List.map_cons, Operation.applied_binary, List.length_map] at none
    split at none
    · cases none
    · rename_i refused
      exact if_neg refused
  · rfl

theorem Node.apply_high {operation : Operation} {column : Nat} {arguments : List Node}
    {f : Formula} {problem : Problem} (all : ∀ argument ∈ arguments, argument.Measured)
    (applied : operation.applied (arguments.map Node.formula) = some f)
    (h : apply operation column arguments = .error problem) :
    problem = .atToken column .tooDeep ∧ depthLimit < f.height := by
  rw [← map_ofFormula all, apply_eq applied] at h
  exact built_error h

/-! ## Steps -/

/-- More constructs are open around a token of the phrase than the limit, or its tree is higher. -/
def Exceeds (opened d height : Nat) : Prop := depthLimit < opened + d ∨ depthLimit < height

theorem Exceeds.mono {opened opened' d d' height height' : Nat} (h : Exceeds opened d height)
    (deeper : opened + d ≤ opened' + d') (higher : height ≤ height') :
    Exceeds opened' d' height' :=
  h.imp (Nat.lt_of_lt_of_le · deeper) (Nat.lt_of_lt_of_le · higher)

/-- The value is read up to the cursor `c`, unless the limits are exceeded, which may be
found out before. -/
inductive ReadUnless {α : Type} (exceeded : Prop) (value : α) (c : Cursor) :
    EStateM.Result Problem Cursor α → Prop
  | done : ReadUnless exceeded value c (.ok value c)
  | tooDeep {problem : Problem} {c' : Cursor} (deep : problem.cause = .tooDeep)
      (beyond : exceeded) : ReadUnless exceeded value c (.error problem c')

namespace ReadUnless

variable {α : Type} {exceeded : Prop} {value : α} {c : Cursor}
  {result : EStateM.Result Problem Cursor α}

theorem mono {exceeded' : Prop} (h : ReadUnless exceeded value c result)
    (more : exceeded → exceeded') : ReadUnless exceeded' value c result := by
  cases h with
  | done => exact .done
  | tooDeep deep beyond => exact .tooDeep deep (more beyond)

theorem bind {β : Type} {first : Step α} {next : α → Step β} {start c' : Cursor} {value' : β}
    (h : ReadUnless exceeded value c (first start))
    (h' : ReadUnless exceeded value' c' (next value c)) :
    ReadUnless exceeded value' c' ((first >>= next) start) := by
  simp only [Bind.bind, EStateM.bind]
  generalize first start = result at h
  cases h with
  | done => exact h'
  | tooDeep deep beyond => exact .tooDeep deep beyond

end ReadUnless

theorem readUnless_expect {exceeded : Prop} (wanted : Token) (column : Nat) (rest : List Placed)
    (opened : Nat) :
    ReadUnless exceeded () ⟨rest, opened⟩ (expect wanted ⟨⟨wanted, column⟩ :: rest, opened⟩) := by
  simp only [expect, if_true]
  exact .done

theorem readUnless_of {exceeded : Prop} {column : Nat} {f : Formula} {result : Except Problem Node}
    (h : result = Node.built column f) (high : depthLimit < f.height → exceeded) (c : Cursor) :
    ReadUnless exceeded (.ofFormula f) c (of result c) := by
  subst h
  unfold Node.built
  split
  · exact .done
  · exact .tooDeep rfl (high (by omega))

/-- In a construct there is one more around the phrase, and none if there is no room for it. -/
theorem readUnless_within {α : Type} {column opened d height : Nat} {step : Step α}
    {ts rest : List Placed} {value : α}
    (h : opened < depthLimit → ReadUnless (Exceeds (opened + 1) d height) value
      ⟨rest, opened + 1⟩ (step ⟨ts, opened + 1⟩)) :
    ReadUnless (Exceeds opened (d + 1) height) value ⟨rest, opened⟩
      (within column step ⟨ts, opened⟩) := by
  unfold within
  split
  · rename_i room
    have inner := (h room).mono (·.mono (Nat.le_of_eq (Nat.add_right_comm ..)) (Nat.le_refl _))
    generalize step ⟨ts, opened + 1⟩ = result at inner
    cases inner with
    | done => exact .done
    | tooDeep deep beyond => exact .tooDeep deep beyond
  · rename_i full
    have full : depthLimit ≤ opened := Nat.le_of_not_lt full
    exact .tooDeep rfl (.inl (by omega))

/-! ## The loops -/

/-- A step that reads every phrase of the level, unless it exceeds the limits. -/
def Complete (level : Level) (opened : Nat) (step : Step Node) : Prop :=
  ∀ {d used f} (rest : List Placed), Derives level d (kinds used) f → Stops level (kinds rest) →
    ReadUnless (Exceeds opened d f.height) (.ofFormula f) ⟨rest, opened⟩
      (step ⟨used ++ rest, opened⟩)

theorem kinds_eq_cons {used : List Placed} {t : Token} {ts : List Token}
    (h : kinds used = t :: ts) :
    ∃ column more, used = ⟨t, column⟩ :: more ∧ kinds more = ts := by
  obtain ⟨⟨_, column⟩, more, rfl, rfl, rfl⟩ := List.map_eq_cons_iff.1 h
  exact ⟨column, more, rfl, rfl⟩

theorem kinds_eq_append {used : List Placed} {ts us : List Token}
    (h : kinds used = ts ++ us) :
    ∃ first more, used = first ++ more ∧ kinds first = ts ∧ kinds more = us :=
  List.map_eq_append_iff.1 h

theorem chain_done {op : Connective} {operand : Reader} {left : Node} {c : Cursor}
    (stop : Stops (.joined op) (kinds c.rest)) : chain op operand left c = .ok left c := by
  refine chain_end fun column rest present => ?_
  rw [present, kinds_cons] at stop
  exact not_stops_operator op _ stop

theorem chain_complete {op : Connective} {operand : Reader} {opened : Nat}
    (complete : Complete (.operand op) opened operand.read) {d : Nat} {ts : List Token}
    {f g : Formula} (h : Steps op f d ts g) {used rest : List Placed} (phrase : kinds used = ts)
    (stop : Stops (.joined op) (kinds rest)) :
    ReadUnless (Exceeds opened d g.height) (.ofFormula g) ⟨rest, opened⟩
      (chain op operand (.ofFormula f) ⟨used ++ rest, opened⟩) := by
  induction h using Steps.chain_induction generalizing used with
  | done f =>
    rw [List.map_eq_nil_iff.1 phrase, List.nil_append, chain_done stop]
    exact .done
  | step f b g d e ts us next more ih =>
    obtain ⟨column, tail, rfl, split⟩ := kinds_eq_cons phrase
    obtain ⟨first, used, rfl, here, later⟩ := kinds_eq_append split
    have lower : (Formula.binary op f b).height ≤ g.height := more.height_le
    have operand : b.height ≤ g.height :=
      Nat.le_trans (Nat.le_succ_of_le (Nat.le_max_right _ _)) lower
    have read := complete (used ++ rest) (here ▸ next) (by simpa [later] using more.stops stop)
    rw [List.cons_append, List.append_assoc, chain_cons]
    -- the operand, its join and the other steps: none exceeds more than the whole chain does
    refine (read.mono (·.mono (by omega) operand)).bind ?_
    refine (readUnless_of (Node.join_eq ..) (fun high => .inr (by omega)) _).bind ?_
    exact (ih later).mono (·.mono (by omega) (Nat.le_refl _))

theorem arguments_complete {formula : Reader} {opened : Nat}
    (complete : Complete (.joined .equiv) opened formula.read) {d : Nat} {ts : List Token}
    {fs : List Formula} (h : Arguments d ts fs) {used : List Placed} (phrase : kinds used = ts)
    {height : Nat} (low : ∀ f ∈ fs, f.height ≤ height)
    (before : List Node) (column : Nat) (rest : List Placed) :
    ReadUnless (Exceeds opened d height) (before.reverse ++ fs.map .ofFormula) ⟨rest, opened⟩
      (arguments formula before ⟨used ++ ⟨.closing, column⟩ :: rest, opened⟩) := by
  match h with
  | .one only =>
    subst phrase
    have read := complete (⟨.closing, column⟩ :: rest) only (by simp)
    generalize answer : formula.read _ = result at read
    cases read with
    | tooDeep deep beyond =>
      rw [arguments_error answer]
      exact .tooDeep deep (beyond.mono (Nat.le_refl _) (low _ (by simp)))
    | done =>
      rw [arguments_end answer (by simp), List.map_singleton, ← List.reverse_cons]
      exact (readUnless_expect .closing column rest opened).bind .done
  | .more (f := f) first others =>
    obtain ⟨used, tail, rfl, rfl, split⟩ := kinds_eq_append phrase
    obtain ⟨comma, more, rfl, rfl⟩ := kinds_eq_cons split
    have read := complete (⟨.comma, comma⟩ :: (more ++ ⟨.closing, column⟩ :: rest)) first (by simp)
    rw [List.append_assoc, List.cons_append]
    generalize answer : formula.read _ = result at read
    cases read with
    | tooDeep deep beyond =>
      rw [arguments_error answer]
      exact .tooDeep deep (beyond.mono (by omega) (low _ (by simp)))
    | done =>
      have tail := arguments_complete complete others rfl (fun f mem => low f (by simp [mem]))
        (.ofFormula f :: before) column rest
      rw [arguments_comma answer]
      simpa using tail.mono (·.mono (by omega) (Nat.le_refl _))

/-! ## The levels -/

theorem named_var {formula : Reader} {name : Name} (free : Operation.ofName? name.text = none)
    (column : Nat) {c : Cursor} (stop : Stops .primary (kinds c.rest)) :
    named formula name column c = .ok (.leaf (.var name)) c := by
  unfold named
  split
  · rename_i present _
    rw [present] at stop
    exact absurd stop (not_stops_opening _ _)
  · rename_i present _
    rw [present] at stop
    exact absurd stop (not_stops_opening _ _)
  · rename_i isFunction _
    rw [free] at isFunction
    cases isFunction
  · rfl

theorem named_call {formula : Reader} {name : Name} {operation : Operation}
    (isFunction : Operation.ofName? name.text = some operation) (column opening opened : Nat)
    (rest : List Placed) :
    named formula name column ⟨⟨.opening, opening⟩ :: rest, opened⟩ =
      call formula operation column ⟨rest, opened⟩ := by
  simp only [named, isFunction]

theorem leftChain_complete (op : Connective) (left : op ≠ .implies) {operand : Reader}
    {opened : Nat} (complete : Complete (.operand op) opened operand.read) :
    Complete (.joined op) opened (leftChain op operand).read := by
  intro d used f rest derives stop
  generalize phrase : kinds used = ts at derives
  cases derives with
  | chain _ first more =>
    obtain ⟨start, tail, rfl, rfl, rfl⟩ := kinds_eq_append phrase
    have read := complete (tail ++ rest) first (by simpa using more.stops stop)
    rw [leftChain_eq, List.append_assoc]
    refine (read.mono (·.mono (by omega) more.height_le)).bind ?_
    exact (chain_complete complete more rfl stop).mono (·.mono (by omega) (Nat.le_refl _))
  | alone | implies => exact absurd rfl left

/-- The readers of the inside of a construct are complete where a construct can be opened. -/
def Inside.Complete (inside : Inside) (opened : Nat) : Prop :=
  opened < depthLimit →
    Reading.Complete (.joined .equiv) (opened + 1) inside.formula.read ∧
    Reading.Complete (.joined .implies) (opened + 1) inside.consequent.read ∧
    Reading.Complete .negation (opened + 1) inside.negated.read

namespace Inside.Complete

variable {inside : Inside} {opened : Nat}

theorem primary (complete : inside.Complete opened) :
    Reading.Complete .primary opened (primary inside.formula) := by
  intro d used f rest derives stop
  generalize phrase : kinds used = ts at derives
  cases derives with
  | literal =>
    obtain ⟨column, more, rfl, none⟩ := kinds_eq_cons phrase
    rw [List.map_eq_nil_iff.1 none]
    exact .done
  | var free =>
    obtain ⟨column, more, rfl, none⟩ := kinds_eq_cons phrase
    rw [List.map_eq_nil_iff.1 none]
    show ReadUnless _ _ _ (named inside.formula _ column ⟨rest, opened⟩)
    rw [named_var free column stop]
    exact .done
  | @group d ts _ inner =>
    obtain ⟨column, tail, rfl, split⟩ := kinds_eq_cons phrase
    obtain ⟨used, last, rfl, rfl, closes⟩ := kinds_eq_append split
    obtain ⟨closing, more, rfl, none⟩ := kinds_eq_cons closes
    rw [List.map_eq_nil_iff.1 none, List.cons_append, List.append_assoc]
    show ReadUnless _ _ _ (group inside.formula column _)
    refine (readUnless_within fun room => ?_).bind
      ((readUnless_expect .closing closing rest opened).bind .done)
    exact (complete room).1 (⟨.closing, closing⟩ :: rest) inner (by simp)
  | @call name operation d ts fs _ isFunction inner applied =>
    obtain ⟨column, tail, rfl, following⟩ := kinds_eq_cons phrase
    obtain ⟨opening, tail, rfl, split⟩ := kinds_eq_cons following
    obtain ⟨used, last, rfl, between, closes⟩ := kinds_eq_append split
    obtain ⟨closing, more, rfl, none⟩ := kinds_eq_cons closes
    rw [List.map_eq_nil_iff.1 none, List.cons_append, List.cons_append, List.append_assoc]
    show ReadUnless _ _ _ (named inside.formula _ column _)
    rw [List.singleton_append, named_call isFunction]
    refine (readUnless_within fun room => ?_).bind
      (readUnless_of (Node.apply_eq applied column) .inr _)
    exact arguments_complete (complete room).1 inner between
      (fun a argument => Operation.height_le_applied applied argument) [] closing rest

theorem negation (complete : inside.Complete opened) :
    Reading.Complete .negation opened (negation inside).read := by
  intro d used f rest derives stop
  generalize phrase : kinds used = ts at derives
  cases derives with
  | bare only =>
    subst phrase
    have read := complete.primary rest only stop.primary
    simp only [Reading.negation]
    split
    · rename_i column more present
      have starts := congrArg (fun ts => (kinds ts).head?) present
      exact absurd (by simpa using starts) (only.head?_ne_not (kinds rest))
    · exact read
  | @not d ts f inner =>
    obtain ⟨column, used, rfl, rfl⟩ := kinds_eq_cons phrase
    show ReadUnless _ _ _ (negate inside.negated column ⟨used ++ rest, opened⟩)
    refine (readUnless_within fun room => ?_).bind
      (readUnless_of (Node.negate_eq column f) .inr _)
    have read := (complete room).2.2 rest inner stop
    exact read.mono (·.mono (Nat.le_refl _) (Nat.le_succ _))

theorem conjunction (complete : inside.Complete opened) :
    Reading.Complete (.joined .and) opened (conjunction inside).read :=
  leftChain_complete .and (by decide) complete.negation

theorem exclusion (complete : inside.Complete opened) :
    Reading.Complete (.joined .xor) opened (exclusion inside).read :=
  leftChain_complete .xor (by decide) complete.conjunction

theorem disjunction (complete : inside.Complete opened) :
    Reading.Complete (.joined .or) opened (disjunction inside).read :=
  leftChain_complete .or (by decide) complete.exclusion

theorem implication (complete : inside.Complete opened) :
    Reading.Complete (.joined .implies) opened (implication inside).read := by
  intro d used f rest derives stop
  generalize phrase : kinds used = ts at derives
  cases derives with
  | chain left => exact absurd rfl left
  | alone only =>
    subst phrase
    have read := complete.disjunction rest only stop.operand
    simp only [Reading.implication]
    generalize (Reading.disjunction inside).read _ = result at read ⊢
    cases read with
    | tooDeep deep beyond => exact .tooDeep deep beyond
    | done =>
      -- the rest would go on with the implication that stops before it
      dsimp only
      split
      · exact absurd stop (not_stops_operator _ _)
      · exact .done
  | @implies d e ts us f g first inner =>
    obtain ⟨start, tail, rfl, rfl, split⟩ := kinds_eq_append phrase
    obtain ⟨column, tail, rfl, rfl⟩ := kinds_eq_cons split
    have read := complete.disjunction (⟨.operator .implies, column⟩ :: (tail ++ rest)) first
      (stops_operand_operator _ _)
    have left : f.height ≤ (Formula.binary .implies f g).height :=
      Nat.le_succ_of_le (Nat.le_max_left _ _)
    have right : g.height ≤ (Formula.binary .implies f g).height :=
      Nat.le_succ_of_le (Nat.le_max_right _ _)
    simp only [Reading.implication, List.append_assoc, List.cons_append]
    generalize (Reading.disjunction inside).read _ = result at read ⊢
    cases read with
    | tooDeep deep beyond => exact .tooDeep deep (beyond.mono (by omega) left)
    | done =>
      show ReadUnless _ _ _ (imply inside.consequent column (.ofFormula f) ⟨tail ++ rest, opened⟩)
      have inside : opened < depthLimit → _ := fun room => (complete room).2.1 rest inner stop
      exact ((readUnless_within inside).mono (·.mono (by omega) right)).bind
        (readUnless_of (Node.join_eq ..) .inr _)

theorem equivalence (complete : inside.Complete opened) :
    Reading.Complete (.joined .equiv) opened (equivalence inside).read :=
  leftChain_complete .equiv (by decide) complete.implication

end Inside.Complete

/-- Every level is complete, as long as the fuel lasts to the limit. -/
theorem complete_insideOf {fuel opened : Nat} (enough : depthLimit ≤ opened + fuel) :
    (insideOf fuel).Complete opened := by
  induction fuel generalizing opened with
  -- without fuel the limit is reached, and there is no room for a construct
  | zero => exact fun room => absurd room (by omega)
  | succ fuel ih =>
    have complete : (insideOf fuel).Complete (opened + 1) := ih (by omega)
    exact fun _ => ⟨complete.equivalence, complete.implication, complete.negation⟩

/-- A phrase is read as a formula, unless it exceeds the limits. -/
theorem formula_complete : Complete (.joined .equiv) 0 formula.read :=
  (complete_insideOf (by omega)).equivalence

end Propositional.Reading
