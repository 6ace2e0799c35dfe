import Propositional.Proofs.Grammar
import Propositional.Reading.Levels

/-!
# What a reader reads is a phrase

A step is sound for a level if the tokens that it takes are a phrase of the level, with the
tree of the node that it returns. The constructs of the phrase, together with those that
are open around it, are within the limit, and so is the height of the tree.

Results:
1. `Node.join_ok`, `Node.apply_ok`: the height of a node is the height of its tree, and no
   tree is higher than the limit.
2. `chain_sound`, `arguments_sound`: the two loops, by induction on their runs.
3. `sound_insideOf`: every level of the grammar is sound, by induction on the fuel.
-/

namespace Propositional.Reading

open Step

/-- The tokens without their columns. -/
def kinds (ts : List Placed) : List Token := ts.map Placed.token

@[simp] theorem kinds_nil : kinds [] = [] := rfl

@[simp] theorem kinds_cons (t : Placed) (ts : List Placed) :
    kinds (t :: ts) = t.token :: kinds ts := rfl

@[simp] theorem kinds_append (ts us : List Placed) : kinds (ts ++ us) = kinds ts ++ kinds us :=
  List.map_append

/-! ## Nodes -/

/-- The node keeps the height of its tree, and the height is within the limit. -/
def Node.Measured (node : Node) : Prop :=
  node.height = node.formula.height ∧ node.height ≤ depthLimit

theorem Node.measured_leaf {f : Formula} (h : f.height = 0) : (leaf f).Measured :=
  ⟨h.symm, Nat.zero_le _⟩

theorem Node.negate_ok {column : Nat} {inner node : Node} (measured : inner.Measured)
    (h : negate column inner = .ok node) :
    node.formula = .not inner.formula ∧ node.Measured := by
  unfold negate grow at h
  split at h
  · rename_i lower
    cases h
    exact ⟨rfl, by simp [Formula.height, measured.1], lower⟩
  · cases h

theorem Node.join_ok {op : Connective} {column : Nat} {left right node : Node}
    (measured : left.Measured) (measured' : right.Measured)
    (h : join op column left right = .ok node) :
    node.formula = .binary op left.formula right.formula ∧ node.Measured := by
  unfold join grow at h
  split at h
  · rename_i lower
    cases h
    exact ⟨rfl, by simp [Formula.height, measured.1, measured'.1], lower⟩
  · cases h

theorem Node.foldlM_join_ok {op : Connective} {column : Nat} {rest : List Node}
    {first node : Node} (measured : first.Measured) (all : ∀ right ∈ rest, right.Measured)
    (h : rest.foldlM (join op column) first = .ok node) :
    node.formula = (rest.map Node.formula).foldl (.binary op) first.formula ∧
      node.Measured := by
  induction rest generalizing first with
  | nil =>
    cases h
    exact ⟨rfl, measured⟩
  | cons right rest ih =>
    rw [List.foldlM_cons] at h
    cases joined : join op column first right with
    | error problem =>
      rw [joined] at h
      cases h
    | ok next =>
      rw [joined] at h
      obtain ⟨tree, measured⟩ := join_ok measured (all right (by simp)) joined
      obtain ⟨trees, measured⟩ := ih measured (fun other mem => all other (by simp [mem])) h
      exact ⟨by simpa [tree] using trees, measured⟩

theorem Node.apply_ok {operation : Operation} {column : Nat} {arguments : List Node}
    {node : Node} (all : ∀ argument ∈ arguments, argument.Measured)
    (h : apply operation column arguments = .ok node) :
    operation.applied (arguments.map Node.formula) = some node.formula ∧ node.Measured := by
  unfold apply at h
  split at h
  · obtain ⟨tree, measured⟩ := negate_ok (all _ (by simp)) h
    exact ⟨by simp [Operation.applied, tree], measured⟩
  · rename_i op first rest
    split at h
    · rename_i admitted
      obtain ⟨tree, measured⟩ := foldlM_join_ok (all _ (by simp))
        (fun other mem => all other (by simp [mem])) h
      refine ⟨?_, measured⟩
      rw [List.map_cons, Operation.applied_binary, List.length_map, tree]
      exact if_pos admitted
    · cases h
  · cases h

/-! ## Steps -/

/-- The second cursor is after these tokens of the first, with as many constructs open. -/
structure Takes (used : List Placed) (c c' : Cursor) : Prop where
  rest : c.rest = used ++ c'.rest
  opened : c'.opened = c.opened

namespace Takes

theorem nil (c : Cursor) : Takes [] c c := ⟨rfl, rfl⟩

theorem cons {t : Placed} {used rest : List Placed} {c c' : Cursor} (first : c.rest = t :: rest)
    (h : Takes used ⟨rest, c.opened⟩ c') : Takes (t :: used) c c' :=
  ⟨by rw [first, List.cons_append, ← h.rest], h.opened⟩

theorem append {used used' : List Placed} {c c' c'' : Cursor} (h : Takes used c c')
    (h' : Takes used' c' c'') : Takes (used ++ used') c c'' :=
  ⟨by rw [h.rest, h'.rest, List.append_assoc], h'.opened.trans h.opened⟩

end Takes

/-- A step that reads phrases of the level: the tokens it takes are one. -/
def Sound (level : Level) (step : Step Node) : Prop :=
  ∀ {c node c'}, step c = .ok node c' → c.opened ≤ depthLimit →
    ∃ used d, Takes used c c' ∧ c.opened + d ≤ depthLimit ∧
      Derives level d (kinds used) node.formula ∧ node.Measured

/-- Closing a construct brings the count back to what it was before the construct. -/
theorem within_takes {α : Type} {column : Nat} {step : Step α} {c c' : Cursor} {value : α}
    (h : within column step c = .ok value c') :
    ∃ inner, c.opened < depthLimit ∧ step ⟨c.rest, c.opened + 1⟩ = .ok value inner ∧
      ∀ {used}, Takes used ⟨c.rest, c.opened + 1⟩ inner → Takes used c c' := by
  obtain ⟨inner, found, rfl⟩ := within_ok h
  refine ⟨inner, ?_, found, fun takes => ⟨takes.rest, ?_⟩⟩
  · unfold within at h
    split at h
    · assumption
    · cases h
  · simp [takes.opened]

theorem expect_takes {wanted : Token} {c c' : Cursor} (h : expect wanted c = .ok () c') :
    ∃ t, t.token = wanted ∧ Takes [t] c c' := by
  obtain ⟨column, rest, present, rfl⟩ := expect_ok h
  exact ⟨⟨wanted, column⟩, rfl, .cons present (.nil _)⟩

/-! ## The loops -/

theorem chain_sound {op : Connective} {operand : Reader}
    (sound : Sound (.operand op) operand.read) {left node : Node} {c c' : Cursor}
    (h : chain op operand left c = .ok node c') (bound : c.opened ≤ depthLimit)
    (measured : left.Measured) :
    ∃ used d, Takes used c c' ∧ c.opened + d ≤ depthLimit ∧
      Steps op left.formula d (kinds used) node.formula ∧ node.Measured := by
  fun_induction chain op operand left c with
  | case1 left c column rest right inner found next joined present ih =>
    obtain ⟨used, d, takes, depth, derives, measured'⟩ := sound found bound
    obtain ⟨tree, measured⟩ := Node.join_ok measured measured' joined
    have same : inner.opened = c.opened := takes.opened
    obtain ⟨used', e, takes', depth', steps, last⟩ := ih h (same ▸ bound) measured
    rw [tree] at steps
    refine ⟨_, max d e, .cons present (takes.append takes'), ?_, ?_, last⟩
    · dsimp only at depth
      omega
    · simpa using Steps.step derives steps
  -- an operand that is not read, or a node that is too high, ends the run with a problem
  | case2 | case3 => cases h
  | case4 | case5 =>
    cases h
    exact ⟨[], 0, .nil _, bound, .done, measured⟩

theorem arguments_sound {formula : Reader} (sound : Sound (.joined .equiv) formula.read)
    {before nodes : List Node} {c c' : Cursor} (h : arguments formula before c = .ok nodes c')
    (bound : c.opened ≤ depthLimit) (measured : ∀ node ∈ before, node.Measured) :
    ∃ used t d read, Takes (used ++ [t]) c c' ∧ t.token = .closing ∧
      nodes = before.reverse ++ read ∧ c.opened + d ≤ depthLimit ∧
      Arguments d (kinds used) (read.map Node.formula) ∧ ∀ node ∈ nodes, node.Measured := by
  fun_induction arguments formula before c with
  | case1 before c node inner found column rest present ih =>
    obtain ⟨used, d, takes, depth, derives, last⟩ := sound found bound
    have same : inner.opened = c.opened := takes.opened
    obtain ⟨used', t, e, read, takes', closing, rfl, depth', rest, all⟩ :=
      ih h (same ▸ bound) (by simpa using ⟨last, measured⟩)
    dsimp only at depth'
    refine ⟨used ++ ⟨.comma, column⟩ :: used', t, max d e, node :: read, ?_, closing, by simp,
      by omega, ?_, all⟩
    · simpa using takes.append (.cons present takes')
    · simpa using Arguments.more derives rest
  | case2 before c node inner found value last closed =>
    obtain ⟨used, d, takes, depth, derives, last⟩ := sound found bound
    obtain ⟨t, closing, takes'⟩ := expect_takes closed
    cases h
    refine ⟨used, t, d, [node], takes.append takes', closing, by simp, depth, .one derives, ?_⟩
    simpa [or_imp, forall_and] using ⟨measured, last⟩
  | case3 | case4 => cases h

/-! ## The levels -/

/-- The tokens that a step takes after the token `t`, together with `t`, are a phrase of the
level. -/
def SoundAfter (level : Level) (t : Token) (step : Step Node) : Prop :=
  ∀ {c node c'}, step c = .ok node c' → c.opened ≤ depthLimit →
    ∃ used d, Takes used c c' ∧ c.opened + d ≤ depthLimit ∧
      Derives level d (t :: kinds used) node.formula ∧ node.Measured

theorem group_sound {formula : Reader} (sound : Sound (.joined .equiv) formula.read)
    (column : Nat) : SoundAfter .primary .opening (group formula column) := by
  intro c node c' h bound
  obtain ⟨found, middle, read, h⟩ := bind_ok h
  obtain ⟨_, last, closed, h⟩ := bind_ok h
  cases h
  obtain ⟨inner, room, read, takes⟩ := within_takes read
  obtain ⟨used, d, takes', depth, derives, measured⟩ := sound read room
  obtain ⟨t, closing, takes''⟩ := expect_takes closed
  dsimp only at depth
  refine ⟨used ++ [t], d + 1, (takes takes').append takes'', by omega, ?_, measured⟩
  simpa [closing] using Derives.group derives

theorem call_sound {formula : Reader} (sound : Sound (.joined .equiv) formula.read)
    {name : Name} {operation : Operation} (named : Operation.ofName? name.text = some operation)
    (column : Nat) {c c' : Cursor} {node : Node} (h : call formula operation column c = .ok node c')
    {t : Placed} (opens : t.token = .opening) :
    ∃ used d, Takes used c c' ∧ c.opened + d ≤ depthLimit ∧
      Derives .primary d (.word name :: kinds (t :: used)) node.formula ∧ node.Measured := by
  obtain ⟨nodes, middle, read, h⟩ := bind_ok h
  obtain ⟨applied, rfl⟩ := of_ok h
  obtain ⟨inner, room, read, takes⟩ := within_takes read
  obtain ⟨used, t', d, found, takes', closing, rfl, depth, derives, all⟩ :=
    arguments_sound sound read room (by simp)
  obtain ⟨tree, measured⟩ := Node.apply_ok all applied
  dsimp only at depth
  refine ⟨used ++ [t'], d + 1, takes takes', by omega, ?_, measured⟩
  simpa [opens, closing] using Derives.call named derives tree

theorem named_sound {formula : Reader} (sound : Sound (.joined .equiv) formula.read)
    (name : Name) (column : Nat) :
    SoundAfter .primary (.word name) (named formula name column) := by
  intro c node c' h bound
  unfold named at h
  split at h
  · rename_i column' rest operation present isFunction
    obtain ⟨used, d, takes, depth, derives, measured⟩ :=
      call_sound sound isFunction column h (t := ⟨.opening, column'⟩) rfl
    exact ⟨⟨.opening, column'⟩ :: used, d, .cons present takes, depth, derives, measured⟩
  · cases h
  · cases h
  · rename_i free _
    cases h
    exact ⟨[], 0, .nil _, bound, .var free, Node.measured_leaf rfl⟩

theorem primary_sound {formula : Reader} (sound : Sound (.joined .equiv) formula.read) :
    Sound .primary (primary formula) := by
  intro c node c' h bound
  unfold primary at h
  split at h
  · cases h
  · rename_i token column rest present
    split at h
    · cases h
      exact ⟨_, 0, .cons present (.nil _), bound, .literal, Node.measured_leaf rfl⟩
    · obtain ⟨used, d, takes, depth, derives⟩ := named_sound sound _ _ h bound
      exact ⟨_, d, .cons present takes, depth, derives⟩
    · obtain ⟨used, d, takes, depth, derives⟩ := group_sound sound _ h bound
      exact ⟨_, d, .cons present takes, depth, derives⟩
    · cases h

theorem negate_sound {negated : Reader} (sound : Sound .negation negated.read) (column : Nat) :
    SoundAfter .negation .not (negate negated column) := by
  intro c node c' h bound
  obtain ⟨found, middle, read, h⟩ := bind_ok h
  obtain ⟨negated, rfl⟩ := of_ok h
  obtain ⟨inner, room, read, takes⟩ := within_takes read
  obtain ⟨used, d, takes', depth, derives, measured⟩ := sound read room
  obtain ⟨tree, measured⟩ := Node.negate_ok measured negated
  dsimp only at depth
  exact ⟨used, d + 1, takes takes', by omega, tree ▸ .not derives, measured⟩

theorem leftChain_sound {op : Connective} (left : op ≠ .implies) {operand : Reader}
    (sound : Sound (.operand op) operand.read) :
    Sound (.joined op) (leftChain op operand).read := by
  intro c node c' h bound
  simp only [leftChain] at h
  split at h
  · rename_i first inner read
    obtain ⟨used, d, takes, depth, derives, measured⟩ := sound read bound
    obtain ⟨used', e, takes', depth', steps, measured⟩ :=
      chain_sound sound h (takes.opened ▸ bound) measured
    rw [takes.opened] at depth'
    refine ⟨used ++ used', max d e, takes.append takes', by omega, ?_, measured⟩
    simpa using Derives.chain left derives steps
  · cases h

/-- The readers of the inside of a construct are sound. -/
structure Inside.Sound (inside : Inside) : Prop where
  formula : Reading.Sound (.joined .equiv) inside.formula.read
  consequent : Reading.Sound (.joined .implies) inside.consequent.read
  negated : Reading.Sound .negation inside.negated.read

namespace Inside.Sound

variable {inside : Inside}

theorem negation (sound : inside.Sound) : Reading.Sound .negation (negation inside).read := by
  intro c node c' h bound
  simp only [Reading.negation] at h
  split at h
  · rename_i column rest present
    obtain ⟨used, d, takes, depth, derives⟩ := negate_sound sound.negated _ h bound
    exact ⟨_, d, .cons present takes, depth, derives⟩
  · obtain ⟨used, d, takes, depth, derives, measured⟩ := primary_sound sound.formula h bound
    exact ⟨used, d, takes, depth, .bare derives, measured⟩

theorem conjunction (sound : inside.Sound) :
    Reading.Sound (.joined .and) (conjunction inside).read :=
  leftChain_sound (by decide) sound.negation

theorem exclusion (sound : inside.Sound) :
    Reading.Sound (.joined .xor) (exclusion inside).read :=
  leftChain_sound (by decide) sound.conjunction

theorem disjunction (sound : inside.Sound) :
    Reading.Sound (.joined .or) (disjunction inside).read :=
  leftChain_sound (by decide) sound.exclusion

theorem implication (sound : inside.Sound) :
    Reading.Sound (.joined .implies) (implication inside).read := by
  intro c node c' h bound
  simp only [Reading.implication] at h
  split at h
  · rename_i left middle read
    obtain ⟨used, d, takes, depth, derives, measured⟩ := sound.disjunction read bound
    split at h
    · rename_i column rest present
      obtain ⟨found, after, read', h⟩ := bind_ok h
      obtain ⟨joined, rfl⟩ := of_ok h
      obtain ⟨inner, room, read', takes'⟩ := within_takes read'
      obtain ⟨used', e, takes'', depth', derives', measured'⟩ := sound.consequent read' room
      obtain ⟨tree, measured⟩ := Node.join_ok measured measured' joined
      have same := takes.opened
      dsimp only at depth'
      refine ⟨_, max d (e + 1), takes.append (.cons present (takes' takes'')), by omega, ?_,
        measured⟩
      rw [tree]
      simpa using Derives.implies derives derives'
    · cases h
      exact ⟨used, d, takes, depth, .alone derives, measured⟩
  · cases h

theorem equivalence (sound : inside.Sound) :
    Reading.Sound (.joined .equiv) (equivalence inside).read :=
  leftChain_sound (by decide) sound.implication

end Inside.Sound

theorem exhausted_sound (level : Level) : Sound level exhausted.read := by
  intro c node c' h
  cases h

/-- Every level is sound, with any fuel. -/
theorem sound_insideOf (fuel : Nat) : (insideOf fuel).Sound := by
  induction fuel with
  | zero => exact ⟨exhausted_sound _, exhausted_sound _, exhausted_sound _⟩
  | succ fuel ih => exact ⟨ih.equivalence, ih.implication, ih.negation⟩

/-- A formula that is read is derived from the tokens that are taken. -/
theorem formula_sound : Sound (.joined .equiv) formula.read :=
  (sound_insideOf depthLimit).equivalence

end Propositional.Reading
