import Propositional.Proofs.Token.Spelling

/-!
# The tokens tile the text

The tokens of a text, each with the characters that it takes, are the whole text but its white
space. `Tiled` says so along the text, from its first character to its last. `Tiles` says it of
the text as a whole, by the columns of the tokens: every token stands at its column with one of
its spellings, the spellings do not overlap, and everything else is white space.

Results:
1. `tiled_of_scanFrom`, `Tiled.scanFrom`: a text is scanned into its tiling along the text, by
   induction on the run and on the tiling.
2. `tiled_of_scanFrom_error`: where a scan ends, the text before that place has a tiling.
3. `Tiled.tiles`, `Tiles.tiled`: both kinds of tiling are the same.
4. `scan_tiles`: a scan answers with the tokens that tile the text, or with the place of a
   character before which there are tokens.
-/

namespace Propositional

/-- From `column` on, the text is made of these tokens and of blanks. -/
inductive Tiled : Nat → List Char → List Placed → Prop
  | done {column : Nat} : Tiled column [] []
  | blank {column : Nat} {c : Char} {text : List Char} {ts : List Placed}
      (blank : Text.isBlank c = true) (more : Tiled (column + 1) text ts) :
      Tiled column (c :: text) ts
  | token {column : Nat} {token : Token} {c : Char} {lexeme text : List Char} {ts : List Placed}
      (written : token.Written (c :: lexeme) text)
      (more : Tiled (column + (c :: lexeme).length) text ts) :
      Tiled column (c :: lexeme ++ text) (⟨token, column⟩ :: ts)

/-- The characters of a token of the text: the sign that it is, or all the letters, digits and
underscores from its column on. -/
def Placed.lexeme (text : List Char) (t : Placed) : List Char :=
  if t.token.takesWord then (text.drop (t.column - 1)).takeWhile Text.isWordChar
  else t.token.text.toList

/-- From the column `start` on, the tokens are all of the text but its white space. -/
structure Tiles (text : List Char) (start : Nat) (ts : List Placed) : Prop where
  inside : ∀ t ∈ ts, start ≤ t.column ∧ t.column ≤ text.length
  columns : ts.Pairwise fun t t' => t.column < t'.column
  /-- Each token stands at its column. -/
  stands : ∀ t ∈ ts, t.lexeme text <+: text.drop (t.column - 1)
  spelled : ∀ t ∈ ts, t.lexeme text ∈ t.token.spellings
  isWord : ∀ t ∈ ts, ∀ name, t.token = .word name → name.IsWord
  /-- A token ends before the next one starts. -/
  apart : ts.Pairwise fun t t' => t.column + (t.lexeme text).length ≤ t'.column
  /-- A character that belongs to no token is white space. -/
  blank : ∀ column c, start ≤ column → text[column - 1]? = some c →
    (∃ t ∈ ts, t.column ≤ column ∧ column < t.column + (t.lexeme text).length) ∨
      Text.isBlank c = true

/-! ## Along the text -/

theorem Tiled.scanFrom {column : Nat} {text : List Char} {ts : List Placed}
    (h : Tiled column text ts) (found : List Placed) :
    scanFrom column found text = .ok (found.reverse ++ ts) := by
  induction h generalizing found with
  | done => simp [Propositional.scanFrom]
  | blank blank more ih => rw [Propositional.scanFrom, if_pos blank, ih]
  | @token column token c lexeme text ts written more ih =>
    have start := written.start
    have solid : Text.isBlank c = false := Token.isBlank_of_start start
    have place : column + 1 + lexeme.length = column + (c :: lexeme).length := by
      rw [List.length_cons, Nat.add_assoc, Nat.add_comm 1]
    rw [List.cons_append, Propositional.scanFrom, if_neg (by simp [solid]), start]
    simp only [List.drop_left, place, ih, List.reverse_cons, List.append_assoc,
      List.singleton_append]

/-- The characters of a token that is read, counted with its first. -/
theorem Token.length_of_start {c : Char} {rest : List Char} {token : Token} {more : Nat}
    (h : start c rest = .ok (token, more)) : (c :: rest.take more).length = 1 + more := by
  rw [List.length_cons, List.length_take_of_le (start_le_length h), Nat.add_comm]

theorem tiled_of_scanFrom {column : Nat} {found placed : List Placed} {text : List Char}
    (h : scanFrom column found text = .ok placed) :
    ∃ ts, placed = found.reverse ++ ts ∧ Tiled column text ts := by
  fun_induction scanFrom column found text with
  | case1 =>
    cases h
    exact ⟨[], by simp, .done⟩
  | case2 column found c rest blank ih =>
    obtain ⟨ts, rfl, tiled⟩ := ih h
    exact ⟨ts, rfl, .blank blank tiled⟩
  | case3 column found c rest blank token more start ih =>
    obtain ⟨ts, rfl, tiled⟩ := ih h
    refine ⟨⟨token, column⟩ :: ts, by simp, ?_⟩
    rw [← List.take_append_drop more rest, ← List.cons_append]
    refine .token (Token.start_written start) ?_
    rwa [Token.length_of_start start, ← Nat.add_assoc]
  | case4 => cases h

theorem scan_eq_ok_iff_tiled {text : String} {ts : List Placed} :
    scan text = .ok ts ↔ Tiled 1 text.toList ts := by
  constructor
  · intro h
    obtain ⟨ts, rfl, tiled⟩ := tiled_of_scanFrom h
    exact tiled
  · intro h
    exact h.scanFrom []

/-- A scan ends at a character that is not blank, and the text before it has a tiling. -/
theorem tiled_of_scanFrom_error {column : Nat} {found : List Placed} {text : List Char}
    {failure : ScanError} (h : scanFrom column found text = .error failure) :
    ∃ before c after ts, text = before ++ c :: after ∧
      failure.column = column + before.length ∧ Text.isBlank c = false ∧
      Tiled column before ts := by
  fun_induction scanFrom column found text with
  | case1 => cases h
  | case2 column found c rest blank ih =>
    obtain ⟨before, d, after, ts, rfl, place, solid, tiled⟩ := ih h
    refine ⟨c :: before, d, after, ts, rfl, ?_, solid, .blank blank tiled⟩
    rw [place, List.length_cons, Nat.add_assoc, Nat.add_comm 1]
  | case3 column found c rest blank token more start ih =>
    obtain ⟨before, d, after, ts, following, place, solid, tiled⟩ := ih h
    have length := Token.length_of_start start
    -- the token ends before the rest of the text, and so before the first part of that
    have written := Token.start_written start
    rw [following] at written
    refine ⟨c :: rest.take more ++ before, d, after, ⟨token, column⟩ :: ts, ?_, ?_, solid, ?_⟩
    · rw [List.append_assoc, ← following, List.cons_append, List.take_append_drop]
    · rw [place, List.length_append, length, ← Nat.add_assoc, ← Nat.add_assoc]
    · refine .token written.left_of_append ?_
      rwa [length, ← Nat.add_assoc]
  | case4 column found c rest blank cause start =>
    cases h
    exact ⟨[], c, rest, [], rfl, rfl, Bool.eq_false_iff.2 blank, .done⟩

/-! ## The characters of a token -/

/-- What a token is written with is what it takes of the text. -/
theorem Token.Written.lexeme_eq {token : Token} {lexeme rest text : List Char} {column : Nat}
    (h : token.Written lexeme rest) (place : text.drop (column - 1) = lexeme ++ rest) :
    Placed.lexeme text ⟨token, column⟩ = lexeme := by
  unfold Placed.lexeme
  split
  · rename_i takes
    have none : rest.takeWhile Text.isWordChar = [] := (h.ends takes).takeWhile_append []
    dsimp only
    rw [place, List.takeWhile_append_of_pos (h.isWordChar takes), none, List.append_nil]
  · rename_i sign
    have spelled := h.spelled
    cases token with
    | word | literal => exact absurd rfl sign
    | not | operator | opening | closing | comma => exact (List.mem_singleton.1 spelled).symm

/-- What a token takes of the text is what it is written with. -/
theorem Placed.written {text rest : List Char} {t : Placed}
    (parts : t.lexeme text ++ rest = text.drop (t.column - 1))
    (spelled : t.lexeme text ∈ t.token.spellings)
    (isWord : ∀ name, t.token = .word name → name.IsWord) :
    t.token.Written (t.lexeme text) rest := by
  refine ⟨spelled, isWord, fun takes => ?_⟩
  have ends := endsWord_drop_takeWhile (text.drop (t.column - 1))
  have following : (text.drop (t.column - 1)).drop (t.lexeme text).length = rest := by
    rw [← parts, List.drop_left]
  rw [lexeme, if_pos takes] at following
  rwa [following] at ends

/-! ## One character or token more -/

/-- Nothing is left of the text. -/
theorem tiles_nil {text : List Char} {start : Nat} (short : text.length < start) :
    Tiles text start [] where
  inside := nofun
  columns := .nil
  stands := nofun
  spelled := nofun
  isWord := nofun
  apart := .nil
  blank column c later found := by
    have := (List.getElem?_eq_some_iff.1 found).1
    omega

theorem Tiles.before_blank {text : List Char} {start : Nat} {c : Char} {ts : List Placed}
    (h : Tiles text (start + 1) ts) (here : text[start - 1]? = some c)
    (blank : Text.isBlank c = true) : Tiles text start ts :=
  { h with
    inside := fun t mem => (h.inside t mem).imp_left Nat.le_of_succ_le
    blank := by
      intro column d later found
      rcases Nat.eq_or_lt_of_le later with rfl | later
      · cases here.symm.trans found
        exact .inr blank
      · exact h.blank column d later found }

theorem Tiles.after_blank {text : List Char} {start : Nat} {ts : List Placed}
    (h : Tiles text start ts) (other : ∀ t ∈ ts, t.column ≠ start) : Tiles text (start + 1) ts :=
  { h with
    inside := by
      intro t mem
      obtain ⟨low, high⟩ := h.inside t mem
      exact ⟨Nat.lt_of_le_of_ne low (other t mem).symm, high⟩
    blank := fun column c later => h.blank column c (Nat.le_of_succ_le later) }

theorem Tiles.before_token {text : List Char} {t : Placed} {ts : List Placed}
    (h : Tiles text (t.column + (t.lexeme text).length) ts) (within : t.column ≤ text.length)
    (stands : t.lexeme text <+: text.drop (t.column - 1))
    (spelled : t.lexeme text ∈ t.token.spellings)
    (isWord : ∀ name, t.token = .word name → name.IsWord) : Tiles text t.column (t :: ts) where
  inside := by
    refine List.forall_mem_cons.2 ⟨⟨Nat.le_refl _, within⟩, fun later mem => ?_⟩
    obtain ⟨low, high⟩ := h.inside later mem
    exact ⟨Nat.le_of_add_right_le low, high⟩
  columns := by
    refine List.pairwise_cons.2 ⟨fun later mem => ?_, h.columns⟩
    have longer := Token.length_pos_of_spelled spelled
    exact Nat.lt_of_lt_of_le (Nat.lt_add_of_pos_right longer) (h.inside later mem).1
  stands := List.forall_mem_cons.2 ⟨stands, h.stands⟩
  spelled := List.forall_mem_cons.2 ⟨spelled, h.spelled⟩
  isWord := List.forall_mem_cons.2 ⟨isWord, h.isWord⟩
  apart := List.pairwise_cons.2 ⟨fun later mem => (h.inside later mem).1, h.apart⟩
  blank := by
    intro column c later found
    by_cases inside : column < t.column + (t.lexeme text).length
    · exact .inl ⟨t, List.mem_cons_self, later, inside⟩
    · refine (h.blank column c (Nat.le_of_not_lt inside) found).imp_left ?_
      rintro ⟨other, mem, covered⟩
      exact ⟨other, List.mem_cons_of_mem _ mem, covered⟩

theorem Tiles.after_token {text : List Char} {t : Placed} {ts : List Placed}
    (h : Tiles text t.column (t :: ts)) :
    Tiles text (t.column + (t.lexeme text).length) ts where
  inside := by
    intro later mem
    obtain ⟨-, high⟩ := h.inside later (List.mem_cons_of_mem _ mem)
    exact ⟨(List.pairwise_cons.1 h.apart).1 later mem, high⟩
  columns := (List.pairwise_cons.1 h.columns).2
  stands := (List.forall_mem_cons.1 h.stands).2
  spelled := (List.forall_mem_cons.1 h.spelled).2
  isWord := (List.forall_mem_cons.1 h.isWord).2
  apart := (List.pairwise_cons.1 h.apart).2
  blank := by
    intro column c later found
    refine (h.blank column c (Nat.le_of_add_right_le later) found).imp_left ?_
    rintro ⟨other, mem, low, high⟩
    rcases List.mem_cons.1 mem with rfl | mem
    · exact absurd high (Nat.not_lt.2 later)
    · exact ⟨other, mem, low, high⟩

/-- The first token stands at the start, or none does. -/
theorem Tiles.first {text : List Char} {start : Nat} {ts : List Placed}
    (h : Tiles text start ts) :
    (∃ t more, ts = t :: more ∧ t.column = start) ∨ ∀ t ∈ ts, t.column ≠ start := by
  cases ts with
  | nil => exact .inr nofun
  | cons t ts =>
    by_cases here : t.column = start
    · exact .inl ⟨t, ts, rfl, here⟩
    · refine .inr (List.forall_mem_cons.2 ⟨here, fun later mem => ?_⟩)
      obtain ⟨low, -⟩ := h.inside t List.mem_cons_self
      have after := (List.pairwise_cons.1 h.columns).1 later mem
      omega

/-! ## Both kinds of tiling -/

/-- A text whose columns are counted from 1, without its first characters. -/
theorem drop_of_drop_pred {text rest : List Char} {c : Char} {start : Nat} (positive : 1 ≤ start)
    (place : text.drop (start - 1) = c :: rest) :
    text[start - 1]? = some c ∧ text.drop start = rest ∧ start ≤ text.length := by
  have here : text[start - 1]? = some c := by
    rw [← List.head?_drop, place, List.head?_cons]
  refine ⟨here, ?_, Nat.le_of_pred_lt (List.getElem?_eq_some_iff.1 here).1⟩
  rw [← Nat.sub_add_cancel positive, ← List.tail_drop, place, List.tail_cons]

theorem drop_of_drop_append {text lexeme rest : List Char} {start : Nat} (positive : 1 ≤ start)
    (place : text.drop (start - 1) = lexeme ++ rest) :
    text.drop (start + lexeme.length - 1) = rest := by
  rw [Nat.sub_add_comm positive, ← List.drop_drop, place, List.drop_left]

theorem Tiled.tiles {whole text : List Char} {column : Nat} {ts : List Placed}
    (h : Tiled column text ts) (positive : 1 ≤ column)
    (place : whole.drop (column - 1) = text) : Tiles whole column ts := by
  induction h with
  | @done column =>
    have short : whole.length ≤ column - 1 := List.drop_eq_nil_iff.1 place
    exact tiles_nil (by omega)
  | @blank column c text ts blank more ih =>
    obtain ⟨here, rest, -⟩ := drop_of_drop_pred positive place
    exact (ih (Nat.le_add_left 1 column) rest).before_blank here blank
  | @token column token c lexeme text ts written more ih =>
    have same : Placed.lexeme whole ⟨token, column⟩ = c :: lexeme := written.lexeme_eq place
    have rest := drop_of_drop_append positive place
    obtain ⟨-, -, within⟩ := drop_of_drop_pred positive place
    refine Tiles.before_token (t := ⟨token, column⟩) ?_ within ?_ ?_ written.isWord
    · rw [same]
      exact ih (Nat.le_add_right_of_le positive) rest
    · rw [same, place]
      exact List.prefix_append _ _
    · rw [same]
      exact written.spelled

theorem Tiles.tiled {text : List Char} {start : Nat} {ts : List Placed}
    (h : Tiles text start ts) (positive : 1 ≤ start) : Tiled start (text.drop (start - 1)) ts := by
  -- by induction on the characters that are left
  induction left : text.length + 1 - start using Nat.strongRecOn generalizing start ts with
  | ind size ih =>
    rcases h.first with ⟨t, more, rfl, rfl⟩ | other
    · obtain ⟨rest, parts⟩ := h.stands t List.mem_cons_self
      obtain ⟨-, within⟩ := h.inside t List.mem_cons_self
      have spelled := h.spelled t List.mem_cons_self
      have longer := Token.length_pos_of_spelled spelled
      have written := Placed.written parts spelled (h.isWord t List.mem_cons_self)
      have tail := ih _ (by omega) h.after_token (by omega) rfl
      rw [drop_of_drop_append positive parts.symm] at tail
      rw [← parts]
      obtain ⟨c, lexeme, same⟩ := List.exists_cons_of_length_pos longer
      rw [same] at written tail ⊢
      exact .token written tail
    · cases place : text.drop (start - 1) with
      | nil =>
        have short := List.drop_eq_nil_iff.1 place
        cases ts with
        | nil => exact .done
        | cons t ts =>
          obtain ⟨low, high⟩ := h.inside t List.mem_cons_self
          omega
      | cons c rest =>
        obtain ⟨here, following, within⟩ := drop_of_drop_pred positive place
        have tail := ih _ (by omega) (h.after_blank other) (by omega) rfl
        rw [Nat.add_sub_cancel, following] at tail
        rcases h.blank start c (Nat.le_refl _) here with ⟨t, mem, low, -⟩ | blank
        · exact absurd (Nat.le_antisymm low (h.inside t mem).1) (other t mem)
        · exact .blank blank tail

theorem tiled_iff_tiles {text : List Char} {ts : List Placed} :
    Tiled 1 text ts ↔ Tiles text 1 ts :=
  ⟨fun h => h.tiles (Nat.le_refl 1) rfl, fun h => h.tiled (Nat.le_refl 1)⟩

/-- The tokens of a text stand in columns of it. -/
theorem scan_column_inside {text : String} {ts : List Placed} (h : scan text = .ok ts) :
    ∀ t ∈ ts, 1 ≤ t.column ∧ t.column ≤ text.length := by
  intro t mem
  rw [← String.length_toList]
  exact (tiled_iff_tiles.1 (scan_eq_ok_iff_tiled.1 h)).inside t mem

/-- A scan ends in a column of the text, at a character that is not blank. -/
theorem scan_error_column {text : String} {failure : ScanError}
    (h : scan text = .error failure) :
    1 ≤ failure.column ∧ failure.column ≤ text.length ∧
      (∃ c, text.toList[failure.column - 1]? = some c ∧ Text.isBlank c = false) ∧
      ∃ ts, scan (String.ofList (text.toList.take (failure.column - 1))) = .ok ts := by
  obtain ⟨before, c, after, ts, parts, place, solid, tiled⟩ := tiled_of_scanFrom_error h
  have length : text.length = before.length + (after.length + 1) := by
    rw [← String.length_toList, parts, List.length_append, List.length_cons]
  have index : failure.column - 1 = before.length := by rw [place, Nat.add_sub_cancel_left]
  rw [index, parts]
  refine ⟨by omega, by omega, ⟨c, by simp, solid⟩, ts, ?_⟩
  rw [scan_eq_ok_iff_tiled, List.take_left, String.toList_ofList]
  exact tiled

/-- The tokens of a text are those that tile it: they stand in their columns, in order and
apart, each with a spelling of it that goes on as long as it can, and all the rest is white
space. A text without tokens has a place in it where a character is that is not blank; before
this place there are tokens. -/
theorem scan_tiles (text : String) :
    (∀ ts, scan text = .ok ts ↔ Tiles text.toList 1 ts) ∧
      ∀ failure, scan text = .error failure →
        1 ≤ failure.column ∧ failure.column ≤ text.length ∧
        (∃ c, text.toList[failure.column - 1]? = some c ∧ Text.isBlank c = false) ∧
        ∃ ts, scan (String.ofList (text.toList.take (failure.column - 1))) = .ok ts := by
  constructor
  · intro ts
    rw [scan_eq_ok_iff_tiled, tiled_iff_tiles]
  · intro failure failed
    exact scan_error_column failed

/-- The digits of a name belong to it, a digit alone is a literal, and the two signs of `>>` are
one token. A single `=` ends the scan at its column. -/
theorem scan_tiles_neighbours :
    Tiles "x_1>>(1&True )".toList 1
      [⟨.word ⟨"x_1", by decide⟩, 1⟩, ⟨.operator .implies, 4⟩, ⟨.opening, 6⟩, ⟨.literal true, 7⟩,
        ⟨.operator .and, 8⟩, ⟨.literal true, 9⟩, ⟨.closing, 14⟩] ∧
      ∃ ts, scan (String.ofList ("A = B".toList.take 2)) = .ok ts := by
  constructor
  · have scanned : scan "x_1>>(1&True )" = .ok [⟨.word ⟨"x_1", by decide⟩, 1⟩,
        ⟨.operator .implies, 4⟩, ⟨.opening, 6⟩, ⟨.literal true, 7⟩, ⟨.operator .and, 8⟩,
        ⟨.literal true, 9⟩, ⟨.closing, 14⟩] := by
      with_unfolding_all rfl
    exact ((scan_tiles _).1 _).1 scanned
  · have failed : scan "A = B" = .error ⟨3, .single '='⟩ := by with_unfolding_all rfl
    exact ((scan_tiles _).2 _ failed).2.2.2

end Propositional
