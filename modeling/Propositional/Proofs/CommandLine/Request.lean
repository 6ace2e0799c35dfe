import Propositional.Proofs.CommandLine.Arguments
import Propositional.Proofs.CommandLine.Settings

/-!
# What arguments ask for

Arguments ask for a run with some options if they are well formed. They ask for help with the
first argument that is a request for it: what stands before it has to be well formed, and what
comes after it does not matter.

A parser of arguments is any function from arguments to requests. `Declared` is what is assumed
of it: it finds exactly these two kinds of request, and so it refuses all other arguments.
`Request.ofArguments` is such a parser.

Results:
1. `isHelp_iff`, `beforeHelp?_eq_some_iff`: the first request for help.
2. `AsksHelp.not_asks`: arguments that ask for help ask for nothing else.
3. `asks_perm_iff`, `asksHelp_perm_iff`: pieces in another order, with more of `-v`.
4. `declared_ofArguments`: the reader of this library fulfils what is assumed of a parser.
5. `Declared.refused_iff`, `Declared.same`: arguments that ask for the same get the same answer.
-/

namespace Propositional.CommandLine

/-- The arguments are well formed, and ask for these options. -/
def Asks (arguments : List String) (o : Options) : Prop :=
  ∃ settings, Written arguments settings ∧ o.MadeBy settings

/-- `IsHelp argument`: the argument is a request for help. -/
inductive IsHelp : String → Prop
  | long : IsHelp "--help"
  /-- After any number of `v`, whatever else is in the bundle. -/
  | short (count : Nat) (more : String) : IsHelp (bundle count ("h" ++ more))

/-- `AsksHelp arguments argument`: this argument is a request for help before any `--`, and the
arguments before it are well formed. -/
def AsksHelp (arguments : List String) (argument : String) : Prop :=
  ∃ before after o, arguments = before ++ argument :: after ∧ "--" ∉ before ∧ Asks before o ∧
    IsHelp argument

/-- `Declared parser help`: the parser knows the options of this command line, and answers a
request for help with a text that may depend on the argument it is made with. -/
structure Declared (parser : List String → Request) (help : String → String) : Prop where
  options_iff {arguments : List String} {o : Options} :
    parser arguments = .options o ↔ Asks arguments o
  help_iff {arguments : List String} {text : String} :
    parser arguments = .help text ↔ ∃ argument, AsksHelp arguments argument ∧ text = help argument

theorem ofArguments_eq_some_iff {arguments : List String} {o : Options} :
    Options.ofArguments arguments = some o ↔ Asks arguments o := by
  simp only [Options.ofArguments, Option.bind_eq_some_iff, settings?_eq_some_iff,
    ofSettings_eq_some_iff, Asks]

/-! ## The first request for help -/

theorem head?_dropWhile_eq_some_iff {chars : List Char} :
    (chars.dropWhile (· == 'v')).head? = some 'h' ↔
      ∃ count more, chars = List.replicate count 'v' ++ 'h' :: more := by
  constructor
  · intro h
    obtain ⟨more, found⟩ := List.head?_eq_some_iff.1 h
    refine ⟨(chars.takeWhile (· == 'v')).length, more, ?_⟩
    have only : chars.takeWhile (· == 'v') =
        List.replicate (chars.takeWhile (· == 'v')).length 'v' :=
      List.eq_replicate_of_mem fun c mem =>
        beq_iff_eq.1 (List.all_eq_true.1 List.all_takeWhile c mem)
    rw [← only, ← found, List.takeWhile_append_dropWhile]
  · rintro ⟨count, more, rfl⟩
    rw [List.dropWhile_append_of_pos (by simp +contextual [List.mem_replicate])]
    rfl

theorem isHelp_iff {text : String} : isHelp text = true ↔ IsHelp text := by
  unfold isHelp
  rw [Bool.or_eq_true, beq_iff_eq]
  constructor
  · rintro (rfl | h)
    · exact .long
    · split at h
      · rename_i chars spelling
        obtain ⟨count, more, rfl⟩ := head?_dropWhile_eq_some_iff.1 (beq_iff_eq.1 h)
        have same : text = bundle count ("h" ++ String.ofList more) := by
          rw [← String.toList_inj, spelling]
          simp [bundle]
        exact same ▸ .short count _
      · cases h
  · rintro (_ | ⟨count, more⟩)
    · exact .inl rfl
    · refine .inr ?_
      simp only [bundle, String.toList_ofList, String.toList_append]
      exact beq_iff_eq.2 (head?_dropWhile_eq_some_iff.2 ⟨count, more.toList, rfl⟩)

/-- A request for help makes no setting. -/
theorem IsHelp.argument_eq {text : String} (h : IsHelp text) : argument text = none := by
  cases h with
  | long => rfl
  | short count more =>
    rw [argument_eq_short (.inr ⟨'h', by simp, by decide⟩), short_replicate, String.toList_append]
    rfl

theorem IsHelp.ne_separator {text : String} (h : IsHelp text) : text ≠ "--" := by
  rintro rfl
  exact absurd (isHelp_iff.2 h) (by decide)

theorem beforeHelp?_eq_some_iff {arguments before : List String} :
    beforeHelp? arguments = some before ↔
      ∃ argument after, arguments = before ++ argument :: after ∧ IsHelp argument ∧
        ∀ text ∈ before, text ≠ "--" ∧ ¬ IsHelp text := by
  constructor
  · intro h
    fun_induction beforeHelp? arguments generalizing before with
    | case1 => cases h
    | case2 => cases h
    | case3 text rest _ help =>
      cases h
      exact ⟨text, rest, rfl, isHelp_iff.1 help, by simp⟩
    | case4 text rest other silent ih =>
      obtain ⟨before, found, rfl⟩ := Option.map_eq_some_iff.1 h
      obtain ⟨argument, after, rfl, help, earlier⟩ := ih found
      refine ⟨argument, after, rfl, help, List.forall_mem_cons.2 ⟨⟨other, ?_⟩, earlier⟩⟩
      exact mt isHelp_iff.2 silent
  · rintro ⟨argument, after, rfl, help, earlier⟩
    induction before with
    | nil => rw [List.nil_append, beforeHelp?, if_neg help.ne_separator, if_pos (isHelp_iff.2 help)]
    | cons text before ih =>
      obtain ⟨⟨other, silent⟩, earlier⟩ := List.forall_mem_cons.1 earlier
      rw [List.cons_append, beforeHelp?, if_neg other, if_neg (mt isHelp_iff.1 silent),
        ih earlier, Option.map_some]

/-! ## Pieces one after the other -/

/-- No argument of a piece is the separator or a request for help. -/
theorem Piece.plain {arguments : List String} {settings : List Setting}
    (piece : Piece arguments settings) {text : String} (mem : text ∈ arguments) :
    text ≠ "--" ∧ ¬ IsHelp text := by
  obtain ⟨reading, found⟩ := piece.exists_argument mem
  refine ⟨CommandLine.ne_separator found, fun help => ?_⟩
  rw [help.argument_eq] at found
  cases found

/-- The settings that a piece makes. -/
def settingsOf (unit : List String) : List Setting := (settings? none unit).getD []

theorem settingsOf_eq {unit : List String} {settings : List Setting} (piece : Piece unit settings) :
    settingsOf unit = settings := by
  have read := settings?_append piece []
  rw [List.append_nil] at read
  rw [settingsOf, read]
  exact List.append_nil settings

section Pieces

variable {units : List (List String)} (pieces : ∀ unit ∈ units, ∃ settings, Piece unit settings)
include pieces

theorem settings?_flatten (after : List String) :
    settings? none (units.flatten ++ after) =
      (settings? none after).map (units.flatMap settingsOf ++ ·) := by
  induction units with
  | nil => simp
  | cons unit units ih =>
    obtain ⟨⟨settings, piece⟩, others⟩ := List.forall_mem_cons.1 pieces
    rw [List.flatten_cons, List.append_assoc, settings?_append piece, ih others, Option.map_map,
      List.flatMap_cons, settingsOf_eq piece]
    simp [Function.comp_def, List.append_assoc]

theorem plain_of_mem_flatten {text : String} (mem : text ∈ units.flatten) :
    text ≠ "--" ∧ ¬ IsHelp text := by
  obtain ⟨unit, there, inside⟩ := List.mem_flatten.1 mem
  obtain ⟨settings, piece⟩ := pieces unit there
  exact piece.plain inside

end Pieces

/-- Well-formed arguments without the separator are pieces only. -/
theorem Written.exists_units {arguments : List String} {settings : List Setting}
    (written : Written arguments settings) (unended : "--" ∉ arguments) :
    ∃ units : List (List String), (∀ unit ∈ units, ∃ settings, Piece unit settings) ∧
      units.flatten = arguments := by
  induction written with
  | none => exact ⟨[], by simp, rfl⟩
  | @piece first _ settings _ piece _ ih =>
    obtain ⟨units, pieces, rfl⟩ := ih (mt (List.mem_append_right _) unended)
    exact ⟨first :: units, List.forall_mem_cons.2 ⟨⟨settings, piece⟩, pieces⟩, rfl⟩
  | ended => exact absurd List.mem_cons_self unended

/-! ## Requests for help -/

/-- Arguments that ask for help ask for nothing else. -/
theorem AsksHelp.not_asks {arguments : List String} {argument : String}
    (h : AsksHelp arguments argument) (o : Options) : ¬ Asks arguments o := by
  rintro ⟨all, read, -⟩
  obtain ⟨before, after, o', rfl, unended, ⟨settings, written, -⟩, help⟩ := h
  obtain ⟨units, pieces, rfl⟩ := written.exists_units unended
  have found := settings?_of_written read
  rw [settings?_flatten pieces, settings?_text help.ne_separator, help.argument_eq] at found
  cases found

theorem bind_beforeHelp?_iff {arguments : List String} :
    (∃ o, (beforeHelp? arguments).bind Options.ofArguments = some o) ↔
      ∃ argument, AsksHelp arguments argument := by
  simp only [Option.bind_eq_some_iff, beforeHelp?_eq_some_iff, ofArguments_eq_some_iff]
  constructor
  · rintro ⟨o, before, ⟨argument, after, rfl, help, earlier⟩, asked⟩
    exact ⟨argument, before, after, o, rfl, fun mem => (earlier _ mem).1 rfl, asked, help⟩
  · rintro ⟨argument, before, after, o, rfl, unended, ⟨settings, written, made⟩, help⟩
    obtain ⟨units, pieces, rfl⟩ := written.exists_units unended
    exact ⟨o, _, ⟨argument, after, rfl, help, fun text mem => plain_of_mem_flatten pieces mem⟩,
      settings, written, made⟩

/-- Help is not asked for within a piece. -/
theorem asksHelp_flatten_iff {units : List (List String)}
    (pieces : ∀ unit ∈ units, ∃ settings, Piece unit settings) {after : List String}
    {argument : String} :
    AsksHelp (units.flatten ++ after) argument ↔
      ∃ before rest o, after = before ++ argument :: rest ∧ "--" ∉ before ∧
        Asks (units.flatten ++ before) o ∧ IsHelp argument := by
  constructor
  · rintro ⟨before, rest, o, same, unended, asked, help⟩
    rcases List.append_eq_append_iff.1 same with ⟨between, rfl, rfl⟩ | ⟨between, split, tail⟩
    · exact ⟨between, rest, o, rfl, mt (List.mem_append_right _) unended, asked, help⟩
    · rcases List.cons_eq_append_iff.1 tail with ⟨rfl, rfl⟩ | ⟨between, rfl, -⟩
      · rw [List.append_nil] at split
        exact ⟨[], rest, o, rfl, List.not_mem_nil, by rwa [List.append_nil, split], help⟩
      · -- the request for help would be an argument of a piece
        refine absurd help (plain_of_mem_flatten pieces ?_).2
        rw [split]
        exact List.mem_append_right _ List.mem_cons_self
  · rintro ⟨before, rest, o, rfl, unended, asked, help⟩
    refine ⟨units.flatten ++ before, rest, o, by rw [List.append_assoc], fun mem => ?_, asked, help⟩
    rcases List.mem_append.1 mem with first | later
    · exact (plain_of_mem_flatten pieces first).1 rfl
    · exact unended later

/-! ## Pieces in another order -/

section Reordered

variable {units units' added : List (List String)}
  (pieces : ∀ unit ∈ units, ∃ settings, Piece unit settings)
  (verbose : ∀ unit ∈ added, ∃ count, Piece unit (List.replicate count .verbose))
  (perm : units'.Perm (units ++ added))
include pieces verbose perm

theorem pieces_of_perm : ∀ unit ∈ units', ∃ settings, Piece unit settings := by
  intro unit mem
  rcases List.mem_append.1 (perm.mem_iff.1 mem) with old | new
  · exact pieces unit old
  · obtain ⟨count, piece⟩ := verbose unit new
    exact ⟨_, piece⟩

/-- The same pieces in another order, and `-v` any number of times more. -/
theorem ofArguments_eq_of_perm (after : List String) :
    Options.ofArguments (units'.flatten ++ after) =
      Options.ofArguments (units.flatten ++ after) := by
  rw [Options.ofArguments, Options.ofArguments,
    settings?_flatten (pieces_of_perm pieces verbose perm), settings?_flatten pieces]
  cases settings? none after with
  | none => rfl
  | some more =>
    have silent : ∀ setting ∈ added.flatMap settingsOf, setting = .verbose := by
      intro setting mem
      obtain ⟨unit, there, inside⟩ := List.mem_flatMap.1 mem
      obtain ⟨count, piece⟩ := verbose unit there
      rw [settingsOf_eq piece] at inside
      exact List.eq_of_mem_replicate inside
    have moved : (units'.flatMap settingsOf).Perm
        (units.flatMap settingsOf ++ added.flatMap settingsOf) := by
      rw [← List.flatMap_append]
      exact perm.flatMap_right settingsOf
    refine ofSettings_eq_of_perm silent ?_
    calc units'.flatMap settingsOf ++ more
      _ |>.Perm ((units.flatMap settingsOf ++ added.flatMap settingsOf) ++ more) :=
        moved.append_right more
      _ |>.Perm ((units.flatMap settingsOf ++ more) ++ added.flatMap settingsOf) := by
        rw [List.append_assoc, List.append_assoc]
        exact List.perm_append_comm.append_left _

theorem asks_perm_iff (after : List String) (o : Options) :
    Asks (units'.flatten ++ after) o ↔ Asks (units.flatten ++ after) o := by
  rw [← ofArguments_eq_some_iff, ← ofArguments_eq_some_iff,
    ofArguments_eq_of_perm pieces verbose perm]

theorem asksHelp_perm_iff (after : List String) (argument : String) :
    AsksHelp (units'.flatten ++ after) argument ↔ AsksHelp (units.flatten ++ after) argument := by
  simp only [asksHelp_flatten_iff pieces,
    asksHelp_flatten_iff (pieces_of_perm pieces verbose perm), asks_perm_iff pieces verbose perm]

end Reordered

/-! ## Parsers -/

/-- The reader of this library fulfils what is assumed of a parser. -/
theorem declared_ofArguments : Declared Request.ofArguments fun _ => usage ++ "\n" where
  options_iff {arguments o} := by
    rw [← ofArguments_eq_some_iff]
    unfold Request.ofArguments
    split
    · rename_i found
      obtain ⟨argument, help⟩ := bind_beforeHelp?_iff.1 ⟨_, found⟩
      refine iff_of_false nofun fun asked => ?_
      exact help.not_asks o (ofArguments_eq_some_iff.1 asked)
    · split <;> simp [*]
  help_iff {arguments text} := by
    rw [exists_and_right, ← bind_beforeHelp?_iff]
    unfold Request.ofArguments
    split
    · simp [*, eq_comm]
    · split <;> simp [*]

section Parsers

variable {parser : List String → Request} {help : String → String}
  (declared : Declared parser help)
include declared

/-- A parser refuses the arguments that ask for nothing. -/
theorem Declared.refused_iff {arguments : List String} :
    (∃ complaint, parser arguments = .refused complaint) ↔
      (∀ o, ¬ Asks arguments o) ∧ ∀ argument, ¬ AsksHelp arguments argument := by
  constructor
  · rintro ⟨complaint, answer⟩
    refine ⟨fun o asked => ?_, fun argument asked => ?_⟩
    · rw [declared.options_iff.2 asked] at answer
      cases answer
    · rw [declared.help_iff.2 ⟨argument, asked, rfl⟩] at answer
      cases answer
  · rintro ⟨noOptions, noHelp⟩
    cases answer : parser arguments with
    | options o => exact absurd (declared.options_iff.1 answer) (noOptions o)
    | help text =>
      obtain ⟨argument, asked, -⟩ := declared.help_iff.1 answer
      exact absurd asked (noHelp argument)
    | refused complaint => exact ⟨complaint, rfl⟩

/-- Arguments that ask for the same get the same answer, unless both are refused. -/
theorem Declared.same {arguments arguments' : List String}
    (options : ∀ o, Asks arguments' o ↔ Asks arguments o)
    (helps : ∀ argument, AsksHelp arguments' argument ↔ AsksHelp arguments argument) :
    parser arguments' = parser arguments ∨
      ∃ complaint complaint', parser arguments = .refused complaint ∧
        parser arguments' = .refused complaint' := by
  cases answer : parser arguments with
  | options o => exact .inl (declared.options_iff.2 ((options o).2 (declared.options_iff.1 answer)))
  | help text =>
    obtain ⟨argument, asked, shown⟩ := declared.help_iff.1 answer
    exact .inl (declared.help_iff.2 ⟨argument, (helps argument).2 asked, shown⟩)
  | refused complaint =>
    obtain ⟨noOptions, noHelp⟩ := declared.refused_iff.1 ⟨complaint, answer⟩
    obtain ⟨complaint', answer'⟩ := declared.refused_iff.2
      ⟨fun o => mt (options o).1 (noOptions o),
        fun argument => mt (helps argument).1 (noHelp argument)⟩
    exact .inr ⟨complaint, complaint', rfl, answer'⟩

end Parsers

end Propositional.CommandLine
