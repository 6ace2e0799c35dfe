import Mathlib.Algebra.Group.Nat.Defs
import Propositional.CommandLine.Options

/-!
# Well-formed arguments

The arguments of a command line are pieces, one after the other. A piece is complete in
itself: a formula, a bundle of short options, or a long option, with the value if there is
one. After `--` there are formulas only. Reading the arguments one by one accepts exactly this,
and makes the settings of the pieces in their order.

Results:
1. `set_eq_some_iff`, `number?_eq_some_iff`: the values of the options.
2. `Piece.read`, `settings?_append`: a piece is read alone, whatever follows it.
3. `settings?_eq_some_iff`: the arguments that are read, and their settings.
-/

namespace Propositional.CommandLine

/-! ## The grammar -/

/-- The digits are those of a number of 64 bits. -/
def Decimal (digits : List Char) (n : Nat) : Prop :=
  digits ≠ [] ∧ (∀ c ∈ digits, c.isDigit = true) ∧ n = Nat.ofDigitChars 10 digits 0 ∧ n < 2 ^ 64

/-- `Valid option value setting`: the option may have the value, and makes this setting then. -/
inductive Valid : Valued → String → Setting → Prop
  | table : Valid .format "table" (.format .table)
  | csv : Valid .format "csv" (.format .csv)
  | number {sign digits : List Char} {n : Nat} (signed : sign = [] ∨ sign = ['+'])
      (decimal : Decimal digits n) :
      Valid .maxVariables (String.ofList (sign ++ digits)) (.maxVariables n)

/-- The long name of the option. -/
def Valued.name : Valued → String
  | .format => "format"
  | .maxVariables => "max-vars"

/-- A dash, `v` so many times, and what else is in the bundle. -/
def bundle (count : Nat) (last : String) : String :=
  String.ofList ('-' :: (List.replicate count 'v' ++ last.toList))

/-- `Piece arguments settings`: the arguments are complete in themselves, and make these
settings. -/
inductive Piece : List String → List Setting → Prop
  /-- A text without a dash at its start, or a dash and nothing else. -/
  | expression {text : String} (plain : text.toList.head? = some '-' → text = "-") :
      Piece [text] [.expression text]
  | verbose {count : Nat} (positive : 0 < count) :
      Piece [bundle count ""] (List.replicate count .verbose)
  | short {count : Nat} {value : String} {setting : Setting} {arguments : List String}
      (valid : Valid .format value setting)
      (spelled : arguments = [bundle count "f", value] ∨
        arguments = [bundle count ("f" ++ value)] ∨ arguments = [bundle count ("f=" ++ value)]) :
      Piece arguments (List.replicate count .verbose ++ [setting])
  | long {option : Valued} {value : String} {setting : Setting} {arguments : List String}
      (valid : Valid option value setting)
      (spelled : arguments = ["--" ++ option.name, value] ∨
        arguments = ["--" ++ option.name ++ "=" ++ value]) :
      Piece arguments [setting]
  | longLatex : Piece ["--latex"] [.latex]
  | longVerbose : Piece ["--verbose"] [.verbose]

/-- `Written arguments settings`: the arguments are well formed, and make these settings. -/
inductive Written : List String → List Setting → Prop
  | none : Written [] []
  | piece {first rest : List String} {settings more : List Setting} (piece : Piece first settings)
      (others : Written rest more) : Written (first ++ rest) (settings ++ more)
  | ended (texts : List String) : Written ("--" :: texts) (texts.map .expression)

/-! ## Values -/

theorem decimal_iff {digits : List Char} {n : Nat} :
    (if digits ≠ [] ∧ digits.all Char.isDigit then
      if Nat.ofDigitChars 10 digits 0 < UInt64.size then some (Nat.ofDigitChars 10 digits 0)
      else none
    else none) = some n ↔ Decimal digits n := by
  simp only [Decimal, List.all_eq_true, UInt64.size]
  grind

theorem number?_unsigned {text : List Char} {n : Nat} (unsigned : text.head? ≠ some '+') :
    number? text = some n ↔ Decimal text n := by
  unfold number?
  split
  · exact absurd rfl unsigned
  · exact decimal_iff

theorem number?_plus {digits : List Char} {n : Nat} :
    number? ('+' :: digits) = some n ↔ Decimal digits n := decimal_iff

theorem Decimal.head?_ne_plus {digits : List Char} {n : Nat} (h : Decimal digits n) :
    digits.head? ≠ some '+' := by
  intro plus
  exact absurd (h.2.1 '+' (List.mem_of_head? plus)) (by decide)

theorem number?_eq_some_iff {text : List Char} {n : Nat} :
    number? text = some n ↔ ∃ sign digits, text = sign ++ digits ∧ (sign = [] ∨ sign = ['+']) ∧
      Decimal digits n := by
  constructor
  · intro h
    by_cases plus : text.head? = some '+'
    · obtain ⟨digits, rfl⟩ := List.head?_eq_some_iff.1 plus
      exact ⟨['+'], digits, rfl, .inr rfl, number?_plus.1 h⟩
    · exact ⟨[], text, rfl, .inl rfl, (number?_unsigned plus).1 h⟩
  · rintro ⟨sign, digits, rfl, rfl | rfl, decimal⟩
    · exact (number?_unsigned decimal.head?_ne_plus).2 decimal
    · exact number?_plus.2 decimal

theorem set_eq_some_iff {option : Valued} {value : String} {setting : Setting} :
    option.set value = some setting ↔ Valid option value setting := by
  constructor
  · intro h
    unfold Valued.set at h
    split at h
    · cases h
      exact .table
    · cases h
      exact .csv
    · cases h
    · obtain ⟨n, found, rfl⟩ := Option.map_eq_some_iff.1 h
      obtain ⟨sign, digits, spelling, signed, decimal⟩ := number?_eq_some_iff.1 found
      rw [← String.ofList_toList (s := value), spelling]
      exact .number signed decimal
  · rintro (_ | _ | ⟨signed, decimal⟩)
    · rfl
    · rfl
    · have found := number?_eq_some_iff.2 ⟨_, _, rfl, signed, decimal⟩
      simp only [Valued.set, String.toList_ofList, found, Option.map_some]

/-! ## One argument -/

/-- What the first argument of a piece leaves to its second: nothing, or the value. -/
def Starts (text : String) : Reading → Prop
  | (settings, none) => Piece [text] settings
  | (settings, some option) =>
    ∀ value setting, Valid option value setting → Piece [text, value] (settings ++ [setting])

theorem valued_some {option : Valued} {value : List Char} {reading : Reading}
    (h : valued option (some value) = some reading) :
    ∃ setting, Valid option (String.ofList value) setting ∧ reading = ([setting], none) := by
  obtain ⟨setting, found, rfl⟩ := Option.map_eq_some_iff.1 h
  exact ⟨setting, set_eq_some_iff.1 found, rfl⟩

/-- A bundle, after as many `v` as have been read from it. -/
theorem starts_of_short {chars : List Char} {settings : List Setting} {next : Option Valued}
    (h : short chars = some (settings, next)) (count : Nat) (positive : 0 < count + chars.length) :
    Starts (bundle count (String.ofList chars))
      (List.replicate count .verbose ++ settings, next) := by
  fun_induction short chars generalizing count settings next with
  | case1 =>
    cases h
    rw [List.append_nil]
    exact .verbose positive
  | case2 chars ih =>
    obtain ⟨⟨more, next⟩, found, same⟩ := Option.map_eq_some_iff.1 h
    cases same
    have longer := ih found (count + 1) (by omega)
    simpa [bundle, List.replicate_succ', List.append_assoc] using longer
  | case3 =>
    cases h
    intro value setting valid
    rw [List.append_nil]
    exact .short valid (.inl rfl)
  | case4 value =>
    obtain ⟨setting, valid, same⟩ := valued_some h
    cases same
    exact .short valid (.inr (.inr (by simp [bundle])))
  | case5 value =>
    obtain ⟨setting, valid, same⟩ := valued_some h
    cases same
    exact .short valid (.inr (.inl (by simp [bundle])))
  | case6 => cases h

/-- The value of a long option, after its name. -/
def attached : Option (List Char) → List Char
  | none => []
  | some value => '=' :: value

/-- The first equals sign ends the name of a long option. -/
theorem takeWhile_append_attached (chars : List Char) :
    chars.takeWhile (· != '=') ++ attached (chars.dropWhile (· != '=')).tail? = chars := by
  induction chars with
  | nil => rfl
  | cons c chars ih =>
    by_cases equals : c = '='
    · subst equals
      rfl
    · simpa [equals] using ih

theorem ofList_attached_none (option : Valued) :
    String.ofList ('-' :: '-' :: (option.name.toList ++ attached none)) = "--" ++ option.name := by
  simp [attached, ← String.toList_inj]

theorem ofList_attached_some (option : Valued) (value : List Char) :
    String.ofList ('-' :: '-' :: (option.name.toList ++ attached (some value))) =
      "--" ++ option.name ++ "=" ++ String.ofList value := by
  simp [attached, ← String.toList_inj]

theorem starts_of_valued (option : Valued) {value : Option (List Char)} {reading : Reading}
    (h : valued option value = some reading) :
    Starts (String.ofList ('-' :: '-' :: (option.name.toList ++ attached value))) reading := by
  cases value with
  | none =>
    cases h
    rw [ofList_attached_none]
    exact fun value setting valid => .long valid (.inl rfl)
  | some value =>
    obtain ⟨setting, valid, rfl⟩ := valued_some h
    rw [ofList_attached_some]
    exact .long valid (.inr rfl)

theorem starts_of_long {name : List Char} {value : Option (List Char)} {reading : Reading}
    (h : long name value = some reading) :
    Starts (String.ofList ('-' :: '-' :: (name ++ attached value))) reading := by
  have spelling {text : String} (same : String.ofList name = text) : name = text.toList := by
    rw [← same, String.toList_ofList]
  unfold long at h
  split at h
  · rename_i same
    rw [spelling same]
    exact starts_of_valued .format h
  · rename_i same
    rw [spelling same]
    exact starts_of_valued .maxVariables h
  · rename_i same
    cases h
    rw [spelling same]
    exact .longLatex
  · rename_i same
    cases h
    rw [spelling same]
    exact .longVerbose
  · cases h

theorem starts_of_argument {text : String} {reading : Reading}
    (h : argument text = some reading) : Starts text reading := by
  unfold argument at h
  split at h
  · rename_i option spelling
    have long := starts_of_long h
    rwa [takeWhile_append_attached, ← spelling, String.ofList_toList] at long
  · rename_i c chars _ spelling
    have bundled := starts_of_short h 0 (by simp)
    have same : bundle 0 (String.ofList (c :: chars)) = text := by
      simp [bundle, ← spelling]
    rwa [same] at bundled
  · rename_i _ single
    cases h
    refine .expression fun dash => ?_
    obtain ⟨chars, spelling⟩ := List.head?_eq_some_iff.1 dash
    cases chars with
    | nil => exact String.toList_inj.1 spelling
    | cons c chars => exact absurd spelling (single c chars)

/-! ## Pieces -/

theorem argument_expression {text : String} (plain : text.toList.head? = some '-' → text = "-") :
    argument text = some ([.expression text], none) := by
  unfold argument
  split
  · rename_i spelling
    cases plain (by simp [spelling])
    cases spelling
  · rename_i spelling
    cases plain (by simp [spelling])
    cases spelling
  · rfl

theorem short_replicate (count : Nat) (chars : List Char) :
    short (List.replicate count 'v' ++ chars) =
      (short chars).map fun reading => (List.replicate count .verbose ++ reading.1, reading.2) := by
  induction count with
  | zero => simp
  | succ count ih =>
    rw [List.replicate_succ, List.cons_append, short, ih, Option.map_map]
    rfl

/-- A bundle does not go on with a second dash. -/
theorem argument_eq_short {count : Nat} {last : String}
    (first : 0 < count ∨ ∃ c, last.toList.head? = some c ∧ c ≠ '-') :
    argument (bundle count last) = short (List.replicate count 'v' ++ last.toList) := by
  obtain ⟨c, chars, spelling, other⟩ :
      ∃ c chars, List.replicate count 'v' ++ last.toList = c :: chars ∧ c ≠ '-' := by
    cases count with
    | zero =>
      obtain ⟨c, head, other⟩ := first.resolve_left (Nat.lt_irrefl 0)
      obtain ⟨chars, spelling⟩ := List.head?_eq_some_iff.1 head
      exact ⟨c, chars, spelling, other⟩
    | succ count => exact ⟨'v', _, by rw [List.replicate_succ, List.cons_append], by decide⟩
  unfold argument
  rw [bundle, String.toList_ofList, spelling]
  split
  · rename_i same
    cases same
    exact absurd rfl other
  · rename_i same
    cases same
    rfl
  · rename_i _ single
    exact absurd rfl (single c chars)

theorem argument_bundle (count : Nat) (last : String) {settings : List Setting}
    {next : Option Valued} (h : short last.toList = some (settings, next))
    (first : 0 < count ∨ last.toList.head? = some 'f') :
    argument (bundle count last) = some (List.replicate count .verbose ++ settings, next) := by
  rw [argument_eq_short (first.imp_right fun head => ⟨'f', head, by decide⟩), short_replicate, h,
    Option.map_some]

theorem argument_long (option : Valued) (value : Option (List Char)) :
    argument (String.ofList ('-' :: '-' :: (option.name.toList ++ attached value))) =
      valued option value := by
  unfold argument
  rw [String.toList_ofList]
  cases option <;> cases value <;> rfl

theorem settings?_text {text : String} (other : text ≠ "--") (rest : List String) :
    settings? none (text :: rest) = (argument text).bind fun reading =>
      (settings? reading.2 rest).map (reading.1 ++ ·) := by
  rw [settings?]
  · cases argument text with
    | none => rfl
    | some reading => cases found : settings? reading.2 rest <;> simp [found]
  · exact other

/-- The separator is no argument of its own. -/
theorem ne_separator {text : String} {reading : Reading} (h : argument text = some reading) :
    text ≠ "--" := by
  rintro rfl
  cases h

/-- An argument that needs no other is read alone. -/
theorem settings?_cons {text : String} {settings : List Setting}
    (h : argument text = some (settings, none)) (rest : List String) :
    settings? none (text :: rest) = (settings? none rest).map (settings ++ ·) := by
  rw [settings?_text (ne_separator h), h, Option.bind_some]

/-- An argument that needs a value is read with the next one. -/
theorem settings?_cons_value {text value : String} {settings : List Setting} {option : Valued}
    {setting : Setting} (h : argument text = some (settings, some option))
    (valid : Valid option value setting) (rest : List String) :
    settings? none (text :: value :: rest) =
      (settings? none rest).map ((settings ++ [setting]) ++ ·) := by
  rw [settings?_text (ne_separator h), h, Option.bind_some, settings?, set_eq_some_iff.2 valid]
  cases settings? none rest <;> simp

theorem valued_eq {option : Valued} {value : String} {setting : Setting}
    (valid : Valid option value setting) :
    valued option (some value.toList) = some ([setting], none) := by
  rw [valued, String.ofList_toList, set_eq_some_iff.2 valid, Option.map_some]

/-- A piece is an argument that needs no other, or one that needs a value, and the value. -/
theorem Piece.read {arguments : List String} {settings : List Setting}
    (piece : Piece arguments settings) :
    (∃ text, arguments = [text] ∧ argument text = some (settings, none)) ∨
      ∃ text value option made setting, arguments = [text, value] ∧
        argument text = some (made, some option) ∧ Valid option value setting ∧
        settings = made ++ [setting] := by
  cases piece with
  | expression plain => exact .inl ⟨_, rfl, argument_expression plain⟩
  | @verbose count positive =>
    have read := argument_bundle count "" rfl (.inl positive)
    rw [List.append_nil] at read
    exact .inl ⟨_, rfl, read⟩
  | @short count _ _ _ valid spelled =>
    rcases spelled with rfl | rfl | rfl
    · have read := argument_bundle count "f" rfl (.inr rfl)
      rw [List.append_nil] at read
      exact .inr ⟨_, _, _, _, _, rfl, read, valid, rfl⟩
    · refine .inl ⟨_, rfl, argument_bundle count _ ?_ (.inr ?_)⟩
      · cases valid <;> rfl
      · simp
    · refine .inl ⟨_, rfl, argument_bundle count _ ?_ (.inr ?_)⟩
      · cases valid <;> rfl
      · simp
  | @long option value _ _ valid spelled =>
    rcases spelled with rfl | rfl
    · have read := argument_long option none
      rw [ofList_attached_none] at read
      exact .inr ⟨_, _, _, _, _, rfl, read, valid, rfl⟩
    · have read := argument_long option (some value.toList)
      rw [ofList_attached_some, String.ofList_toList, valued_eq valid] at read
      exact .inl ⟨_, rfl, read⟩
  | longLatex => exact .inl ⟨_, rfl, rfl⟩
  | longVerbose => exact .inl ⟨_, rfl, rfl⟩

/-- A piece is read alone, whatever follows it. -/
theorem settings?_append {first : List String} {settings : List Setting}
    (piece : Piece first settings) (rest : List String) :
    settings? none (first ++ rest) = (settings? none rest).map (settings ++ ·) := by
  rcases piece.read with ⟨text, rfl, read⟩ |
    ⟨text, value, option, made, setting, rfl, read, valid, rfl⟩
  · exact settings?_cons read rest
  · exact settings?_cons_value read valid rest

/-- A value does not start with a dash. -/
theorem Valid.argument_eq {option : Valued} {value : String} {setting : Setting}
    (valid : Valid option value setting) : argument value = some ([.expression value], none) := by
  refine argument_expression fun dash => ?_
  cases valid with
  | table | csv => exact absurd dash (by decide)
  | number signed decimal =>
    rw [String.toList_ofList] at dash
    rcases signed with rfl | rfl
    · exact absurd (decimal.2.1 '-' (List.mem_of_head? dash)) (by decide)
    · exact absurd dash (by simp)

/-- Each argument of a piece can be read at the start of others, a value as a formula. -/
theorem Piece.exists_argument {arguments : List String} {settings : List Setting}
    (piece : Piece arguments settings) {text : String} (mem : text ∈ arguments) :
    ∃ reading, argument text = some reading := by
  rcases piece.read with ⟨only, rfl, read⟩ | ⟨first, value, _, _, _, rfl, read, valid, -⟩
  · rw [List.mem_singleton.1 mem]
    exact ⟨_, read⟩
  · rcases List.mem_cons.1 mem with rfl | mem
    · exact ⟨_, read⟩
    · rw [List.mem_singleton.1 mem]
      exact ⟨_, valid.argument_eq⟩

/-! ## All arguments -/

theorem settings?_of_written {arguments : List String} {settings : List Setting}
    (h : Written arguments settings) : settings? none arguments = some settings := by
  induction h with
  | none => rfl
  | piece piece _ ih => rw [settings?_append piece, ih, Option.map_some]
  | ended texts => rfl

/-- What the settings of some arguments come from, when the first may be a value. -/
theorem written_of_settings? {next : Option Valued} {arguments : List String}
    {settings : List Setting} (h : settings? next arguments = some settings) :
    match next with
    | none => Written arguments settings
    | some option => ∃ value rest setting more, arguments = value :: rest ∧
        Valid option value setting ∧ Written rest more ∧ settings = setting :: more := by
  fun_induction settings? next arguments generalizing settings with
  | case1 =>
    cases h
    exact .none
  | case2 => cases h
  | case3 option value rest ih =>
    obtain ⟨setting, valid, more⟩ := Option.bind_eq_some_iff.1 h
    obtain ⟨others, found, same⟩ := Option.bind_eq_some_iff.1 more
    cases same
    exact ⟨value, rest, setting, others, rfl, set_eq_some_iff.1 valid, ih found, rfl⟩
  | case4 rest =>
    cases h
    exact .ended rest
  | case5 text rest other ih =>
    rw [settings?_text other] at h
    obtain ⟨⟨first, next⟩, read, more⟩ := Option.bind_eq_some_iff.1 h
    obtain ⟨others, found, rfl⟩ := Option.map_eq_some_iff.1 more
    have starts := starts_of_argument read
    cases next with
    | none => exact .piece starts (ih _ found)
    | some option =>
      obtain ⟨value, rest, setting, more, rfl, valid, written, rfl⟩ := ih _ found
      have both := Written.piece (starts value setting valid) written
      rwa [List.append_assoc] at both

theorem settings?_eq_some_iff {arguments : List String} {settings : List Setting} :
    settings? none arguments = some settings ↔ Written arguments settings :=
  ⟨written_of_settings?, settings?_of_written⟩

end Propositional.CommandLine
