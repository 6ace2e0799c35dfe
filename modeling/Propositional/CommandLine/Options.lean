/-!
# The arguments of the command line

    [EXPR] [-f|--format table|csv] [--latex] [--max-vars N] [-v|--verbose]... [-h|--help]

The value of an option is the next argument, or is attached to the option: `--format=csv`,
`-f=csv`, `-fcsv`. Short options can be bundled. After `--` no argument is an option. Each
setting may be given once, in any order; only `-v` may be repeated. Arguments that are well
formed up to a request for help are such a request, whatever comes after it.

A run takes the parser of its arguments as a parameter, of type `List String → Request`;
`Request.ofArguments` is one.
-/

namespace Propositional.CommandLine

inductive Format where
  | table | csv
deriving DecidableEq, Repr

/-- What one argument asks for. -/
inductive Setting where
  | expression (text : String)
  | format (format : Format)
  | latex
  | maxVariables (count : Nat)
  | verbose
deriving DecidableEq, Repr

/-- The options that take a value. -/
inductive Valued where
  | format | maxVariables
deriving DecidableEq, Repr

/-- A decimal number of a 64-bit machine; a plus sign may stand before it. -/
def number? (text : List Char) : Option Nat :=
  let digits := match text with
    | '+' :: digits => digits
    | digits => digits
  if digits ≠ [] ∧ digits.all Char.isDigit then
    let value := digits.foldl (fun value digit => 10 * value + (digit.toNat - '0'.toNat)) 0
    if value < UInt64.size then some value else none
  else none

/-- The setting that an option makes with a value, if it is one for the option. -/
def Valued.set : Valued → String → Option Setting
  | .format, "table" => some (.format .table)
  | .format, "csv" => some (.format .csv)
  | .format, _ => none
  | .maxVariables, text => (number? text.toList).map .maxVariables

/-- The settings of an argument, and the option whose value the next argument has to be. -/
abbrev Reading := List Setting × Option Valued

/-- Reads an option that takes a value, with the value if it is attached. -/
def valued (option : Valued) : Option (List Char) → Option Reading
  | some value => (option.set (String.ofList value)).map fun setting => ([setting], none)
  | none => some ([], some option)

/-- Reads a long option, with the value that follows its equals sign. A request for help makes no
setting: see `isHelp`. -/
def long (name : List Char) (value : Option (List Char)) : Option Reading :=
  match String.ofList name, value with
  | "format", value => valued .format value
  | "max-vars", value => valued .maxVariables value
  | "latex", none => some ([.latex], none)
  | "verbose", none => some ([.verbose], none)
  | _, _ => none

/-- Reads a bundle of short options that make settings; the last of them may have its value
attached. -/
def short : List Char → Option Reading
  | [] => some ([], none)
  | 'v' :: bundle => (short bundle).map fun (settings, next) => (.verbose :: settings, next)
  | ['f'] => valued .format none
  | 'f' :: '=' :: value => valued .format (some value)
  | 'f' :: value => valued .format (some value)
  | _ => none

/-- Reads one argument before `--`. A lone `-` is no option. -/
def argument (text : String) : Option Reading :=
  match text.toList with
  | '-' :: '-' :: option =>
    let name := option.takeWhile (· != '=')
    long name ((option.dropWhile (· != '=')).tail?)
  | '-' :: c :: bundle => short (c :: bundle)
  | _ => some ([.expression text], none)

/-- The settings of some arguments, of which the first may be the value of an option. -/
def settings? : Option Valued → List String → Option (List Setting)
  | none, [] => some []
  | some _, [] => none
  | some option, value :: rest => do
    let setting ← option.set value
    return setting :: (← settings? none rest)
  | none, "--" :: rest => some (rest.map .expression)
  | none, text :: rest => do
    let (settings, next) ← argument text
    return settings ++ (← settings? next rest)

/-- All settings together. -/
structure Options where
  expression : String := "A ^ B"
  format : Format := .table
  latex : Bool := false
  maxVariables : Nat := 10
deriving DecidableEq, Repr

/-- The only entry of a list, or the default; a list with more is refused. -/
def single {α : Type} (default : α) : List α → Option α
  | [] => some default
  | [value] => some value
  | _ => none

def Setting.expression? : Setting → Option String
  | .expression text => some text
  | _ => none

def Setting.format? : Setting → Option Format
  | .format chosen => some chosen
  | _ => none

def Setting.latex? : Setting → Option Bool
  | .latex => some true
  | _ => none

def Setting.maxVariables? : Setting → Option Nat
  | .maxVariables count => some count
  | _ => none

/-- The options that some settings make, if none of them is made twice. -/
def Options.ofSettings (settings : List Setting) : Option Options := do
  let defaults : Options := {}
  return {
    expression := ← single defaults.expression (settings.filterMap Setting.expression?)
    format := ← single defaults.format (settings.filterMap Setting.format?)
    latex := ← single defaults.latex (settings.filterMap Setting.latex?)
    maxVariables := ← single defaults.maxVariables (settings.filterMap Setting.maxVariables?) }

/-- The options that the arguments make, if they are well formed. -/
def Options.ofArguments (arguments : List String) : Option Options :=
  (settings? none arguments).bind Options.ofSettings

/-! ## Requests -/

/-- What the arguments of a run ask for. -/
inductive Request where
  | options (options : Options)
  /-- The help text, which is no failure. -/
  | help (text : String)
  /-- The arguments are not well formed. -/
  | refused (complaint : String)
deriving DecidableEq, Repr

/-- Whether an argument asks for help: a long option, or a short one after any number of `v`. -/
def isHelp (text : String) : Bool :=
  text == "--help" ||
    match text.toList with
    | '-' :: bundle => (bundle.dropWhile (· == 'v')).head? == some 'h'
    | _ => false

/-- The arguments before the first that asks for help. After `--` none does. -/
def beforeHelp? : List String → Option (List String)
  | [] => none
  | text :: rest =>
    if text = "--" then none
    else if isHelp text then some []
    else (beforeHelp? rest).map (text :: ·)

/-- What help shows, and what arguments that are not well formed are answered with. -/
def usage : String :=
  "usage: [EXPR] [-f|--format table|csv] [--latex] [--max-vars N] [-v|--verbose]... [-h|--help]"

/-- What the arguments ask for. They are read one by one: what comes after a request for help
is not looked at, and what comes before has to be well formed. -/
def Request.ofArguments (arguments : List String) : Request :=
  match (beforeHelp? arguments).bind Options.ofArguments with
  | some _ => .help (usage ++ "\n")
  | none =>
    match Options.ofArguments arguments with
    | some chosen => .options chosen
    | none => .refused usage

end Propositional.CommandLine
