import Propositional.Text.Blank
import Propositional.Text.Word
import Propositional.Token

/-!
# From text to tokens

Tokens are read from left to right. White space separates them and is skipped; a word or
a number takes as many characters as it can. The first character that starts no token, or
starts one that is not completed, ends the scan with its column.
-/

namespace Propositional

/-- Why a text has no token at some place. -/
inductive ScanCause where
  /-- One character of a sign that is written with two of them. -/
  | single (c : Char)
  /-- A word that starts with a digit, other than `0` and `1`. -/
  | number (word : String)
  | stray (c : Char)
deriving DecidableEq, Repr

/-- The place and the reason at which a scan ended. -/
structure ScanError where
  column : Nat
  cause : ScanCause
deriving DecidableEq, Repr

def ScanCause.message : ScanCause → String
  | .single c => s!"unexpected character '{c}' (did you mean '{c}{c}'?)"
  | .number word => s!"'{word}' is neither a boolean literal nor a variable name"
  | .stray c => s!"unexpected character '{c}'"

namespace Token

/-- The signs of one character. -/
def ofChar? : Char → Option Token
  | '(' => some .opening
  | ')' => some .closing
  | ',' => some .comma
  | '~' => some .not
  | '&' => some (.operator .and)
  | '|' => some (.operator .or)
  | '^' => some (.operator .xor)
  | _ => none

/-- The signs that are written as one character twice. -/
def ofDouble? : Char → Option Token
  | '>' => some (.operator .implies)
  | '=' => some (.operator .equiv)
  | _ => none

/-- A word is a name, unless it is one of the two literals. -/
def ofWord (first : Char) (rest : List Char) : Token :=
  if first :: rest = ['T', 'r', 'u', 'e'] then .literal true
  else if first :: rest = ['F', 'a', 'l', 's', 'e'] then .literal false
  else .word (Name.ofChars first rest)

/-- Of the words that start with a digit, `0` and `1` are literals and no other has a meaning. -/
def ofNumber (first : Char) (rest : List Char) : Except ScanCause Token :=
  match first, rest with
  | '0', [] => .ok (.literal false)
  | '1', [] => .ok (.literal true)
  | _, _ => .error (.number (String.ofList (first :: rest)))

/-- The token that starts with the character `c`, which is not blank, and the number of
further characters of the text that belong to it. -/
def start (c : Char) (rest : List Char) : Except ScanCause (Token × Nat) :=
  match ofChar? c, ofDouble? c with
  | some token, _ => .ok (token, 0)
  | none, some token => if rest.head? = some c then .ok (token, 1) else .error (.single c)
  | none, none =>
    let word := rest.takeWhile Text.isWordChar
    if c.isDigit then (ofNumber c word).map (·, word.length)
    else if Text.isWordStart c then .ok (ofWord c word, word.length)
    else .error (.stray c)

end Token

/-- Adds the tokens of a text that starts at `column` to those found before, last first. -/
def scanFrom (column : Nat) (found : List Placed) : List Char → Except ScanError (List Placed)
  | [] => .ok found.reverse
  | c :: rest =>
    if Text.isBlank c then scanFrom (column + 1) found rest
    else
      match Token.start c rest with
      | .ok (token, more) =>
        scanFrom (column + 1 + more) (⟨token, column⟩ :: found) (rest.drop more)
      | .error cause => .error ⟨column, cause⟩
termination_by text => text.length
decreasing_by all_goals simp; try omega

/-- The tokens of a text. -/
def scan (text : String) : Except ScanError (List Placed) := scanFrom 1 [] text.toList

end Propositional
