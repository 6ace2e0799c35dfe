import Propositional.Table
import Propositional.Text.Blank

/-!
# The aligned text form of a table

Every column is as wide as its title. A line holds the titles, a second line rules them
off, and then each row has its line. A bar with a space on each side divides the columns;
no line ends with blanks.
-/

namespace Propositional

/-- A truth value in a cell. -/
def digit : Bool → Char
  | false => '0'
  | true => '1'

namespace Table

/-- The text with spaces after it, up to the width of its column. The width can be any number, as
where formatting keeps widths in machine words; where it keeps them in 16 bits, it refuses widths
above 65535. -/
def pad (width : Nat) (text : List Char) : List Char :=
  text ++ List.replicate (width - text.length) ' '

/-- The cells side by side, each as wide as its column. -/
def line (widths : List Nat) (cells : List (List Char)) : List Char :=
  Text.trimEnd ([' ', '|', ' '].intercalate (List.zipWith pad widths cells))

/-- The line between the titles and the rows. -/
def rule (widths : List Nat) : List Char :=
  ['-', '+', '-'].intercalate (widths.map (List.replicate · '-'))

/-- The lines of the text form. -/
def lines (t : Table) : List (List Char) :=
  let titles := t.header.map String.toList
  let widths := titles.map List.length
  line widths titles :: rule widths ::
    t.rows.map fun row => line widths (row.cells.map fun value => [digit value])

/-- The text form: the lines, each with a line break after it. -/
def text (t : Table) : String := String.ofList (t.lines.flatMap (· ++ ['\n']))

end Table

end Propositional
