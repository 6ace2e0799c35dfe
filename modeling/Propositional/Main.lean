import Propositional.CommandLine

namespace Propositional.CommandLine

/-- The memory of the machine: no address space holds the rows over 45 or more variables. -/
def fitsInMemory (count : Nat) : Bool := count < 45

end Propositional.CommandLine

open Propositional CommandLine

/-- Prints the truth table of a formula. -/
def main (arguments : List String) : IO UInt32 := do
  let outcome := run .ofArguments fitsInMemory arguments
  IO.print outcome.output
  unless outcome.complaint.isEmpty do IO.eprintln outcome.complaint
  return outcome.exitCode.toUInt32
