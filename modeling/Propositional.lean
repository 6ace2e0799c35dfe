import Propositional.Main
import Propositional.Enumeration.Session
import Propositional.Pipeline
import Propositional.Proofs.Infix.RoundTrip
import Propositional.Proofs.Infix.Injective
import Propositional.Proofs.Reading.Failure
import Propositional.Proofs.Table.Columns
import Propositional.Proofs.Table.Equivalence
import Propositional.Proofs.Table.Faults
import Propositional.Proofs.Table.Records
import Propositional.Proofs.CommandLine.Run
import Propositional.Proofs.Enumeration.Session
import Propositional.Proofs.Enumeration.NestedLoops
import Propositional.Proofs.Infix.Parentheses
import Propositional.Proofs.Token.Tiling
import Propositional.Proofs.Assignment.Agreement
import Propositional.Proofs.Reading.Columns
import Propositional.Proofs.Infix.Functions
import Propositional.Proofs.Infix.Chains
import Propositional.Proofs.Infix.Latex
import Propositional.Proofs.Reading.Blame
import Propositional.Proofs.Table.Encoding
import Propositional.Proofs.Infix.Characters
import Propositional.Proofs.Table.Plain
import Propositional.Proofs.Table.Alignment
import Propositional.Proofs.Name.Subscript
import Propositional.Proofs.Infix.Collisions
import Propositional.Proofs.Name.Bytes
import Propositional.Proofs.Table.Renaming
import Propositional.Proofs.Reading.Height
import Propositional.Proofs.Reading.Watched
