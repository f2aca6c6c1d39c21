import LineCalc.Main
import LineCalc.Double.Bits
import LineCalc.Proofs.Canonical
import LineCalc.Proofs.Outlook
import LineCalc.Proofs.Literals
import LineCalc.Proofs.Rendering
import LineCalc.Proofs.ExactValue
import LineCalc.Proofs.LongestLiteral
import LineCalc.Proofs.Scanning
import LineCalc.Proofs.Coverage
import LineCalc.Proofs.CallOrder
import LineCalc.Proofs.Outcomes
import LineCalc.Proofs.Recursion
import LineCalc.Proofs.Spelling
import LineCalc.Proofs.Agreement
import LineCalc.Proofs.Sessions
import LineCalc.Proofs.Overrides
import LineCalc.Proofs.TypedRuns
import LineCalc.Proofs.DigitLimit
import LineCalc.Proofs.Loading
import LineCalc.Proofs.Commands
import LineCalc.Proofs.DepthCap
import LineCalc.Proofs.Truncation
import LineCalc.Proofs.TwosComplement
import LineCalc.Proofs.FirstError
import LineCalc.Proofs.DigitCount
import LineCalc.Proofs.Separators
import LineCalc.Proofs.Rounding
import LineCalc.Proofs.Shortest
import LineCalc.Proofs.Interchange
import LineCalc.Proofs.Numerals
import LineCalc.Proofs.Positional
import LineCalc.Proofs.Results
import LineCalc.Proofs.NestingLevels
import LineCalc.Proofs.Locality
import LineCalc.Proofs.Fields
import LineCalc.Proofs.Reports
