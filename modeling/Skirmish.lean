import Skirmish.Arena.Board
import Skirmish.Arena.Census
import Skirmish.Arena.Commentary
import Skirmish.Arena.Fighter
import Skirmish.Arena.Orders
import Skirmish.Arena.Picture
import Skirmish.Arena.Player
import Skirmish.Arena.Tiles
import Skirmish.Arena.Torus
import Skirmish.Arena.Turn
import Skirmish.Arena.TurnQueue
import Skirmish.CommandLine.Invocation
import Skirmish.CommandLine.Options
import Skirmish.CommandLine.Program
import Skirmish.CommandLine.Usage
import Skirmish.Contest.Entry
import Skirmish.Contest.Match
import Skirmish.Contest.Outcome
import Skirmish.Contest.Settings
import Skirmish.Decimal.Reading
import Skirmish.Decimal.Shortest
import Skirmish.Main
import Skirmish.Proofs.Arena.Acting
import Skirmish.Proofs.Arena.Coherence
import Skirmish.Proofs.Arena.Operations
import Skirmish.Proofs.Arena.Reachable
import Skirmish.Proofs.Contest.Opening
import Skirmish.Proofs.Contest.Playing
import Skirmish.Proofs.Contest.Results
import Skirmish.Proofs.Contest.Standing
import Skirmish.Proofs.Script.Checks
import Skirmish.Proofs.Script.Compiling
import Skirmish.Proofs.Script.Evaluation
import Skirmish.Proofs.Script.Grammar
import Skirmish.Proofs.Script.Nesting
import Skirmish.Proofs.Script.Parsing
import Skirmish.Proofs.Script.Sequence
import Skirmish.Proofs.Script.Spacing
import Skirmish.Random.Source
import Skirmish.Random.Xoshiro
import Skirmish.Report.Code
import Skirmish.Report.Diagnostic
import Skirmish.Report.Terminal
import Skirmish.Script.Arithmetic
import Skirmish.Script.Bindings
import Skirmish.Script.Call
import Skirmish.Script.Command
import Skirmish.Script.Compile
import Skirmish.Script.Depth
import Skirmish.Script.Fault
import Skirmish.Script.Malformed
import Skirmish.Script.Run
import Skirmish.Script.Statement
import Skirmish.Script.Symbol
import Skirmish.Script.Term
import Skirmish.Script.Token
import Skirmish.Script.Value
import Skirmish.Text.Alphanumeric
import Skirmish.Text.Blank
import Skirmish.Text.Closest
import Skirmish.Text.EditDistance
import Skirmish.Text.Pieces
import Skirmish.Proofs.Arena.Rules
import Skirmish.Proofs.Arena.Distance
import Skirmish.Proofs.Arena.Reach
import Skirmish.Proofs.Arena.Obedience
import Skirmish.Proofs.Contest.Reached
import Skirmish.Proofs.Contest.Turns
import Skirmish.Proofs.Script.Names
import Skirmish.Proofs.Script.Resolution
import Skirmish.Proofs.Arena.Answers
import Skirmish.Proofs.Arena.Counting
import Skirmish.Proofs.Arena.Agreement
import Skirmish.Proofs.Contest.Display
import Skirmish.Proofs.Contest.Strictness
import Skirmish.Proofs.Script.Renaming
import Skirmish.Proofs.Script.Numbering
import Skirmish.Proofs.Arena.SharedTable
import Skirmish.Proofs.Arena.Fairness
import Skirmish.Proofs.Arena.Readiness
import Skirmish.Proofs.Script.Concatenation
import Skirmish.Proofs.Contest.Scripts
import Skirmish.Proofs.Script.ShortCircuit
import Skirmish.Proofs.Script.Splitting
import Skirmish.Proofs.Script.Calls
import Skirmish.Proofs.Text.EditDistance
import Skirmish.Proofs.Text.Closest
import Skirmish.Proofs.Arena.KingMoves
import Skirmish.Proofs.Arena.Attacks
import Skirmish.Proofs.Arena.Refusals
import Skirmish.Proofs.Arena.Timers
import Skirmish.Proofs.Arena.Newcomers
import Skirmish.Proofs.Contest.FirstUnits
import Skirmish.Proofs.Arena.ReadBack
import Skirmish.Proofs.Script.Definitions
import Skirmish.Proofs.Script.Exactness
import Skirmish.Proofs.Script.Interning
import Skirmish.Proofs.Script.WholeFloats
import Skirmish.Proofs.Script.Parentheses
import Skirmish.Proofs.Arena.Defence
import Skirmish.Proofs.CommandLine.Options
import Skirmish.Proofs.Report.Colours
import Skirmish.Proofs.Arena.Charging
import Skirmish.Proofs.Script.Termination
