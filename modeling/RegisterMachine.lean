import RegisterMachine.Action
import RegisterMachine.CommandLine.Argument
import RegisterMachine.CommandLine.FileTree
import RegisterMachine.CommandLine.Reply
import RegisterMachine.CommandLine.Settings
import RegisterMachine.CommandLine.Usage
import RegisterMachine.Fault
import RegisterMachine.Instruction
import RegisterMachine.InstructionSet
import RegisterMachine.Machine
import RegisterMachine.Main
import RegisterMachine.Numeral
import RegisterMachine.Opcode
import RegisterMachine.Operand
import RegisterMachine.Playground.Limit
import RegisterMachine.Playground.Panes
import RegisterMachine.Playground.Sample
import RegisterMachine.Program
import RegisterMachine.Report.Change
import RegisterMachine.Report.Log
import RegisterMachine.Report.Trace
import RegisterMachine.Run
import RegisterMachine.Session
import RegisterMachine.Table
import RegisterMachine.Text.Basic
import RegisterMachine.Text.Blank
import RegisterMachine.Text.Capital
import RegisterMachine.Text.Digit
import RegisterMachine.Text.Printable
import RegisterMachine.Text.Quoted
import RegisterMachine.Token
import RegisterMachine.Word
import RegisterMachine.Proofs.Decoding
import RegisterMachine.Proofs.Hazard
import RegisterMachine.Proofs.Effect
import RegisterMachine.Proofs.Layout
import RegisterMachine.Proofs.Reachable
import RegisterMachine.Proofs.Resting
import RegisterMachine.Proofs.Budget
import RegisterMachine.Proofs.Correspondence
import RegisterMachine.Proofs.Insertion
import RegisterMachine.Proofs.Execution
import RegisterMachine.Proofs.Calls
import RegisterMachine.Proofs.Output
import RegisterMachine.Proofs.Quotation
import RegisterMachine.Proofs.Decoration
import RegisterMachine.Proofs.Tokens
import RegisterMachine.Proofs.Separation
import RegisterMachine.Proofs.Rendering
import RegisterMachine.Proofs.Concatenation
import RegisterMachine.Proofs.Recording
import RegisterMachine.Proofs.Stepwise
import RegisterMachine.Proofs.Skipping
import RegisterMachine.Proofs.Chronicle
import RegisterMachine.Proofs.Locality
import RegisterMachine.Proofs.Obstacles
import RegisterMachine.Proofs.Labels
import RegisterMachine.Proofs.Literals
import RegisterMachine.Proofs.Arguments
import RegisterMachine.Proofs.FrontEnds
import RegisterMachine.Proofs.Frame
import RegisterMachine.Proofs.Registers
import RegisterMachine.Proofs.Progress
import RegisterMachine.Proofs.Comparison
import RegisterMachine.Proofs.Wrapping
import RegisterMachine.Proofs.Forward
import RegisterMachine.Proofs.Routine
import RegisterMachine.Proofs.Euclid
import RegisterMachine.Proofs.Division
import RegisterMachine.Proofs.Inline
import RegisterMachine.Proofs.Comments
import RegisterMachine.Proofs.Changes
