import DecimalMachine.Example
import DecimalMachine.Main
import DecimalMachine.Proofs.Assembly.Execution
import DecimalMachine.Proofs.Assembly.Relocation
import DecimalMachine.Proofs.Machine.Invariant
import DecimalMachine.Report
import DecimalMachine.Proofs.Cycle.Failure
import DecimalMachine.Proofs.Machine.Footprint
import DecimalMachine.Proofs.Assembly.Reading
import DecimalMachine.Proofs.Assembly.Refusal
import DecimalMachine.Proofs.Text.Numeral
import DecimalMachine.Proofs.Assembly.Token
import DecimalMachine.Proofs.Assembly.Listing
import DecimalMachine.Proofs.Cycle.Agreement
import DecimalMachine.Proofs.Machine.StaleCells
import DecimalMachine.Proofs.Machine.Loading
import DecimalMachine.Proofs.Memory.Dump
import DecimalMachine.Proofs.Machine.TypedInput
import DecimalMachine.Proofs.Device.Emission
import DecimalMachine.Proofs.Machine.Exchange
import DecimalMachine.Proofs.Assembly.Dump
import DecimalMachine.Proofs.Machine.Trace
import DecimalMachine.Proofs.Machine.Limit
import DecimalMachine.Proofs.Report
import DecimalMachine.Proofs.Assembly.Recast
import DecimalMachine.Proofs.Assembly.Layout
import DecimalMachine.Proofs.Assembly.ErrorKinds
import DecimalMachine.Proofs.Text.Replace
import DecimalMachine.Proofs.Assembly.Renaming
import DecimalMachine.Proofs.Assembly.Rendering
import DecimalMachine.Proofs.Operand.Arithmetic
import DecimalMachine.Proofs.Command.Arguments
import DecimalMachine.Proofs.Command.Run
import DecimalMachine.Proofs.Command.Modes
import DecimalMachine.Proofs.Command.Launch
import DecimalMachine.Proofs.Text.Slice
import DecimalMachine.Proofs.Device.Rows
import DecimalMachine.Proofs.Device.Request
import DecimalMachine.Proofs.Machine.Forward
import DecimalMachine.Proofs.Cycle.Fault
import DecimalMachine.Proofs.Memory.Row
import DecimalMachine.Proofs.Report.Escape
import DecimalMachine.Proofs.Command.Pack
import DecimalMachine.Proofs.Device.Prompt
import DecimalMachine.Proofs.Operand.Order
import DecimalMachine.Proofs.Display.Grid
import DecimalMachine.Proofs.Example.Factorial
