import ByteTape.Error.Handmade
import ByteTape.Execution.BigStep
import ByteTape.Main
import ByteTape.Program.Text
import ByteTape.Program.Text.Reader
import ByteTape.Proofs.CommandLine.HandingOver
import ByteTape.Proofs.CommandLine.Outcome
import ByteTape.Proofs.CommandLine.Release
import ByteTape.Proofs.CommandLine.Verbosity
import ByteTape.Proofs.Execution.Context
import ByteTape.Proofs.Execution.Counting
import ByteTape.Proofs.Execution.Depth
import ByteTape.Proofs.Execution.EndOfInput
import ByteTape.Proofs.Execution.Failures
import ByteTape.Proofs.Execution.FirstByte
import ByteTape.Proofs.Execution.LongerTape
import ByteTape.Proofs.Execution.LoopExit
import ByteTape.Proofs.Execution.PaddedInput
import ByteTape.Proofs.Execution.Refinement
import ByteTape.Proofs.Execution.Rotation
import ByteTape.Proofs.Execution.Simulation
import ByteTape.Proofs.Execution.SinkFaults
import ByteTape.Proofs.Execution.Straight
import ByteTape.Proofs.Execution.Warnings
import ByteTape.Proofs.Program.Brackets
import ByteTape.Proofs.Program.Text
import ByteTape.Proofs.Program.Walk
import ByteTape.Proofs.Sequence
import ByteTape.Proofs.Streams
import ByteTape.Proofs.Strictness
import ByteTape.Proofs.Token.Characters
import ByteTape.Proofs.Token.Comments
import ByteTape.Proofs.Token.Lines
import ByteTape.Session
import ByteTape.Token.Lines
