import FirmwareDownload.Bench.Rehearsal
import FirmwareDownload.Bench.Trial
import FirmwareDownload.Main
import FirmwareDownload.Proofs.Engine.Ending
import FirmwareDownload.Proofs.Engine.Reaction
import FirmwareDownload.Proofs.Engine.Waiting
import FirmwareDownload.Proofs.Engine.Starting
import FirmwareDownload.Proofs.Engine.Moves
import FirmwareDownload.Proofs.Engine.HostCalls
import FirmwareDownload.Proofs.Engine.Holdings
import FirmwareDownload.Proofs.Engine.Invariant
import FirmwareDownload.Proofs.Engine.Staleness
import FirmwareDownload.Proofs.Engine.Backlog
import FirmwareDownload.Proofs.Engine.Lateness
import FirmwareDownload.Proofs.Frame.Buffer
import FirmwareDownload.Proofs.Frame.Reuse
import FirmwareDownload.Proofs.Image.Grammar
import FirmwareDownload.Proofs.Image.Slices
import FirmwareDownload.Proofs.Transfer.Write
import FirmwareDownload.Proofs.Engine.Exchange
import FirmwareDownload.Proofs.Engine.Writing
import FirmwareDownload.Proofs.Engine.LastFailure
import FirmwareDownload.Proofs.Engine.Stock
import FirmwareDownload.Proofs.Engine.Answers
import FirmwareDownload.Proofs.Engine.Pursuit
import FirmwareDownload.Proofs.Sequence.Deeds
import FirmwareDownload.Proofs.Sequence.Course
import FirmwareDownload.Proofs.Sequence.Recovery
import FirmwareDownload.Proofs.Sequence.Visits
import FirmwareDownload.Proofs.Sequence.Laps
import FirmwareDownload.Proofs.Sequence.Attempts
import FirmwareDownload.Proofs.Sequence.Reports
import FirmwareDownload.Proofs.Sequence.Opening
import FirmwareDownload.Proofs.Sequence.Counting
import FirmwareDownload.Proofs.Sequence.Interruption
import FirmwareDownload.Proofs.Sequence.Tally
import FirmwareDownload.Proofs.Sequence.Record
import FirmwareDownload.Proofs.Sequence.NormalMode
import FirmwareDownload.Proofs.Sequence.Success
import FirmwareDownload.Proofs.Sequence.Verification
import FirmwareDownload.Proofs.Sequence.Trials
import FirmwareDownload.Proofs.Sequence.Settling
import FirmwareDownload.Proofs.Sequence.Limits
import FirmwareDownload.Proofs.Sequence.Length
import FirmwareDownload.Proofs.Engine.WriteFrames
import FirmwareDownload.Proofs.Sequence.Writes
import FirmwareDownload.Proofs.Sequence.UpToDate
import FirmwareDownload.Proofs.Transfer.Read
import FirmwareDownload.Proofs.Engine.Following
import FirmwareDownload.Proofs.Engine.Reading
import FirmwareDownload.Proofs.Frame.Codec
import FirmwareDownload.Proofs.Crc.Division
import FirmwareDownload.Proofs.Frame.Corruption
import FirmwareDownload.Proofs.Engine.Resending
import FirmwareDownload.Proofs.Bench.Calm
import FirmwareDownload.Proofs.Bench.Prompt
import FirmwareDownload.Proofs.Bench.Conversation
import FirmwareDownload.Proofs.Bench.Commands
import FirmwareDownload.Proofs.Controller.Answering
import FirmwareDownload.Proofs.Controller.Records
import FirmwareDownload.Proofs.Controller.Service
import FirmwareDownload.Proofs.Sequence.Undisturbed
import FirmwareDownload.Proofs.Sequence.Faultless
import FirmwareDownload.Proofs.Engine.Phases
import FirmwareDownload.Proofs.Engine.Refusals
import FirmwareDownload.Proofs.Engine.ModeSwitches
import FirmwareDownload.Proofs.Bench.Leaks
import FirmwareDownload.Proofs.Bench.Steps
import FirmwareDownload.Proofs.Controller.Serving
import FirmwareDownload.Proofs.Bench.Progress
import FirmwareDownload.Proofs.Bench.Talk
import FirmwareDownload.Proofs.Bench.Attendance
import FirmwareDownload.Proofs.Bench.Dialogue
import FirmwareDownload.Proofs.Controller.Reads
import FirmwareDownload.Proofs.Bench.Reads
import FirmwareDownload.Proofs.Controller.Writes
import FirmwareDownload.Proofs.Bench.Writes
import FirmwareDownload.Proofs.Image.Layout
import FirmwareDownload.Proofs.Engine.Requests
import FirmwareDownload.Proofs.Engine.Lifetime
import FirmwareDownload.Proofs.Engine.SingleFrames
import FirmwareDownload.Proofs.Engine.Responses
import FirmwareDownload.Proofs.Engine.Errors
import FirmwareDownload.Proofs.Engine.Bookkeeping
import FirmwareDownload.Proofs.Bench.LogArea
import FirmwareDownload.Proofs.Bench.Handing
import FirmwareDownload.Proofs.Bench.LaidAnswers
import FirmwareDownload.Proofs.CommandLine.Plan
import FirmwareDownload.Proofs.Toml.Numeral
import FirmwareDownload.Proofs.Toml.Quoted
import FirmwareDownload.Proofs.Toml.Statements
import FirmwareDownload.Proofs.Config.RoundTrip
