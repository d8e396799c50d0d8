import Intcode.Chain
import Intcode.Chain.Ordering
import Intcode.Chain.Search
import Intcode.Command.Grammar
import Intcode.Command.Help
import Intcode.Command.Host
import Intcode.Command.Invocation
import Intcode.Command.Run
import Intcode.Command.Value
import Intcode.Error
import Intcode.Execution
import Intcode.Files.Path
import Intcode.Files.Tree
import Intcode.Instruction
import Intcode.Journal
import Intcode.Listing
import Intcode.Machine
import Intcode.Main
import Intcode.Memory
import Intcode.Memory.Change
import Intcode.Memory.Dump
import Intcode.Notice
import Intcode.Program
import Intcode.Program.Text
import Intcode.Text.Blank
import Intcode.Text.Decimal
import Intcode.Text.Digit
import Intcode.Text.Lines
import Intcode.Text.Numeral
import Intcode.Text.Printable
import Intcode.Text.Quoted
import Intcode.Text.Utf8
import Intcode.Word
import Intcode.Proofs.ChainEndings
import Intcode.Proofs.ChainHistory
import Intcode.Proofs.CommandAgreement
import Intcode.Proofs.CommandRequests
import Intcode.Proofs.CommandStreams
import Intcode.Proofs.CompleteRuns
import Intcode.Proofs.Encoding
import Intcode.Proofs.FailingCalls
import Intcode.Proofs.FeedbackChains
import Intcode.Proofs.InputQueue
import Intcode.Proofs.InstructionTable
import Intcode.Proofs.Legibility
import Intcode.Proofs.LifeCycle
import Intcode.Proofs.LimitedRuns
import Intcode.Proofs.LineText
import Intcode.Proofs.LinearSweep
import Intcode.Proofs.ListingReload
import Intcode.Proofs.ListingText
import Intcode.Proofs.LongMemory
import Intcode.Proofs.MachineStep
import Intcode.Proofs.MemoryChanges
import Intcode.Proofs.MemoryHistory
import Intcode.Proofs.MemoryInspection
import Intcode.Proofs.MemoryReads
import Intcode.Proofs.NumberTables
import Intcode.Proofs.Orderings
import Intcode.Proofs.PhaseSearch
import Intcode.Proofs.ProgramText
import Intcode.Proofs.Pulls
import Intcode.Proofs.ResumedDrains
import Intcode.Proofs.RunEndings
import Intcode.Proofs.SerialChains
import Intcode.Proofs.Sessions
import Intcode.Proofs.Starvation
import Intcode.Proofs.StepLimit
import Intcode.Proofs.StepPlan
import Intcode.Proofs.TextPieces
import Intcode.Proofs.TraceAccount
import Intcode.Proofs.TraceErasure
import Intcode.Proofs.TraceListing
import Intcode.Proofs.WordRange
