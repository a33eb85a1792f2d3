import Newsroom.Article
import Newsroom.Category
import Newsroom.Config.Basic
import Newsroom.Config.Descriptor
import Newsroom.Config.Document
import Newsroom.Config.Load
import Newsroom.Decimal.Binary64
import Newsroom.Decimal.Shortest
import Newsroom.Error
import Newsroom.Event
import Newsroom.Message
import Newsroom.Tally
import Newsroom.Text.Blank
import Newsroom.Text.Hidden
import Newsroom.Text.Numeral
import Newsroom.Text.Quoted
import Newsroom.Text.Search
import Newsroom.Toml.Blank
import Newsroom.Toml.DateTime
import Newsroom.Toml.Document
import Newsroom.Toml.Number
import Newsroom.Toml.Quotation
import Newsroom.Toml.Fault
import Newsroom.Toml.Statement
import Newsroom.Toml.Value
import Newsroom.Word
import Newsroom.Buffer.Basic
import Newsroom.Buffer.Session
import Newsroom.CommandLine.Options
import Newsroom.CommandLine.Program
import Newsroom.Main
import Newsroom.Pipeline.Bench
import Newsroom.Semaphore.Session
import Newsroom.Proofs.Dispatcher
import Newsroom.Proofs.EndMarks
import Newsroom.Proofs.Schedule
import Newsroom.Proofs.Floor.Order
import Newsroom.Proofs.Floor.Work
import Newsroom.Proofs.Floor.Progress
import Newsroom.Proofs.Classification
import Newsroom.Proofs.Floor.Flow
import Newsroom.Proofs.Floor.Count
import Newsroom.Proofs.Build
import Newsroom.Proofs.Floor.Sends
import Newsroom.Proofs.Floor.Takes
import Newsroom.Proofs.Launch.Step
import Newsroom.Proofs.Launch.Regular
import Newsroom.Proofs.Launch.Termination
import Newsroom.Proofs.Launch.Delivery
import Newsroom.Proofs.Launch.EndOfStream
import Newsroom.Proofs.Conservation
import Newsroom.Proofs.Launch.Outcome
import Newsroom.Proofs.Launch.StandIns
import Newsroom.Proofs.Launch.FailedStart
import Newsroom.Proofs.Buffer.Ring
import Newsroom.Proofs.Buffer.Step
import Newsroom.Proofs.Buffer.Accounts
import Newsroom.Proofs.Buffer.Alone
import Newsroom.Proofs.Buffer.Fifo
import Newsroom.Proofs.Buffer.Completion
import Newsroom.Proofs.Semaphore.Step
import Newsroom.Proofs.Launch.Unwinding
import Newsroom.Proofs.Launch.CleanUnwinding
import Newsroom.Proofs.Semaphore.Permits
import Newsroom.Proofs.Text.Numeral
import Newsroom.Proofs.Descriptor.Parts
import Newsroom.Proofs.Descriptor.Items
import Newsroom.Proofs.Descriptor.Faults
import Newsroom.Proofs.Descriptor.Layout
import Newsroom.Proofs.Capacities
import Newsroom.Proofs.Document.Words
import Newsroom.Proofs.Document.Lines
import Newsroom.Proofs.Document.Tables
import Newsroom.Proofs.Document.RoundTrip
import Newsroom.Proofs.Launch.Panic
import Newsroom.Proofs.Launch.Waiting
import Newsroom.Proofs.Launch.BlockedUnwinding
import Newsroom.Proofs.Descriptor.Capacity
import Newsroom.Proofs.Buffer.Refusal
import Newsroom.Proofs.Dispatch.Transcript
import Newsroom.Proofs.Dispatch.Rounds
import Newsroom.Proofs.Dispatch.Turns
import Newsroom.Proofs.Floor.Deeds
import Newsroom.Proofs.Dispatch.Merge
import Newsroom.Pipeline.Junction
import Newsroom.Proofs.Dispatch.Port
import Newsroom.Proofs.Dispatch.Junction
import Newsroom.Proofs.Dispatch.Handover
import Newsroom.Proofs.ArticleText
import Newsroom.Proofs.Bench.Moves
import Newsroom.Proofs.Bench.Display
import Newsroom.Proofs.Bench.FanIn
import Newsroom.Proofs.Bench.Stream
import Newsroom.Proofs.Causes
import Newsroom.Proofs.Document.Laws
import Newsroom.Proofs.Document.Library
import Newsroom.Proofs.Launch.Run
import Newsroom.Proofs.Numbering
import Newsroom.Proofs.Execution
import Newsroom.Proofs.Buffer.Session
import Newsroom.Proofs.Buffer.Merging
import Newsroom.Proofs.Semaphore.Session
