import Groundwork.Address.Host
import Groundwork.Address.Slots
import Groundwork.Address.TeredoBytes
import Groundwork.Address.Transition
import Groundwork.Bytes.Cursor
import Groundwork.CommandLine
import Groundwork.Future.Decorators
import Groundwork.Future.Shared
import Groundwork.Main
import Groundwork.Queue.Decorators
import Groundwork.Queue.Meeting
import Groundwork.Service.Settling
import Groundwork.SortedMap.Decorators
import Groundwork.Supplier.Chain
import Groundwork.Supplier.Crowd
import Groundwork.Supplier.Layers
import Groundwork.Supplier.Numbers
import Groundwork.Supplier.Plan
import Groundwork.Tower
import Groundwork.Proofs.Address.CanonicalText
import Groundwork.Proofs.Address.Classification
import Groundwork.Proofs.Address.Embedding
import Groundwork.Proofs.Address.Grammar
import Groundwork.Proofs.Address.Host
import Groundwork.Proofs.Address.HostText
import Groundwork.Proofs.Address.NormalForm
import Groundwork.Proofs.Address.Reading
import Groundwork.Proofs.Address.RoundTrip
import Groundwork.Proofs.Address.Shortcut
import Groundwork.Proofs.Address.Slots
import Groundwork.Proofs.Address.Spelling
import Groundwork.Proofs.Address.Teredo
import Groundwork.Proofs.Address.ZeroRun
import Groundwork.Proofs.Bytes.Advance
import Groundwork.Proofs.Bytes.CodeUnits
import Groundwork.Proofs.Bytes.Cursor
import Groundwork.Proofs.Bytes.Lines
import Groundwork.Proofs.Bytes.Offset
import Groundwork.Proofs.Bytes.Rejection
import Groundwork.Proofs.Bytes.Scalars
import Groundwork.Proofs.Bytes.Scanning
import Groundwork.Proofs.Bytes.Text
import Groundwork.Proofs.Decorators
import Groundwork.Proofs.Future.Completion
import Groundwork.Proofs.Overrides
import Groundwork.Proofs.Queue.Agreement
import Groundwork.Proofs.Queue.Fifo
import Groundwork.Proofs.Queue.Meeting
import Groundwork.Proofs.Report.Description
import Groundwork.Proofs.Report.Entries
import Groundwork.Proofs.Service.Futures
import Groundwork.Proofs.Service.Legality
import Groundwork.Proofs.Service.Meddling
import Groundwork.Proofs.Service.Moves
import Groundwork.Proofs.Service.Stages
import Groundwork.Proofs.Service.Stopping
import Groundwork.Proofs.SortedMap.History
import Groundwork.Proofs.SortedMap.Views
import Groundwork.Proofs.Supplier.Absorption
import Groundwork.Proofs.Supplier.Crowd
import Groundwork.Proofs.Supplier.Expiry
import Groundwork.Proofs.Supplier.Numbers
import Groundwork.Proofs.Supplier.Once
import Groundwork.Proofs.Supplier.Runs
import Groundwork.Proofs.Supplier.Staleness
import Groundwork.Proofs.Text.Cutting
import Groundwork.Proofs.Text.Numeral
import Groundwork.Proofs.Text.Quoted
import Groundwork.Proofs.Threads.Isolation
import Groundwork.Proofs.Threads.NameFormat
import Groundwork.Proofs.Threads.Panics
import Groundwork.Proofs.Waiting
