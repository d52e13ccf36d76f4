import Espresso.Binary.Arithmetic
import Espresso.Binary.Basic
import Espresso.Controller.Basic
import Espresso.Controller.Command
import Espresso.Controller.Configure
import Espresso.Controller.Operate
import Espresso.Controller.Run
import Espresso.Controller.Snapshot
import Espresso.Controller.Tick
import Espresso.Controller.Tuning
import Espresso.Decimal.Basic
import Espresso.Decimal.Notation
import Espresso.Decimal.Shortest
import Espresso.Error
import Espresso.Json.Basic
import Espresso.Json.Number
import Espresso.Json.Parser
import Espresso.Json.Printer
import Espresso.Json.Reader
import Espresso.LocalTime
import Espresso.Machine.Basic
import Espresso.Machine.Kinds
import Espresso.Machine.Live
import Espresso.Machine.Run
import Espresso.Named
import Espresso.Notice.Bus
import Espresso.Notice.Event
import Espresso.Notice.Line
import Espresso.Packed.Basic
import Espresso.Power
import Espresso.Proofs.Binary
import Espresso.Proofs.Calendar
import Espresso.Proofs.Controller.Agreement
import Espresso.Proofs.Controller.Books
import Espresso.Proofs.Controller.Cadence
import Espresso.Proofs.Controller.Capacity
import Espresso.Proofs.Controller.Completion
import Espresso.Proofs.Controller.Core
import Espresso.Proofs.Controller.Credit
import Espresso.Proofs.Controller.Dispatch
import Espresso.Proofs.Controller.Economy
import Espresso.Proofs.Controller.Erasure
import Espresso.Proofs.Controller.Failures
import Espresso.Proofs.Controller.Idle
import Espresso.Proofs.Controller.Import
import Espresso.Proofs.Controller.Ledger
import Espresso.Proofs.Controller.MachineType
import Espresso.Proofs.Controller.Memory
import Espresso.Proofs.Controller.Notice
import Espresso.Proofs.Controller.Reboot
import Espresso.Proofs.Controller.Refusal
import Espresso.Proofs.Controller.Secrecy
import Espresso.Proofs.Controller.Silence
import Espresso.Proofs.Controller.Spaces
import Espresso.Proofs.Controller.Standstill
import Espresso.Proofs.Controller.Thrift
import Espresso.Proofs.Controller.Upkeep
import Espresso.Proofs.Controller.Usage
import Espresso.Proofs.Controller.Validity
import Espresso.Proofs.Controller.Watch
import Espresso.Proofs.Decimal
import Espresso.Proofs.Json.Number
import Espresso.Proofs.Json.Object
import Espresso.Proofs.Json.Same
import Espresso.Proofs.Json.Text
import Espresso.Proofs.Json.Value
import Espresso.Proofs.Keys
import Espresso.Proofs.LocalTime
import Espresso.Proofs.Machine.Fault
import Espresso.Proofs.Machine.Window
import Espresso.Proofs.Notice.Register
import Espresso.Proofs.Observer
import Espresso.Proofs.Packed
import Espresso.Proofs.Packed.Cut
import Espresso.Proofs.Records
import Espresso.Proofs.Schedule.Changes
import Espresso.Proofs.Schedule.Daily
import Espresso.Proofs.Schedule.Engine
import Espresso.Proofs.Schedule.Loaded
import Espresso.Proofs.Schedule.Minutes
import Espresso.Proofs.Schedule.Precedence
import Espresso.Proofs.Schedule.RoundTrip
import Espresso.Proofs.Schedule.Table
import Espresso.Proofs.Settings.Edit
import Espresso.Proofs.Settings.Export
import Espresso.Proofs.Settings.Hostname
import Espresso.Proofs.Settings.Independence
import Espresso.Proofs.Settings.Kind
import Espresso.Proofs.Settings.Persistence
import Espresso.Proofs.Settings.Ranges
import Espresso.Proofs.Settings.Saving
import Espresso.Proofs.Settings.Schema
import Espresso.Proofs.Settings.Secrecy
import Espresso.Proofs.Settings.Section
import Espresso.Proofs.Shot
import Espresso.Proofs.Shot.Changes
import Espresso.Proofs.Shot.Format
import Espresso.Proofs.Shot.Origin
import Espresso.Proofs.Shot.Refinement
import Espresso.Proofs.Statistics.Counters
import Espresso.Proofs.Storage
import Espresso.Proofs.Storage.Capacity
import Espresso.Proofs.Storage.Refinement
import Espresso.Proofs.Text
import Espresso.Ring
import Espresso.Rounding
import Espresso.Saturating
import Espresso.Schedule.Change
import Espresso.Schedule.Engine
import Espresso.Schedule.Entry
import Espresso.Schedule.Pass
import Espresso.Schedule.Table
import Espresso.Settings.Basic
import Espresso.Settings.Brewing
import Espresso.Settings.Connection
import Espresso.Settings.Edit
import Espresso.Settings.Interface
import Espresso.Settings.Kind
import Espresso.Settings.Persistence
import Espresso.Settings.Schema
import Espresso.Settings.Section
import Espresso.Shot.Basic
import Espresso.Shot.Blob
import Espresso.Shot.Change
import Espresso.Shot.History
import Espresso.Statistics
import Espresso.Storage.Basic
import Espresso.Storage.Medium
import Espresso.Storage.Request
import Espresso.Text
