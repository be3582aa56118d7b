import TipJar.Amount.Basic
import TipJar.Amount.Coins
import TipJar.Amount.Operand
import TipJar.Binary64.Basic
import TipJar.Binary64.Parser
import TipJar.Binary64.Shortest
import TipJar.Config.Active
import TipJar.Config.Basic
import TipJar.Config.Parser
import TipJar.Config.Shown
import TipJar.Decimal.Arithmetic
import TipJar.Decimal.Basic
import TipJar.Decimal.Parser
import TipJar.Decimal.Printer
import TipJar.Drop.Schedule
import TipJar.Drop.Status
import TipJar.Drop.Sweep
import TipJar.Drop.Unit
import TipJar.Fault.Basic
import TipJar.Fault.Mismatch
import TipJar.Fault.Refusal
import TipJar.Ledger.Accounts
import TipJar.Ledger.Arithmetic
import TipJar.Ledger.Balance
import TipJar.Ledger.Column
import TipJar.Ledger.Drops
import TipJar.Ledger.Edits
import TipJar.Ledger.Location
import TipJar.Ledger.Name
import TipJar.Ledger.Queries
import TipJar.Ledger.Rows
import TipJar.Ledger.Store
import TipJar.Ledger.Transfers
import TipJar.Ledger.Work
import TipJar.Log.Channel
import TipJar.Log.Context
import TipJar.Log.Level
import TipJar.Log.Line
import TipJar.Log.Template
import TipJar.Main
import TipJar.Operator.Arguments
import TipJar.Operator.Basic
import TipJar.Preference
import TipJar.Program.Audit
import TipJar.Program.Basic
import TipJar.Program.Call
import TipJar.Program.Notify
import TipJar.Program.Sweeper
import TipJar.Program.Switch
import TipJar.Program.Tipping
import TipJar.Proofs.Acts
import TipJar.Proofs.Announcements
import TipJar.Proofs.Arithmetic
import TipJar.Proofs.Audit
import TipJar.Proofs.Availability
import TipJar.Proofs.Backlogs
import TipJar.Proofs.Balances
import TipJar.Proofs.Bindings
import TipJar.Proofs.Bounds
import TipJar.Proofs.Callers
import TipJar.Proofs.Changes
import TipJar.Proofs.Checking
import TipJar.Proofs.Checksums
import TipJar.Proofs.Coins
import TipJar.Proofs.Columns
import TipJar.Proofs.Commands
import TipJar.Proofs.Commuting
import TipJar.Proofs.Contents
import TipJar.Proofs.Coverage
import TipJar.Proofs.Crowds
import TipJar.Proofs.Deadlines
import TipJar.Proofs.Debits
import TipJar.Proofs.Decimals
import TipJar.Proofs.Decoding
import TipJar.Proofs.Deeds
import TipJar.Proofs.Delimiting
import TipJar.Proofs.Deliveries
import TipJar.Proofs.Deposits
import TipJar.Proofs.Digits
import TipJar.Proofs.Entries
import TipJar.Proofs.Executions
import TipJar.Proofs.Failures
import TipJar.Proofs.History
import TipJar.Proofs.Holds
import TipJar.Proofs.Journal
import TipJar.Proofs.Keys
import TipJar.Proofs.Lifecycle
import TipJar.Proofs.Lifetimes
import TipJar.Proofs.Limits
import TipJar.Proofs.Lines
import TipJar.Proofs.Lives
import TipJar.Proofs.Minimums
import TipJar.Proofs.Misreadings
import TipJar.Proofs.Nesting
import TipJar.Proofs.Orderly
import TipJar.Proofs.Orders
import TipJar.Proofs.Overdrafts
import TipJar.Proofs.Pages
import TipJar.Proofs.Passes
import TipJar.Proofs.Payability
import TipJar.Proofs.Payments
import TipJar.Proofs.Payouts
import TipJar.Proofs.Plays
import TipJar.Proofs.Precedence
import TipJar.Proofs.Programs
import TipJar.Proofs.Queries
import TipJar.Proofs.Queues
import TipJar.Proofs.Readings
import TipJar.Proofs.Recipients
import TipJar.Proofs.Releases
import TipJar.Proofs.Reports
import TipJar.Proofs.Rows
import TipJar.Proofs.Screening
import TipJar.Proofs.Screens
import TipJar.Proofs.Settling
import TipJar.Proofs.Spending
import TipJar.Proofs.Sweeps
import TipJar.Proofs.Switching
import TipJar.Proofs.Telling
import TipJar.Proofs.Timestamps
import TipJar.Proofs.Verdicts
import TipJar.Proofs.Work
import TipJar.Proofs.Written
import TipJar.Rehearsal.Labels
import TipJar.Rehearsal.Platform
import TipJar.Rehearsal.Play
import TipJar.Rehearsal.Session
import TipJar.Rehearsal.Shown
import TipJar.Rounding
import TipJar.Sha256
import TipJar.Supply
import TipJar.Text.Blank
import TipJar.Text.Capital
import TipJar.Text.Digit
import TipJar.Text.Escaped
import TipJar.Text.Hex
import TipJar.Text.Quoted
import TipJar.Text.Visible
import TipJar.Text.Whole
import TipJar.Time.Clock
import TipJar.Time.Date
import TipJar.Time.Duration
import TipJar.Time.Moment
import TipJar.Time.Written
import TipJar.Transfer.Kind
import TipJar.Transfer.Split
import TipJar.Uuid
import TipJar.Value.Basic
import TipJar.Value.Json
import TipJar.Value.Number
import TipJar.Value.Shown
import TipJar.Wiring
import TipJar.Yaml.Layout
import TipJar.Yaml.Literal
import TipJar.Yaml.Node
import TipJar.Yaml.Place
import TipJar.Yaml.Plain
import TipJar.Yaml.Quoted
import TipJar.Yaml.Reader
import TipJar.Yaml.Scalar
import TipJar.Yaml.Token
