import Admission.Amount
import Admission.Audit
import Admission.Calendar
import Admission.Capability
import Admission.Command
import Admission.CommandLine.Basic
import Admission.CommandLine.Flag
import Admission.CommandLine.Help
import Admission.CommandLine.Scan
import Admission.Config.Basic
import Admission.Config.Codec
import Admission.Config.Load
import Admission.Config.Validate
import Admission.Controller
import Admission.Decimal.Binary
import Admission.Decimal.Fixed
import Admission.Decimal.Reading
import Admission.Decimal.Rounding
import Admission.Decimal.Shortest
import Admission.Dict
import Admission.Double
import Admission.Extremum
import Admission.Identity
import Admission.Json.Basic
import Admission.Json.Decode
import Admission.Json.Number
import Admission.Json.Printer
import Admission.Json.Reader
import Admission.Json.Token
import Admission.Ledger.Basic
import Admission.Ledger.Row
import Admission.Ledger.Snapshot
import Admission.Ledger.Store
import Admission.Level
import Admission.Machine
import Admission.Main
import Admission.Path
import Admission.Pattern
import Admission.Period
import Admission.Permissions
import Admission.Price
import Admission.Rate.Limiter
import Admission.Rate.Window
import Admission.Refusal
import Admission.Request
import Admission.ReservationId
import Admission.Resolve
import Admission.Router.Plan
import Admission.Router.Route
import Admission.Sandbox
import Admission.Selection
import Admission.Server.Basic
import Admission.Server.Message
import Admission.Server.Reply
import Admission.Service
import Admission.Shards
import Admission.Strategy
import Admission.Terminal
import Admission.Text.Blank
import Admission.Text.CaseTable
import Admission.Text.HiddenTable
import Admission.Text.Lowercase
import Admission.Text.Pieces
import Admission.Text.Quoted
import Admission.Text.Reader
import Admission.Tier
import Admission.Timestamp
import Admission.Toml.Document
import Admission.Toml.Printer
import Admission.Toml.Quoted
import Admission.Toml.Scalar
import Admission.Toml.Table
import Admission.Tool
import Admission.Proofs.Config
import Admission.Proofs.Controller.Budget
import Admission.Proofs.Controller.Log
import Admission.Proofs.Controller.Step
import Admission.Proofs.Dict
import Admission.Proofs.Double
import Admission.Proofs.Isolation
import Admission.Proofs.Json.Fields
import Admission.Proofs.Ledger.Agreement
import Admission.Proofs.Ledger.Audit
import Admission.Proofs.Ledger.Bystander
import Admission.Proofs.Ledger.Call
import Admission.Proofs.Ledger.Caps
import Admission.Proofs.Ledger.Conservation
import Admission.Proofs.Ledger.Invariant
import Admission.Proofs.Ledger.OneDay
import Admission.Proofs.Ledger.Reachable
import Admission.Proofs.Ledger.Rejection
import Admission.Proofs.Ledger.Settling
import Admission.Proofs.Ledger.Step
import Admission.Proofs.Price
import Admission.Proofs.Rate.Exact
import Admission.Proofs.Rate.Limiter
import Admission.Proofs.Resolve.Ceiling
import Admission.Proofs.Resolve.Overlay
import Admission.Proofs.Resolve.Untrusted
import Admission.Proofs.Resolve.Within
import Admission.Proofs.Router.Admitted
import Admission.Proofs.Router.Cases
import Admission.Proofs.Router.Plan
import Admission.Proofs.Router.Reserved
import Admission.Proofs.Server.Message
import Admission.Proofs.Server.Untrusted
import Admission.Proofs.Shards
import Admission.Proofs.Ledger.Pinning
import Admission.Proofs.Ledger.Bounds
import Admission.Proofs.Double.Addition
import Admission.Proofs.Shards.Entries
import Admission.Proofs.Ledger.Absorbing
import Admission.Proofs.Ledger.Room
import Admission.Proofs.Ledger.Balances
import Admission.Proofs.Ledger.Restart
import Admission.Proofs.Ledger.Join
import Admission.Proofs.Ledger.Undoing
import Admission.Proofs.Router.RateLimited
import Admission.Proofs.Shards.Removal
import Admission.Proofs.Shards.PlainMap
import Admission.Proofs.Period
import Admission.Proofs.Ledger.Quiet
import Admission.Proofs.Ledger.Saved
import Admission.Proofs.Rate.Recorded
import Admission.Proofs.Rate.Timely
import Admission.Proofs.Rate.Buckets
import Admission.Proofs.Rate.Peek
import Admission.Proofs.Router.Accounting
import Admission.Proofs.Router.Planned
import Admission.Proofs.Router.FirstFeasible
import Admission.Proofs.Controller.Trail
import Admission.Proofs.Controller.DenyAll
import Admission.Proofs.Controller.Configured
import Admission.Proofs.Double.Product
import Admission.Proofs.Double.Finite
import Admission.Proofs.Config.Amounts
import Admission.Proofs.Rate.Counter
import Admission.Proofs.Rate.Counted
import Admission.Proofs.Rate.Waiting
import Admission.Proofs.Json.OneLine
import Admission.Proofs.Server.Stream
import Admission.Proofs.Server.Session
import Admission.Proofs.Double.Magnitude
import Admission.Proofs.Rate.Finding
import Admission.Proofs.Rate.Unnoticed
import Admission.Proofs.Rate.Reshaped
import Admission.Proofs.Rate.Carried
import Admission.Proofs.Shards.LastUse
import Admission.Proofs.Shards.Victim
import Admission.Proofs.Ledger.Dropped
import Admission.Proofs.Shards.Growth
import Admission.Proofs.Resolve.Layered
import Admission.Proofs.Resolve.Reported
import Admission.Proofs.Resolve.Kept
import Admission.Proofs.Calendar
import Admission.Proofs.Price.Lookup
import Admission.Proofs.Config.Overrides
import Admission.Proofs.Decimal
import Admission.Proofs.Json.Tokens
import Admission.Proofs.Json.ReadBack
import Admission.Proofs.Json.Decoded
import Admission.Proofs.Json.Tidy
import Admission.Proofs.Timestamp
import Admission.Proofs.Ledger.Written
import Admission.Proofs.Path
import Admission.Proofs.Sandbox
import Admission.Proofs.Sandbox.Tree
import Admission.Proofs.Ledger.Atomic
import Admission.Proofs.Capability
import Admission.Proofs.Selection
