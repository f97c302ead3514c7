import CanTransport.Text.Digits
import CanTransport.Failure
import CanTransport.Error
import CanTransport.Text.Invisible
import CanTransport.Text.Quoted
import CanTransport.Frame.Basic
import CanTransport.Frame.Wire
import CanTransport.Frame.Candump
import CanTransport.Value.Basic
import CanTransport.Frame.Value
import CanTransport.Json.Reader
import CanTransport.Json.Printer
import CanTransport.Config.Basic
import CanTransport.Config.Value
import CanTransport.Text.Escaped
import CanTransport.Env.Value
import CanTransport.Env.Variables
import CanTransport.Toml.Scalar
import CanTransport.Toml.Table
import CanTransport.Toml.Reader
import CanTransport.Yaml.Scalar
import CanTransport.Yaml.Flow
import CanTransport.Yaml.Reader
import CanTransport.Config.Load
import CanTransport.Reception.State
import CanTransport.Reception.Stats
import CanTransport.Reception.Basic
import CanTransport.Kernel.Call
import CanTransport.Kernel.Memory
import CanTransport.Kernel.Basic
import CanTransport.Ring.Geometry
import CanTransport.Ring.Slot
import CanTransport.Ring.Sweep
import CanTransport.Kernel.Script
import CanTransport.CanSocket
import CanTransport.Ring.Echoes
import CanTransport.Virtual.Hub
import CanTransport.Bus.Transport
import CanTransport.Bus.Resource
import CanTransport.Bus.Basic
import CanTransport.Bus.Lifetime
import CanTransport.Registry
import CanTransport.Bus.Receiver
import CanTransport.Bus.Operation
import CanTransport.Bus.Run
import CanTransport.Session
import CanTransport.Probe.Arguments
import CanTransport.Probe.Dump
import CanTransport.Probe.Output
import CanTransport.Yaml.Printer
import CanTransport.Probe.Run
import CanTransport.Main
import CanTransport.Proofs.Memory
import CanTransport.Proofs.Frame.Codec
import CanTransport.Proofs.Text.Digits
import CanTransport.Proofs.Frame.Candump
import CanTransport.Proofs.Ring.Layout
import CanTransport.Proofs.Ring.Tiling
import CanTransport.Proofs.Ring.Contents
import CanTransport.Proofs.Ring.Handover
import CanTransport.Proofs.Kernel.Outcome
import CanTransport.Proofs.Kernel.Regions
import CanTransport.Proofs.Kernel.Inventory
import CanTransport.Proofs.Kernel.Acquisition
import CanTransport.Proofs.Bus.Actions
import CanTransport.Proofs.Bus.Turns
import CanTransport.Proofs.Bus.Users
import CanTransport.Proofs.Bus.Observed
import CanTransport.Proofs.Bus.Reading
import CanTransport.Proofs.Bus.Making
import CanTransport.Proofs.Bus.RingOrder
import CanTransport.Proofs.Kernel.Queues
import CanTransport.Proofs.Reception.Through
import CanTransport.Proofs.Bus.Reads
import CanTransport.Proofs.Bus.Intake
import CanTransport.Proofs.Bus.Withdrawal
import CanTransport.Proofs.Bus.Agreement
import CanTransport.Proofs.Bus.Sends
import CanTransport.Proofs.Bus.Exchange
import CanTransport.Proofs.Bus.Orders
import CanTransport.Proofs.Bus.EchoFilter
import CanTransport.Proofs.Bus.Records
import CanTransport.Proofs.Bus.EchoRace
import CanTransport.Proofs.Bus.Tasks
import CanTransport.Proofs.Bus.Stock
import CanTransport.Proofs.Bus.Plans
import CanTransport.Proofs.Bus.Callers
import CanTransport.Proofs.Bus.Lifecycle
import CanTransport.Proofs.Bus.Returns
import CanTransport.Proofs.Bus.Admission
import CanTransport.Proofs.Bus.Connectedness
import CanTransport.Proofs.Bus.Supervision
import CanTransport.Proofs.Bus.Flag
import CanTransport.Proofs.Bus.Hands
import CanTransport.Proofs.Bus.Holdings
import CanTransport.Proofs.Bus.Accounts
import CanTransport.Proofs.Bus.Ownership
import CanTransport.Proofs.Bus.Failures
import CanTransport.Proofs.Virtual.Hub
import CanTransport.Proofs.Virtual.Log
import CanTransport.Proofs.Virtual.Listening
import CanTransport.Proofs.Virtual.Beside
import CanTransport.Proofs.Virtual.Channel
import CanTransport.Proofs.Virtual.Peers
import CanTransport.Proofs.Virtual.Sending
import CanTransport.Proofs.Virtual.Delivery
import CanTransport.Proofs.Ring.Matching
import CanTransport.Proofs.Bus.Watching
import CanTransport.Proofs.Bus.History
import CanTransport.Proofs.Ring.Fates
import CanTransport.Proofs.Bus.Beats
import CanTransport.Proofs.Bus.Supplies
import CanTransport.Proofs.Bus.Ledger
import CanTransport.Proofs.Bus.Books
import CanTransport.Proofs.Bus.Courses
import CanTransport.Proofs.Bus.Counters
import CanTransport.Proofs.Bus.Outbox
import CanTransport.Proofs.Bus.Dispatch
import CanTransport.Proofs.Virtual.Fleet
import CanTransport.Proofs.Virtual.Names
import CanTransport.Proofs.Virtual.Directory
import CanTransport.Proofs.Bus.Standing
import CanTransport.Proofs.Bus.Strides
import CanTransport.Proofs.Bus.Stopping
import CanTransport.Proofs.Bus.EchoLifetime
import CanTransport.Proofs.Ring.Sizes
import CanTransport.Proofs.Bus.Backlog
import CanTransport.Proofs.Bus.Undoing
import CanTransport.Proofs.Bus.Takings
import CanTransport.Proofs.Bus.Audience
import CanTransport.Proofs.Bus.Silence
import CanTransport.Proofs.Config.Trees
import CanTransport.Proofs.Json.Keys
import CanTransport.Proofs.Toml.Keys
import CanTransport.Proofs.Yaml.Keys
import CanTransport.Proofs.Config.Settings
import CanTransport.Proofs.Config.Variables
import CanTransport.Proofs.Config.Layers
import CanTransport.Proofs.Ring.Header
import CanTransport.Proofs.Bus.Taps
import CanTransport.Proofs.Text.Numerals
import CanTransport.Proofs.Frame.Notation
import CanTransport.Proofs.Ring.Sweeping
import CanTransport.Proofs.Bus.Sweeping
import CanTransport.Proofs.Bus.Solo
import CanTransport.Proofs.Config.Printing
import CanTransport.Proofs.Probe.Dumping
import CanTransport.Proofs.Probe.Sessions
import CanTransport.Proofs.Probe.Running
import CanTransport.Proofs.Virtual.Overruns
import CanTransport.Proofs.Frame.Spaces
import CanTransport.Proofs.Text.Order
import CanTransport.Proofs.Registry
import CanTransport.Proofs.Json.Pieces
import CanTransport.Proofs.Json.Printing
import CanTransport.Proofs.Frame.Fields
import CanTransport.Proofs.Frame.Origins
import CanTransport.Proofs.Config.Parts
import CanTransport.Proofs.Serialized
import CanTransport.Proofs.Bus.Waiting
import CanTransport.Proofs.Probe.Errands
import CanTransport.Proofs.Probe.Courier
import CanTransport.Proofs.Probe.Finishing
import CanTransport.Proofs.Probe.Repeating
