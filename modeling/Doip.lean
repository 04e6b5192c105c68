import Doip.Bench.Program
import Doip.Bench.Rehearsal
import Doip.Main
import Doip.Security.History
import Doip.Proofs.Link.Act
import Doip.Proofs.Link.Settlement
import Doip.Proofs.Link.ResponseOrder
import Doip.Proofs.Link.Ledger
import Doip.Proofs.Link.Accounts
import Doip.Proofs.Link.PendingMemory
import Doip.Proofs.Link.PendingChain
import Doip.Proofs.Link.Receipts
import Doip.Proofs.Link.Binding
import Doip.Proofs.Frame.Reassembly
import Doip.Proofs.Session.Segmentation
import Doip.Proofs.Link.Collecting
import Doip.Proofs.Session.Passing
import Doip.Proofs.Session.Collecting
import Doip.Proofs.Link.Stopping
import Doip.Proofs.Session.Settlement
import Doip.Proofs.Session.Stopping
import Doip.Proofs.Session.Failures
import Doip.Proofs.Frame.Stream
import Doip.Proofs.Link.Output
import Doip.Proofs.Session.Output
import Doip.Proofs.Bench.View
import Doip.Proofs.Bench.Shape
import Doip.Proofs.Bench.Script
import Doip.Proofs.Bench.Stage
import Doip.Proofs.Bench.Progress
import Doip.Proofs.Bench.Dialogue
import Doip.Proofs.Frame.Decoding
import Doip.Proofs.Frame.Messages
import Doip.Proofs.Message.Layout
import Doip.Proofs.Message.Grammar
import Doip.Proofs.Message.RoundTrip
import Doip.Proofs.Engine.Expiry
import Doip.Proofs.Security.Registry
import Doip.Proofs.Security.History
import Doip.Proofs.Link.Deadlines
import Doip.Proofs.Session.Activation
import Doip.Proofs.Link.Reading
import Doip.Proofs.Link.Buffers
import Doip.Proofs.Link.ForeignTraffic
import Doip.Proofs.Link.Freshness
import Doip.Proofs.Security.Rearrangement
import Doip.Proofs.Text.Trimming
import Doip.Proofs.Cli.Prompt
import Doip.Proofs.Link.Concerns
import Doip.Proofs.Link.Refusals
import Doip.Proofs.Session.Refusals
import Doip.Proofs.Time.Seconds
import Doip.Proofs.Text.Spelling
import Doip.Proofs.Text.Names
import Doip.Proofs.Cli.Values
import Doip.Proofs.Security.Transform
import Doip.Proofs.Toml.Integer
import Doip.Proofs.Toml.Lines
import Doip.Proofs.Settings.Document
