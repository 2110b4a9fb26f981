import LedgerWatch.Account
import LedgerWatch.Account.Decode
import LedgerWatch.Address
import LedgerWatch.Address.Derived
import LedgerWatch.Attach.AccountMap
import LedgerWatch.Attach.Resolve
import LedgerWatch.Bytes
import LedgerWatch.Client
import LedgerWatch.Config
import LedgerWatch.Curve.Edwards25519
import LedgerWatch.Digest.Sha256
import LedgerWatch.Error
import LedgerWatch.Json
import LedgerWatch.Json.Read
import LedgerWatch.Json.Write
import LedgerWatch.Layout
import LedgerWatch.Ledger
import LedgerWatch.Name
import LedgerWatch.Oracle
import LedgerWatch.Rehearsal
import LedgerWatch.Rehearsal.Dial
import LedgerWatch.Rehearsal.Feed
import LedgerWatch.Rehearsal.Ledger
import LedgerWatch.Rehearsal.Run
import LedgerWatch.Rpc.Account
import LedgerWatch.Rpc.Client
import LedgerWatch.Rpc.Reader
import LedgerWatch.Store
import LedgerWatch.Store.Fetch
import LedgerWatch.Store.Slots
import LedgerWatch.Table
import LedgerWatch.Text.Base58
import LedgerWatch.Text.Base64
import LedgerWatch.Text.Hex
import LedgerWatch.Text.Url
import LedgerWatch.Text.Utf8
import LedgerWatch.Watch
import LedgerWatch.Watch.LogStream
import LedgerWatch.Watch.Polling
import LedgerWatch.Watch.Push
import LedgerWatch.Watch.Supervisor
import LedgerWatch.Watch.Tracker
import LedgerWatch.Proofs.Account.Codec
import LedgerWatch.Proofs.Supervisor.Gates
import LedgerWatch.Proofs.Attach.Needs
import LedgerWatch.Proofs.Supervisor.Closings
import LedgerWatch.Proofs.Supervisor.Delivery
import LedgerWatch.Proofs.Store.Load
import LedgerWatch.Proofs.Supervisor.Release
import LedgerWatch.Proofs.Supervisor.LifeCycle
import LedgerWatch.Proofs.Supervisor.Reasons
import LedgerWatch.Proofs.Supervisor.Subscribers
import LedgerWatch.Proofs.Store.LastWriter
import LedgerWatch.Proofs.Attach.Loaded
import LedgerWatch.Proofs.Supervisor.Contented
import LedgerWatch.Proofs.Watch.Changes
import LedgerWatch.Proofs.Watch.Mirror
import LedgerWatch.Proofs.Watch.Streams
import LedgerWatch.Proofs.Account.Discriminators
import LedgerWatch.Proofs.Address.Preimages
import LedgerWatch.Proofs.Oracle.Scaling
import LedgerWatch.Proofs.Text.Base58
import LedgerWatch.Proofs.Rpc.Client
import LedgerWatch.Proofs.Rpc.Stamps
import LedgerWatch.Proofs.Oracle.Overflow
import LedgerWatch.Proofs.Watch.Rereads
import LedgerWatch.Proofs.Store.OneKey
import LedgerWatch.Proofs.Attach.Merge
import LedgerWatch.Proofs.Attach.Trace
import LedgerWatch.Proofs.Store.Noted
import LedgerWatch.Proofs.Attach.Pruning
import LedgerWatch.Proofs.Attach.Submissions
import LedgerWatch.Proofs.Supervisor.Arrivals
import LedgerWatch.Proofs.Supervisor.Attempts
import LedgerWatch.Proofs.Rpc.Refusals
import LedgerWatch.Proofs.Account.Windows
import LedgerWatch.Proofs.Store.Queries
import LedgerWatch.Proofs.Store.AllOrNothing
import LedgerWatch.Proofs.Store.OneByOne
import LedgerWatch.Proofs.Store.LoadFailures
import LedgerWatch.Proofs.History
import LedgerWatch.Proofs.Store.Fresh
import LedgerWatch.Proofs.Store.NotedHistory
import LedgerWatch.Proofs.Store.NotedMeanwhile
import LedgerWatch.Proofs.Watch.Stops
import LedgerWatch.Proofs.Watch.GivingBack
import LedgerWatch.Proofs.Watch.Silence
import LedgerWatch.Proofs.Watch.Transcript
import LedgerWatch.Proofs.Watch.Dialogue
import LedgerWatch.Proofs.Watch.Subscriptions
import LedgerWatch.Proofs.Watch.Forwarding
import LedgerWatch.Proofs.Watch.News
import LedgerWatch.Proofs.Watch.Recount
import LedgerWatch.Proofs.Json.Grammar
import LedgerWatch.Proofs.Json.Written
import LedgerWatch.Proofs.Config.RoundTrip
import LedgerWatch.Proofs.Attach.Positions
import LedgerWatch.Proofs.Text.Utf8
import LedgerWatch.Proofs.Name
import LedgerWatch.Proofs.Watch.Emissions
