import WatchCache.Cache.Basic
import WatchCache.Cache.Call
import WatchCache.Cache.Connector
import WatchCache.Cache.Remote
import WatchCache.Cli.Arguments
import WatchCache.Cli.Report
import WatchCache.Cli.Run
import WatchCache.Decimal.Binary64
import WatchCache.Decimal.Shortest
import WatchCache.Error
import WatchCache.Error.Json
import WatchCache.Hub.Basic
import WatchCache.Hub.Metrics
import WatchCache.Hub.Run
import WatchCache.Hub.Source
import WatchCache.Hub.Topic
import WatchCache.Json.Cursor
import WatchCache.Json.Numbers
import WatchCache.Json.Printer
import WatchCache.Json.Problem
import WatchCache.Json.Reader
import WatchCache.Json.Record
import WatchCache.Json.Strings
import WatchCache.Json.Value
import WatchCache.Kind
import WatchCache.Main
import WatchCache.Object.Basic
import WatchCache.Object.Field
import WatchCache.Object.Metadata
import WatchCache.Object.Timestamp
import WatchCache.ObjectKey.Read
import WatchCache.Options
import WatchCache.Proofs.Cache.Addresses
import WatchCache.Proofs.Cache.Awaiting
import WatchCache.Proofs.Cache.Bare
import WatchCache.Proofs.Cache.Cancelled
import WatchCache.Proofs.Cache.Canonical
import WatchCache.Proofs.Cache.Congruence
import WatchCache.Proofs.Cache.Connected
import WatchCache.Proofs.Cache.Counters
import WatchCache.Proofs.Cache.Dedicated
import WatchCache.Proofs.Cache.Deletion
import WatchCache.Proofs.Cache.Ending
import WatchCache.Proofs.Cache.Entries
import WatchCache.Proofs.Cache.Exclusion
import WatchCache.Proofs.Cache.Extends
import WatchCache.Proofs.Cache.Fetching
import WatchCache.Proofs.Cache.Gauges
import WatchCache.Proofs.Cache.History
import WatchCache.Proofs.Cache.Identifiers
import WatchCache.Proofs.Cache.IndexCalls
import WatchCache.Proofs.Cache.Indices
import WatchCache.Proofs.Cache.Informer
import WatchCache.Proofs.Cache.Links
import WatchCache.Proofs.Cache.Opening
import WatchCache.Proofs.Cache.Origin
import WatchCache.Proofs.Cache.Read
import WatchCache.Proofs.Cache.Recorded
import WatchCache.Proofs.Cache.Refusal
import WatchCache.Proofs.Cache.Registration
import WatchCache.Proofs.Cache.Rest
import WatchCache.Proofs.Cache.Run
import WatchCache.Proofs.Cache.Scopes
import WatchCache.Proofs.Cache.Served
import WatchCache.Proofs.Cache.Spared
import WatchCache.Proofs.Cache.Stores
import WatchCache.Proofs.Cache.SyncWait
import WatchCache.Proofs.Cache.Synced
import WatchCache.Proofs.Cache.Types
import WatchCache.Proofs.Cache.Union
import WatchCache.Proofs.Cache.Unseen
import WatchCache.Proofs.Cache.Use
import WatchCache.Proofs.Hub.Bare
import WatchCache.Proofs.Hub.Calls
import WatchCache.Proofs.Hub.Cancellation
import WatchCache.Proofs.Hub.Channel
import WatchCache.Proofs.Hub.Delivery
import WatchCache.Proofs.Hub.Extent
import WatchCache.Proofs.Hub.Ledger
import WatchCache.Proofs.Hub.Readings
import WatchCache.Proofs.Hub.Script
import WatchCache.Proofs.Hub.Service
import WatchCache.Proofs.Hub.Settling
import WatchCache.Proofs.Hub.Step
import WatchCache.Proofs.Hub.Stimulus
import WatchCache.Proofs.Hub.Subscription
import WatchCache.Proofs.Hub.Timetable
import WatchCache.Proofs.Hub.Watching
import WatchCache.Proofs.Hub.Wiring
import WatchCache.Proofs.Json.Members
import WatchCache.Proofs.Json.Reading
import WatchCache.Proofs.Kind
import WatchCache.Proofs.Kind.Key
import WatchCache.Proofs.Object.Field
import WatchCache.Proofs.Object.Unmanaged
import WatchCache.Proofs.ObjectKey
import WatchCache.Proofs.Selector.Balance
import WatchCache.Proofs.Selector.Cutting
import WatchCache.Proofs.Selector.Fields
import WatchCache.Proofs.Selector.Format
import WatchCache.Proofs.Selector.Reading
import WatchCache.Proofs.Selector.RoundTrip
import WatchCache.Proofs.Selector.Signs
import WatchCache.Proofs.Selector.Spacing
import WatchCache.Proofs.Selector.Tokens
import WatchCache.Proofs.Server.Discovery
import WatchCache.Proofs.Server.Group
import WatchCache.Proofs.Server.Heard
import WatchCache.Proofs.Server.Talk
import WatchCache.Proofs.Store.Agreement
import WatchCache.Proofs.Store.Bare
import WatchCache.Proofs.Store.Coverage
import WatchCache.Proofs.Store.History
import WatchCache.Proofs.Store.Metadata
import WatchCache.Proofs.Store.Replay
import WatchCache.Proofs.Store.Run
import WatchCache.Proofs.Store.Scan
import WatchCache.Proofs.Store.Select
import WatchCache.Proofs.Store.Told
import WatchCache.Proofs.Table
import WatchCache.Proofs.Text
import WatchCache.Schema.Basic
import WatchCache.Schema.Container
import WatchCache.Schema.Metadata
import WatchCache.Schema.Pod
import WatchCache.Schema.Read
import WatchCache.Schema.Resource
import WatchCache.Schema.Typed
import WatchCache.Schema.Volume
import WatchCache.Selector.Field
import WatchCache.Selector.Format
import WatchCache.Selector.Label
import WatchCache.Selector.Requirement
import WatchCache.Server.Cluster
import WatchCache.Server.Discovery
import WatchCache.Server.Fetch
import WatchCache.Server.Request
import WatchCache.Server.Response
import WatchCache.Server.Scheme
import WatchCache.Server.Talk
import WatchCache.Server.Watch
import WatchCache.Store.Basic
import WatchCache.Store.Indexer
import WatchCache.Table
import WatchCache.Text.Base64
import WatchCache.Text.Basic
import WatchCache.Text.Quoted
