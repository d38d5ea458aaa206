import LatteCode.Lib.Table
import LatteCode.Lib.Outcome
import LatteCode.Lib.Run
import LatteCode.Lib.Log
import LatteCode.Lib.FencedLock
import LatteCode.Lib.Broadcast
import LatteCode.Lib.Rewriting
import LatteCode.Lib.Replacing
import LatteCode.Lib.Regex
import LatteCode.Lib.Replaced
import LatteCode.Lib.Checked
import LatteCode.Lib.Escapes
import LatteCode.Lib.Quoting
import LatteCode.Lib.Occurrences
import LatteCode.Lib.Paging
import LatteCode.Lib.Suffix
import LatteCode.Lib.Handover
import LatteCode.Lib.Delimited
import LatteCode.Lib.Reservation
import LatteCode.Core.Ids
import LatteCode.Core.Json
import LatteCode.Core.Protocol
import LatteCode.Core.State
import LatteCode.Core.Turns
import LatteCode.Core.Session
import LatteCode.Storage.Schema
import LatteCode.Storage.Snapshot
import LatteCode.Storage.Request
import LatteCode.Storage.Rows
import LatteCode.Storage.Accept
import LatteCode.Storage.Recovery
import LatteCode.Storage.Commit
import LatteCode.Storage.Session
import LatteCode.Storage.System
import LatteCode.Storage.Shape
import LatteCode.Storage.Written
import LatteCode.Storage.Interrupted
import LatteCode.Storage.Committed
import LatteCode.Storage.Accepted
import LatteCode.Storage.Change
import LatteCode.Storage.Reach
import LatteCode.Storage.Graph
import LatteCode.Storage.Actives
import LatteCode.Storage.Silent
import LatteCode.Storage.TurnLog
import LatteCode.Storage.SessionLog
import LatteCode.Storage.Effects
import LatteCode.Storage.Authority
import LatteCode.Storage.Abandoned
import LatteCode.Storage.Fencing
import LatteCode.Storage.Identity
import LatteCode.Storage.Digests
import LatteCode.Storage.Commands
import LatteCode.Storage.Roots
import LatteCode.Storage.Ordinals
import LatteCode.Storage.Reconcile
import LatteCode.Storage.Acknowledge
import LatteCode.Storage.ToolRounds
import LatteCode.Storage.Legacy
import LatteCode.Storage.Reimport
import LatteCode.Storage.Outbox
import LatteCode.Lib.Grouping
import LatteCode.Lib.Interleaving
import LatteCode.Lib.Lines
import LatteCode.Core.Encode
import LatteCode.Core.Text
import LatteCode.Core.Redaction
import LatteCode.Core.Secrets
import LatteCode.Core.Serialized
import LatteCode.Core.Matches
import LatteCode.Core.Repeated
import LatteCode.Core.FixedPoint
import LatteCode.Core.Hidden
import LatteCode.Headless.Provider
import LatteCode.Headless.ProviderIds
import LatteCode.Headless.Verification
import LatteCode.Headless.Response
import LatteCode.Headless.History
import LatteCode.Headless.Request
import LatteCode.Headless.Profile
import LatteCode.Headless.Frames
import LatteCode.Headless.Reminders
import LatteCode.Headless.Fit
import LatteCode.Headless.Compaction
import LatteCode.Headless.Outline
import LatteCode.Headless.Summary
import LatteCode.Headless.Window
import LatteCode.Headless.Elision
import LatteCode.Headless.SummarySource
import LatteCode.Headless.Conversation
import LatteCode.Headless.Batch
import LatteCode.Headless.Observation
import LatteCode.Headless.Pause
import LatteCode.Headless.Keys
import LatteCode.Headless.Ledger
import LatteCode.Headless.Rounds
import LatteCode.Headless.Compactions
import LatteCode.Headless.Overflow
import LatteCode.Headless.Retained
import LatteCode.Headless.Collisions
import LatteCode.Headless.RoundBound
import LatteCode.Headless.Sse
import LatteCode.Headless.Streaming
import LatteCode.Server.Http
import LatteCode.Server.Handlers
import LatteCode.Server.Idempotency
import LatteCode.Server.Agreement
import LatteCode.Server.Feed
import LatteCode.Server.Workspaces
import LatteCode.Server.Routing
import LatteCode.Config.Layers
import LatteCode.Config.Credentials
import LatteCode.Server.Trust
import LatteCode.Client.Observe
import LatteCode.Client.Listing
import LatteCode.Client.Catalog
import LatteCode.Client.Sse
import LatteCode.Client.Reports
import LatteCode.Client.Interrupt
import LatteCode.Client.Watch
import LatteCode.Lib.FileTree
import LatteCode.Engine.Workspace
import LatteCode.Engine.Tools
import LatteCode.Engine.Conversation
import LatteCode.Engine.Torn
import LatteCode.Engine.Drain
import LatteCode.Tui.Command
import LatteCode.Tui.Model
import LatteCode.Tui.Projection
import LatteCode.Tui.Keys
import LatteCode.Tui.Reduce
import LatteCode.Tui.Moves
import LatteCode.Tui.Settled
import LatteCode.Tui.Reconciliation
import LatteCode.Tui.Layout
import LatteCode.Tui.Permission
import LatteCode.Tui.Buffers
import LatteCode.Tui.Prompts
import LatteCode.Tui.Queued
import LatteCode.Tui.Switching
import LatteCode.Tui.Loop
import LatteCode.Tui.Authority
import LatteCode.Engine.Denied
import LatteCode.Engine.Steps
import LatteCode.Engine.Overwrites
import LatteCode.Engine.Edits
import LatteCode.Lib.Inodes
import LatteCode.Engine.Handles
import LatteCode.Engine.Readable
import LatteCode.Engine.Pages
