import CallExchange.Codec.Payload
import CallExchange.Floor
import CallExchange.Proofs.Exchange.Opening
import CallExchange.Session.Report
import CallExchange.Text.Blank
import CallExchange.Proofs.Lookup
import CallExchange.Proofs.Pending
import CallExchange.Proofs.Exchange.Views
import CallExchange.Proofs.Exchange.Consistent
import CallExchange.Proofs.Exchange.Closing
import CallExchange.Proofs.Exchange.Operations
import CallExchange.Proofs.Exchange.Frames
import CallExchange.Proofs.Exchange.Runs
import CallExchange.Proofs.Exchange.Changes
import CallExchange.Proofs.Floor.Handles
import CallExchange.Proofs.Floor.Effect
import CallExchange.Proofs.Floor.Handled
import CallExchange.Proofs.Floor.Turns
import CallExchange.Proofs.Floor.Sound
import CallExchange.Proofs.Representation
import CallExchange.Proofs.Floor.Gives
import CallExchange.Proofs.Routing
import CallExchange.Proofs.Floor.Watch
import CallExchange.Proofs.Resolution
import CallExchange.Proofs.Contents
import CallExchange.Proofs.StaleHandles
import CallExchange.Proofs.Floor.Scripts
import CallExchange.Proofs.Sessions
import CallExchange.Proofs.Exchange.Signals
import CallExchange.Proofs.Floor.Signals
import CallExchange.Proofs.Wakeups
import CallExchange.Proofs.Teardown
import CallExchange.Proofs.Lifetime
import CallExchange.Proofs.SyncCalls
import CallExchange.Proofs.Attribution
import CallExchange.Proofs.Drains
import CallExchange.Proofs.Capacity
import CallExchange.Proofs.StreamEnds
import CallExchange.Proofs.Commuting
import CallExchange.Proofs.Notifications
import CallExchange.Proofs.Floor.Counting
import CallExchange.Proofs.ReverseCalls
import CallExchange.Proofs.SyncBuffers
import CallExchange.Proofs.AbortedEntries
import CallExchange.Proofs.Floor.Broadcasts
import CallExchange.Proofs.Floor.BroadcastLedger
import CallExchange.Proofs.OpenPorts
import CallExchange.Proofs.Invocations
import CallExchange.Proofs.BufferFormat
import CallExchange.Proofs.CallbackTokens
import CallExchange.Proofs.Histories
import CallExchange.Proofs.Exchange.Settlements
import CallExchange.Proofs.Floor.Settlements
import CallExchange.Proofs.Floor.Tickets
import CallExchange.Proofs.LastPollers
import CallExchange.Proofs.NumberedNames
import CallExchange.Proofs.InboxHistories
import CallExchange.Proofs.Generations
import CallExchange.Proofs.AgreeingReads
import CallExchange.Proofs.DroppedPosts
import CallExchange.Proofs.EnvironmentSettings
