import Sentinel.General.RefGate
import Sentinel.Rundown.Threads
import Sentinel.Rundown.Paired
import Sentinel.Rundown.Misuse
import Sentinel.Runtime.Bfe
import Sentinel.Runtime.BfeHolders
import Sentinel.General.Visit
import Sentinel.Status
import Sentinel.Wfp.Objects
import Sentinel.Wfp.Manager
import Sentinel.Wfp.Tracking
import Sentinel.Wfp.Leaks
import Sentinel.General.Keyed
import Sentinel.General.Ordered
import Sentinel.Rules.Order
import Sentinel.Rules.Engine
import Sentinel.Rules.Validate
import Sentinel.Store.Operations
import Sentinel.Store.WellFormed
import Sentinel.Store.Abstract
import Sentinel.Store.Refinement
import Sentinel.Store.Policy
import Sentinel.Store.Concurrent
import Sentinel.Store.Reclaim
import Sentinel.Store.Contents
import Sentinel.Store.Versions
import Sentinel.Rules.Buckets
import Sentinel.Store.Buckets
import Sentinel.Store.Reintroduced
import Sentinel.General.InFlight
import Sentinel.Telemetry.Queue
import Sentinel.Telemetry.Delivery
import Sentinel.Telemetry.Widths
import Sentinel.Telemetry.Threads
import Sentinel.General.RefCount
import Sentinel.Packet.FlowContext
import Sentinel.Packet.FlowOrphans
import Sentinel.Control.Protocol
import Sentinel.Control.Wire
import Sentinel.Control.Replace
import Sentinel.Control.Dispatch
import Sentinel.Control.Disclosure
import Sentinel.Control.Enum
import Sentinel.General.TokenBucket
import Sentinel.Rules.Refill
import Sentinel.Rules.RateBound
import Sentinel.Store.BurstCap
import Sentinel.Packet.Classify
import Sentinel.Control.AppIdentity
import Sentinel.Runtime.Unload
import Sentinel.Runtime.Driver
import Sentinel.Runtime.Recorded
import Sentinel.Runtime.Deferred
import Sentinel.Control.Consumer
import Sentinel.Control.Served
import Sentinel.Control.Unprivileged
import Sentinel.Control.RoundTrip
import Sentinel.Control.Queries
import Sentinel.General.Bits
import Sentinel.Packet.AddrMatch
import Sentinel.Packet.LiveRules
import Sentinel.Packet.Verdict
import Sentinel.Control.Bounds
import Sentinel.Control.Aliasing
import Sentinel.Control.Retries
import Sentinel.Rules.Stats
import Sentinel.General.Slots
import Sentinel.Rules.BucketMap
import Sentinel.General.Text
import Sentinel.Packet.FormatAddr
import Sentinel.General.Ring
import Sentinel.Telemetry.Ring
import Sentinel.Telemetry.Residue
import Sentinel.Packet.InjectionSafety
import Sentinel.General.Fair
import Sentinel.Control.ConsumerLive
import Sentinel.Telemetry.QueueLive
import Sentinel.Store.Linearize
import Sentinel.Runtime.FenceLive
import Sentinel.Rules.Saturated
import Sentinel.Store.Bounded
import Sentinel.Runtime.Alone
import Sentinel.Telemetry.Pipeline
import Sentinel.Control.Sequential
import Sentinel.Runtime.Resources
