import R60V.Lib.Runs
import R60V.Lib.Overlay
import R60V.Lib.Pieces
import R60V.Lib.Footprint
import R60V.Lib.Writes
import R60V.Lib.Spacing
import R60V.Lib.Patterns
import R60V.Lib.Retries
import R60V.Bridge.Framing
import R60V.Bridge.Grammar
import R60V.Bridge.Corruption
import R60V.Bridge.Client
import R60V.Bridge.Exchange
import R60V.Bridge.Reconnect
import R60V.Bridge.PollCycle
import R60V.Bridge.Conversation
import R60V.Bridge.Emulator
import R60V.Bridge.Requests
import R60V.Bridge.Vocabulary
import R60V.Bridge.Store
import R60V.Bridge.Cache
import R60V.Bridge.Easing
import R60V.Bridge.Wedge
import R60V.Bridge.Cooldown
import R60V.Bridge.Intents
import R60V.Bridge.Provenance
import R60V.Bridge.Commands
import R60V.Bridge.PushServer
import R60V.Bridge.Frontend
import R60V.Bridge.Governor
import R60V.Bridge.Link
import R60V.Bridge.Interruption
import R60V.Bridge.Faults
import R60V.Bridge.Swallow
import R60V.Bridge.Upstream
import R60V.Bridge.Lifecycle
import R60V.Bridge.Peer
import R60V.Bridge.Memory
import R60V.Bridge.Serving
import R60V.Bridge.Linearisation
import R60V.Bridge.Admission
import R60V.Bridge.Mqtt
import R60V.Bridge.Streak
import R60V.Bridge.PushOrder
import R60V.Bridge.Cadence
import R60V.Bridge.World
import R60V.Bridge.Ledger
import R60V.Bridge.Atomic
import R60V.Bridge.Pacing
import R60V.Bridge.Delivery
import R60V.Integration.Protocol
import R60V.Integration.Coordinator
import R60V.Integration.PushClient
import R60V.Integration.Polling
import R60V.Integration.Parity
import R60V.Integration.AnyPeer
import R60V.Integration.Holders
import R60V.Integration.TimerSwitch
import R60V.Integration.Stream
import R60V.Integration.Profiles
import R60V.Integration.Entities
import R60V.Integration.Registry
import R60V.Integration.Subscription
import R60V.Integration.PushPath
import R60V.Integration.Display
import R60V.Integration.Discovery
import R60V.Integration.Surfaces
