import MumbleRuntime.Library.OrderedTable
import MumbleRuntime.Scope
import MumbleRuntime.Ids
import MumbleRuntime.View
import MumbleRuntime.Plan
import MumbleRuntime.Compose
import MumbleRuntime.Emit
import MumbleRuntime.Client
import MumbleRuntime.Queue
import MumbleRuntime.Routing
import MumbleRuntime.Build
import MumbleRuntime.Shard
import MumbleRuntime.Turn
import MumbleRuntime.Library.CellWrites
import MumbleRuntime.PlanCell
import MumbleRuntime.Splice
import MumbleRuntime.Convergence
import MumbleRuntime.Closure
import MumbleRuntime.Composed
import MumbleRuntime.Library.Transition
import MumbleRuntime.Runtime
import MumbleRuntime.Commands
import MumbleRuntime.Allocation
import MumbleRuntime.Steps
import MumbleRuntime.Audio
import MumbleRuntime.Reception
import MumbleRuntime.Delivery
import MumbleRuntime.Fate
import MumbleRuntime.Base
import MumbleRuntime.Trail
import MumbleRuntime.Voice
import MumbleRuntime.Naming
import MumbleRuntime.Ownership
import MumbleRuntime.Fencing
import MumbleRuntime.SpaceLogic
import MumbleRuntime.SpaceTurn
import MumbleRuntime.Gateway
import MumbleRuntime.Residence
import MumbleRuntime.Placement
import MumbleRuntime.Settling
import MumbleRuntime.Agreement
import MumbleRuntime.Retention
import MumbleRuntime.MoveSafety
import MumbleRuntime.Bindings
import MumbleRuntime.Sessions
import MumbleRuntime.SpacesState
import MumbleRuntime.ActorMessages
import MumbleRuntime.ControllerActor
import MumbleRuntime.Coherence
import MumbleRuntime.Acts
import MumbleRuntime.Handlers
import MumbleRuntime.ActorTurns
import MumbleRuntime.Homes
import MumbleRuntime.Departures
import MumbleRuntime.Standing
import MumbleRuntime.Rendering
import MumbleRuntime.Applied
import MumbleRuntime.Credentials
import MumbleRuntime.CryptState
import MumbleRuntime.Identifiers
import MumbleRuntime.Replay
import MumbleRuntime.Answers
import MumbleRuntime.Dealings
import MumbleRuntime.Snapshots
import MumbleRuntime.Library.Versions
import MumbleRuntime.Revisions
import MumbleRuntime.Completions
import MumbleRuntime.Discretion
import MumbleRuntime.Menus
import MumbleRuntime.Burials
import MumbleRuntime.DeadChannels
import MumbleRuntime.Commitment
import MumbleRuntime.Enforcement
import MumbleRuntime.Hearing
import MumbleRuntime.Library.Forest
import MumbleRuntime.PlanOrder
import MumbleRuntime.ClientForest
import MumbleRuntime.PlanSchedule
import MumbleRuntime.Prefixes
import MumbleRuntime.AcceptedPlans
import MumbleRuntime.OverlayWays
import MumbleRuntime.OverlaySplices
import MumbleRuntime.Wire
import MumbleRuntime.Library.TokenBucket
import MumbleRuntime.Limits
import MumbleRuntime.Bandwidth
import MumbleRuntime.Recovery
import MumbleRuntime.Tally
import MumbleRuntime.Ocb2
import MumbleRuntime.Routes
import MumbleRuntime.Declared
import MumbleRuntime.Peers
import MumbleRuntime.Service
import MumbleRuntime.Serializing
import MumbleRuntime.Framing
