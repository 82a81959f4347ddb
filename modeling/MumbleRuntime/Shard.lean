import MumbleRuntime.Build
import MumbleRuntime.Client
import MumbleRuntime.Queue

/-!
# The shard: one render, one journal, one task

A shard owns the current view, the journal of its deltas and the committed state
of every attached connection. Commands never render; a turn renders, plans,
journals, publishes the routing table and then pushes one transition to each
connection. The flavor is a parameter of every step: nothing is assumed of what
it observes, renders or answers. A text addressed to a subtree walks parents of
the render, and that walk need not end; a command that never returns is `none`.
-/

namespace MumbleRuntime
open Library

inductive Audience
  | channel (key : ChannelKey)
  | tree (key : ChannelKey)
  | user (occupant : Occupant)
  deriving DecidableEq

structure Spoken where
  from? : Option ConnectionId
  audience : Audience
  text : String
  deriving DecidableEq

inductive Effect
  | move (connection : ConnectionId) (shard : ShardId)
  deriving DecidableEq

structure Reply where
  words : OrderedMap ConnectionId (List Word) := Table.empty
  spoken : List Spoken := []
  effects : List Effect := []
  deriving DecidableEq

inductive ActionTarget
  | server
  | channel (key : ChannelKey)
  | user (occupant : Occupant)
  deriving DecidableEq

inductive VoiceEvent
  | connected (connection : ConnectionId)
  | disconnected (connection : ConnectionId) (reason : String)
  | migrated (connection : ConnectionId) (shard : ShardId)
  | requestedChannel (connection : ConnectionId) (channel : ChannelKey)
  | requestedSelfState (connection : ConnectionId) (selfMute selfDeaf : Option Bool)
  | invokedAction (connection : ConnectionId) (action : ActionKey) (on : ActionTarget)
  | said (connection : ConnectionId) (audience : Audience) (text : String)
  deriving DecidableEq

structure ShardLogic where
  render : List BuildCall := []
  observation : ConnectionId → ScopeSet := fun _ => ScopeSet.none
  observe : VoiceEvent → Reply := fun _ => {}

inductive ShardCommand
  | attach (connection : ConnectionId) (queue : OutboundQueue) (cursor : ℕ) (held : ShardView)
      (ready : Bool)
  | detach (connection : ConnectionId) (reason : String) (handover : Option ShardId)
  | drained (connection : ConnectionId)
  | requested (connection : ConnectionId) (channel : ChannelId)
  | requestedSelfState (connection : ConnectionId) (selfMute selfDeaf : Option Bool)
  | queriedPermissions (connection : ConnectionId) (channel : ChannelId)
  | queriedUserStats (connection : ConnectionId) (target : SessionId)
  | invokedAction (connection : ConnectionId) (action : String) (session : Option SessionId)
      (channel : Option ChannelId)
  | said (connection : ConnectionId) (target : TextTarget) (message : String)

structure AttachedConnection where
  id : ConnectionId
  session : SessionId
  cursor : ℕ
  see : ScopeSet
  overlaySent : Overlay
  actionsSent : Actions
  held : Option ShardView
  ready : Bool
  queue : OutboundQueue
  sharedCursor : ℕ
  deriving DecidableEq

inductive Outcome
  | advanced
  | congested
  | close
  deriving DecidableEq

structure Delivery where
  attached : AttachedConnection
  outcome : Outcome
  retired : List ChannelId

def retiredChannels (ops : List PlanOp) : List ChannelId :=
  ops.filterMap fun op =>
    match op with
    | .removeChannel channel => some channel
    | _ => none

namespace AttachedConnection

def commit (attached : AttachedConnection) (cursor : ℕ) (see : ScopeSet) (overlay : Overlay)
    (actions : Actions) : AttachedConnection :=
  { attached with
    cursor
    see
    overlaySent := overlay
    actionsSent := actions
    sharedCursor := cursor
    held := none
    ready := false }

def composed (attached : AttachedConnection) (shared : ShardView) : ShardView :=
  match attached.held with
  | some held => held
  | none => (shared.restrict attached.see).compose attached.overlaySent

def send (attached : AttachedConnection) (messages : List ControlMessage) : AttachedConnection :=
  { attached with queue := (attached.queue.trySendAll messages).1 }

/-- The common end of `push` and `replan`: the four committed values advance
together, once the queue has accepted the operations and the menu. -/
def transmit (attached : AttachedConnection) (ops : List PlanOp) (head : ℕ) (see : ScopeSet)
    (overlay : Overlay) (actions : Actions) : Delivery :=
  let messages := Emit.emit ops attached.session ++ Emit.actions attached.actionsSent actions
  if messages.isEmpty then ⟨attached.commit head see overlay actions, .advanced, []⟩
  else
    match attached.queue.trySendAll messages with
    | (queue, .ok ()) =>
      ⟨{ attached with queue }.commit head see overlay actions, .advanced, retiredChannels ops⟩
    | (queue, .error (.congested _ _)) => ⟨{ attached with queue }, .congested, []⟩
    | (queue, .error _) => ⟨{ attached with queue }, .close, []⟩

/-- The operations of the fast path: the missed deltas as this connection sees
them, with its private operations spliced in. -/
def pushOps (attached : AttachedConnection) (replayed : List PlannedOp) (overlay : Overlay) :
    List PlanOp :=
  Compose.collapse (Compose.splice (Compose.filter replayed attached.see)
    (Plan.planElements attached.overlaySent overlay))

def push (attached : AttachedConnection) (journal : Journal) (head : ℕ) (overlay : Overlay)
    (actions : Actions) : Delivery :=
  match journal.replay attached.cursor head with
  | .error _ => ⟨attached, .close, []⟩
  | .ok replayed =>
    attached.transmit (attached.pushOps replayed overlay) head attached.see overlay actions

def replanOps (before after : ShardView) : List PlanOp :=
  Compose.collapse ((Plan.plan before after).map PlannedOp.op)

def replan (attached : AttachedConnection) (before after : ShardView) (head : ℕ)
    (newSee : ScopeSet) (overlay : Overlay) (actions : Actions) : Delivery :=
  attached.transmit
    (replanOps (attached.composed before) ((after.restrict newSee).compose overlay))
    head newSee overlay actions

end AttachedConnection

structure ReconcileReport where
  version : ℕ
  published : Bool := false
  deltaLen : ℕ := 0
  replanned : List ConnectionId := []
  routingRecompiled : Bool := false
  closed : List ConnectionId := []
  refused : Option BuildError := none
  deriving DecidableEq

structure Shard where
  id : ShardId
  view : ShardView
  journal : Journal
  version : ℕ
  connections : Table AttachedConnection.id
  since : OrderedMap SessionId ℕ
  declaredAudio : AudioRelation
  declaredSilence : Silence
  sessionOf : OrderedMap ConnectionId SessionId
  routing : AudioRouting

/-- A connection that left a shard: its queue and cell, and the view handed over
when it is migrating. -/
structure Departed where
  connection : ConnectionId
  queue : OutboundQueue
  sharedCursor : ℕ
  held : Option ShardView

structure Handled where
  shard : Shard
  ids : IdAllocator
  effects : List Effect := []
  departed : Option Departed := none

namespace Shard

def new (id : ShardId) : Shard where
  id := id
  view := ShardView.empty
  journal := Journal.new
  version := 0
  connections := Table.empty
  since := Table.empty
  declaredAudio := AudioRelation.empty
  declaredSilence := Silence.empty
  sessionOf := Table.empty
  routing := AudioRouting.empty

/-- A channel as this connection can see it: shared and observed, or held from
before its first transition, or private to it. -/
def visibleChannel (shard : Shard) (attached : AttachedConnection) (channel : ChannelId) :
    Option Channel :=
  ((shard.view.channels.get? channel).filter fun rendered => attached.see.sees rendered.scope).or
    ((attached.held.bind fun held => held.channels.get? channel).or
      (attached.overlaySent.channels.get? channel))

def seenUser (shard : Shard) (attached : AttachedConnection) (session : SessionId) : Option User :=
  ((shard.view.users.get? session).filter fun user => attached.see.sees user.scope).or
    ((attached.held.bind fun held => held.users.get? session).or
      (attached.overlaySent.users.get? session))

/-- The walk of `descends_from`, for `fuel` steps; `none` while it has not
ended. -/
def descendsFromWithin (shard : Shard) (attached : AttachedConnection) (root : ChannelId) :
    ℕ → ChannelId → Option Bool
  | 0, _ => none
  | fuel + 1, current =>
    if current = root then some true
    else
      match shard.visibleChannel attached current with
      | none => some false
      | some rendered =>
        if rendered.parent = current then some false
        else shard.descendsFromWithin attached root fuel rendered.parent

/-- More steps than there are channels this connection can see: a walk that is
still going then has come back to a channel it has met. -/
def descendsFuel (shard : Shard) (attached : AttachedConnection) : ℕ :=
  shard.view.channels.rows.length +
    ((attached.held.map fun held => held.channels.rows.length).getD 0 +
      attached.overlaySent.channels.rows.length) + 2

def descendsFrom (shard : Shard) (attached : AttachedConnection) (channel root : ChannelId) :
    Option Bool :=
  shard.descendsFromWithin attached root (shard.descendsFuel attached) channel

def addressed (shard : Shard) (attached : AttachedConnection) : TextTarget → Option Bool
  | .session session => some (session = attached.session)
  | .channel channel =>
    some ((shard.seenUser attached attached.session).any fun user => user.channel = channel)
  | .tree root =>
    match shard.seenUser attached attached.session with
    | none => some false
    | some user => shard.descendsFrom attached user.channel root

def channelOf (shard : Shard) (ids : IdAllocator) (key : ChannelKey) : Option ChannelId :=
  ((shard.view.channels.rows.find? fun channel => channel.key = key).map Channel.id).or
    (ids.allocatedChannel shard.id key)

def resolve (shard : Shard) (ids : IdAllocator) : Audience → Option TextTarget
  | .user occupant => (ids.allocatedSession occupant).map .session
  | .channel key => (shard.channelOf ids key).map .channel
  | .tree key => (shard.channelOf ids key).map .tree

def receives (shard : Shard) (attached : AttachedConnection) (spoken : Spoken)
    (speaker : Option SessionId) (target : TextTarget) : Option Bool :=
  if some attached.id = spoken.from? then some false
  else
    (shard.addressed attached target).map fun addressed =>
      addressed && speaker.all fun session => (shard.seenUser attached session).isSome

def speakerOf (shard : Shard) (spoken : Spoken) : Option SessionId :=
  (spoken.from?.bind shard.connections.get?).map AttachedConnection.session

def deliver (shard : Shard) (ids : IdAllocator) (spoken : Spoken) : Option Shard :=
  let speaker := shard.speakerOf spoken
  if spoken.from?.isSome && speaker.isNone then some shard
  else
    match shard.resolve ids spoken.audience with
    | none => some shard
    | some target =>
      if shard.connections.rows.all fun attached =>
          (shard.receives attached spoken speaker target).isSome then
        some { shard with
          connections := shard.connections.mapRows (fun attached =>
            if shard.receives attached spoken speaker target = some true then
              attached.send [Emit.relayed speaker target spoken.text]
            else attached) (fun attached => by split <;> rfl) }
      else none

def sayWords (shard : Shard) (words : OrderedMap ConnectionId (List Word)) : Shard :=
  { shard with
    connections := shard.connections.mapRows (fun attached =>
      attached.send (((words.find? attached.id).getD []).map (Emit.spoken attached.session)))
      (fun _ => rfl) }

/-- Report an event to the flavor and deliver what it said: words, then texts,
then the effects, which the runtime carries out. -/
def tell (shard : Shard) (ids : IdAllocator) (logic : ShardLogic) (event : VoiceEvent) :
    Option (Shard × List Effect) :=
  let reply := logic.observe event
  (reply.spoken.foldlM (fun shard spoken => deliver shard ids spoken)
    (shard.sayWords reply.words)).map fun shard => (shard, reply.effects)

def report (shard : Shard) (ids : IdAllocator) (logic : ShardLogic) (event : VoiceEvent)
    (departed : Option Departed) : Option Handled :=
  (shard.tell ids logic event).map fun (shard, effects) => { shard, ids, effects, departed }

def attach (shard : Shard) (ids : IdAllocator) (logic : ShardLogic) (connection : ConnectionId)
    (queue : OutboundQueue) (cursor : ℕ) (held : ShardView) (ready : Bool) : Option Handled :=
  match ids.session (.connection connection) with
  | .error _ =>
    some { shard, ids, departed := some ⟨connection, queue.markFatal, cursor, none⟩ }
  | .ok (session, ids) =>
    { shard with
      connections := shard.connections.insert
        { id := connection, session, cursor := shard.version, see := ScopeSet.none,
          overlaySent := Overlay.empty, actionsSent := Table.empty, held := some held, ready,
          queue, sharedCursor := shard.version } }.report ids logic (.connected connection) none

def tearDown (shard : Shard) (attached : AttachedConnection) : AttachedConnection :=
  let ops := AttachedConnection.replanOps (attached.composed shard.view) ShardView.empty
  if ops.isEmpty then attached
  else
    match attached.queue.trySendAll (Emit.emit ops attached.session) with
    | (queue, .ok ()) =>
      { attached with queue }.commit shard.version ScopeSet.none Overlay.empty Table.empty
    | (queue, .error _) => { attached with queue := queue.markFatal }

def detach (shard : Shard) (ids : IdAllocator) (logic : ShardLogic) (connection : ConnectionId)
    (reason : String) (handover : Option ShardId) : Option Handled :=
  match shard.connections.get? connection with
  | none => some { shard, ids }
  | some attached =>
    let remaining := { shard with connections := shard.connections.erase connection }
    match handover with
    | some destination =>
      let leaving := attached.send (Emit.actions attached.actionsSent Table.empty)
      remaining.report ids logic (.migrated connection destination)
        (some ⟨connection, leaving.queue, leaving.sharedCursor,
          some (attached.composed shard.view)⟩)
    | none =>
      let leaving := shard.tearDown attached
      remaining.report ids logic (.disconnected connection reason)
        (some ⟨connection, leaving.queue, leaving.sharedCursor, none⟩)

def requested (shard : Shard) (ids : IdAllocator) (logic : ShardLogic) (connection : ConnectionId)
    (channel : ChannelId) : Option Handled :=
  match shard.connections.get? connection with
  | none => some { shard, ids }
  | some attached =>
    match shard.visibleChannel attached channel with
    | some rendered => shard.report ids logic (.requestedChannel connection rendered.key) none
    | none => some { shard, ids }

/-- What an invocation is about, chosen by the places the action was offered on,
most specific first. -/
def actionTarget (shard : Shard) (attached : AttachedConnection) (on : On)
    (session : Option SessionId) (channel : Option ChannelId) : Option ActionTarget :=
  match session.filter fun _ => on.covers On.user with
  | some session => (shard.seenUser attached session).map fun user => .user user.occupant
  | none =>
    match channel.filter fun _ => on.covers On.channel with
    | some channel => (shard.visibleChannel attached channel).map fun rendered =>
        .channel rendered.key
    | none => if on.covers On.server then some .server else none

def invoked (shard : Shard) (ids : IdAllocator) (logic : ShardLogic) (connection : ConnectionId)
    (action : String) (session : Option SessionId) (channel : Option ChannelId) :
    Option Handled :=
  match shard.connections.get? connection with
  | none => some { shard, ids }
  | some attached =>
    match (Emit.actionKey action).bind attached.actionsSent.get? with
    | none => some { shard, ids }
    | some offered =>
      match shard.actionTarget attached offered.on session channel with
      | some target => shard.report ids logic (.invokedAction connection offered.key target) none
      | none => some { shard, ids }

def answer (shard : Shard) (attached : AttachedConnection) (message : ControlMessage) : Shard :=
  { shard with connections := shard.connections.insert (attached.send [message]) }

/-- Where a client aimed a text, with the channel whose `canText` decides. -/
def textAudience (shard : Shard) (attached : AttachedConnection) :
    TextTarget → Option (Audience × ChannelId)
  | .session target =>
    (shard.seenUser attached target).map fun user => (.user user.occupant, user.channel)
  | .channel channel =>
    (shard.visibleChannel attached channel).map fun rendered => (.channel rendered.key, channel)
  | .tree channel =>
    (shard.visibleChannel attached channel).map fun rendered => (.tree rendered.key, channel)

def said (shard : Shard) (ids : IdAllocator) (logic : ShardLogic) (connection : ConnectionId)
    (target : TextTarget) (message : String) : Option Handled :=
  match shard.connections.get? connection with
  | none => some { shard, ids }
  | some attached =>
    match shard.textAudience attached target with
    | none => some { shard, ids }
    | some (audience, writableIn) =>
      if (shard.visibleChannel attached writableIn).any Channel.canText then
        shard.report ids logic (.said connection audience message) none
      else
        some {
          shard := shard.answer attached
            (Emit.deniedPermission attached.session writableIn Emit.Perm.textMessage)
          ids }

def queriedPermissions (shard : Shard) (connection : ConnectionId) (channel : ChannelId) : Shard :=
  match shard.connections.get? connection with
  | none => shard
  | some attached =>
    match shard.visibleChannel attached channel with
    | some rendered => shard.answer attached (Emit.permissionQuery rendered)
    | none => shard

def queriedUserStats (shard : Shard) (connection : ConnectionId) (target : SessionId) : Shard :=
  match shard.connections.get? connection with
  | none => shard
  | some attached =>
    if (shard.seenUser attached target).isSome then shard.answer attached (Emit.userStats target)
    else shard

def requestedSelfState (shard : Shard) (ids : IdAllocator) (logic : ShardLogic)
    (connection : ConnectionId) (selfMute selfDeaf : Option Bool) : Option Handled :=
  if shard.connections.contains connection then
    shard.report ids logic (.requestedSelfState connection selfMute selfDeaf) none
  else some { shard, ids }

def retry (shard : Shard) (ids : IdAllocator) (connection : ConnectionId) : Shard × IdAllocator :=
  match shard.connections.get? connection with
  | none => (shard, ids)
  | some attached =>
    if attached.held.isSome then (shard, ids)
    else
      let delivery := attached.push shard.journal shard.journal.head attached.overlaySent
        attached.actionsSent
      ({ shard with connections := shard.connections.insert delivery.attached },
        ids.retireChannelIds shard.id (Table.ofList delivery.retired))

def handle (shard : Shard) (ids : IdAllocator) (logic : ShardLogic) :
    ShardCommand → Option Handled
  | .attach connection queue cursor held ready =>
    shard.attach ids logic connection queue cursor held ready
  | .detach connection reason handover => shard.detach ids logic connection reason handover
  | .drained connection =>
    let (shard, ids) := shard.retry ids connection
    some { shard, ids }
  | .requested connection channel => shard.requested ids logic connection channel
  | .requestedSelfState connection selfMute selfDeaf =>
    shard.requestedSelfState ids logic connection selfMute selfDeaf
  | .queriedPermissions connection channel =>
    some { shard := shard.queriedPermissions connection channel, ids }
  | .queriedUserStats connection target =>
    some { shard := shard.queriedUserStats connection target, ids }
  | .invokedAction connection action session channel =>
    shard.invoked ids logic connection action session channel
  | .said connection target message => shard.said ids logic connection target message

end Shard

end MumbleRuntime
