import MumbleRuntime.Shard

/-!
# One turn of a shard

A turn renders, plans the shared delta, journals it, publishes the routing table
and only then pushes one transition to each connection. A refused render changes
nothing but the allocator; an accepted render that moves neither the delta, nor
an observation, nor an overlay, nor a menu returns early.
-/

namespace MumbleRuntime
open Library

namespace Shard

def observations (shard : Shard) (logic : ShardLogic) : Observations := fun connection =>
  if shard.connections.contains connection then some (logic.observation connection) else none

def rendering (shard : Shard) (ids : IdAllocator) (logic : ShardLogic) : ShardBuilder :=
  (ShardBuilder.new ids shard.id).render logic.render

end Shard

namespace Rendered

def retainedChannels (rendered : Rendered) : OrderedSet ChannelKey :=
  Table.ofList (((rendered.view.channels.rows ++
    rendered.overlays.rows.flatMap fun entry => entry.2.channels.rows).filter
      fun channel => channel.id ≠ rootChannel).map Channel.key)

def ownUser (connection : ConnectionId) (overlay : Overlay) : Option User :=
  overlay.users.rows.find? fun user => user.occupant = .connection connection

def sharedSessions (rendered : Rendered) : OrderedMap ConnectionId SessionId :=
  rendered.view.users.rows.foldl (fun sessions user =>
    match user.occupant.connection? with
    | some connection => sessions.set connection user.session
    | none => sessions) Table.empty

def sharedSilence (rendered : Rendered) : Silence :=
  rendered.view.users.rows.foldl (fun silence user => silence.record user.session user.flags)
    Silence.empty

/-- A connection without shared presence is heard under its own overlay user. -/
def hearOverlay (heard : OrderedMap ConnectionId SessionId × Silence)
    (entry : ConnectionId × Overlay) : OrderedMap ConnectionId SessionId × Silence :=
  if heard.1.contains entry.1 then heard
  else
    match ownUser entry.1 entry.2 with
    | some user => (heard.1.set entry.1 user.session, heard.2.record user.session user.flags)
    | none => heard

def heard (rendered : Rendered) : OrderedMap ConnectionId SessionId × Silence :=
  rendered.overlays.rows.foldl hearOverlay (rendered.sharedSessions, rendered.sharedSilence)

def sessionOf (rendered : Rendered) : OrderedMap ConnectionId SessionId := rendered.heard.1

def silence (rendered : Rendered) : Silence := rendered.heard.2

end Rendered

namespace AttachedConnection

def moved (attached : AttachedConnection) (observed : ScopeSet) : Bool :=
  attached.held.isSome || attached.see ≠ observed

def advance (attached : AttachedConnection) (journal : Journal) (head : ℕ) (previous : ShardView)
    (observed : ScopeSet) (rendered : Rendered) : Delivery :=
  let overlay := rendered.overlayOf attached.id
  let actions := rendered.actionsOf attached.id
  if attached.moved observed then
    attached.replan previous rendered.view head observed overlay actions
  else attached.push journal head overlay actions

def afterTurn (delivery : Delivery) : AttachedConnection :=
  if delivery.outcome = .close then
    { delivery.attached with queue := delivery.attached.queue.markFatal }
  else delivery.attached

section

variable (attached : AttachedConnection)

include attached

theorem transmit_id (ops : List PlanOp) (head : ℕ) (see : ScopeSet)
    (overlay : Overlay) (actions : Actions) :
    (attached.transmit ops head see overlay actions).attached.id = attached.id := by
  unfold transmit
  dsimp only
  split
  · rfl
  · split <;> rfl

theorem push_id (journal : Journal) (head : ℕ) (overlay : Overlay) (actions : Actions) :
    (attached.push journal head overlay actions).attached.id = attached.id := by
  unfold push
  split
  · rfl
  · exact transmit_id _ _ _ _ _ _

theorem replan_id (before after : ShardView) (head : ℕ)
    (newSee : ScopeSet) (overlay : Overlay) (actions : Actions) :
    (attached.replan before after head newSee overlay actions).attached.id = attached.id := by
  unfold replan
  exact transmit_id _ _ _ _ _ _

theorem advance_id (journal : Journal) (head : ℕ)
    (previous : ShardView) (observed : ScopeSet) (rendered : Rendered) :
    (attached.advance journal head previous observed rendered).attached.id = attached.id := by
  unfold advance
  dsimp only
  split
  · exact replan_id _ _ _ _ _ _ _
  · exact push_id _ _ _ _ _

end

theorem afterTurn_id (delivery : Delivery) : (afterTurn delivery).id = delivery.attached.id := by
  unfold afterTurn
  split <;> rfl

end AttachedConnection

namespace Shard

def unchanged (shard : Shard) (logic : ShardLogic) (rendered : Rendered) : Bool :=
  (Plan.plan shard.view rendered.view).isEmpty &&
    shard.connections.rows.all fun attached =>
      !attached.moved (logic.observation attached.id) &&
        rendered.overlayOf attached.id = attached.overlaySent &&
        rendered.actionsOf attached.id = attached.actionsSent

def dated (since : OrderedMap SessionId ℕ) (view : ShardView) (version : ℕ) :
    OrderedMap SessionId ℕ :=
  view.users.rows.foldl (fun since user =>
    if since.contains user.session then since else since.set user.session version) since

def publish (shard : Shard) (rendered : Rendered) : Shard :=
  let ops := Plan.plan shard.view rendered.view
  let version := if ops.isEmpty then shard.version else shard.version + 1
  let since := dated shard.since rendered.view version
  let published := { shard with
    view := rendered.view
    journal := if ops.isEmpty then shard.journal else shard.journal.push ops
    version
    since }
  if since ≠ shard.since ∨ rendered.audio ≠ shard.declaredAudio ∨
      rendered.sessionOf ≠ shard.sessionOf ∨ rendered.silence ≠ shard.declaredSilence then
    { published with
      routing := Routing.compile rendered.audio rendered.sessionOf since rendered.silence
      declaredAudio := rendered.audio
      sessionOf := rendered.sessionOf
      declaredSilence := rendered.silence }
  else published

def delivery (shard : Shard) (previous : ShardView) (logic : ShardLogic) (rendered : Rendered)
    (attached : AttachedConnection) : Delivery :=
  attached.advance shard.journal shard.version previous (logic.observation attached.id) rendered

/-- Push one transition to each connection with an id below `bound`, in order of
their ids; no bound once the turn is over. -/
def deliverBelow (shard : Shard) (previous : ShardView) (logic : ShardLogic) (rendered : Rendered)
    (bound : Option ConnectionId) : Shard :=
  { shard with
    connections := shard.connections.mapRows (fun attached =>
      if bound.all (attached.id < ·) then
        AttachedConnection.afterTurn (shard.delivery previous logic rendered attached)
      else attached) (fun attached => by
        split
        · rw [AttachedConnection.afterTurn_id]
          exact AttachedConnection.advance_id _ _ _ _ _ _
        · rfl) }

def retired (shard : Shard) (previous : ShardView) (logic : ShardLogic) (rendered : Rendered) :
    OrderedSet ChannelId :=
  Table.ofList (shard.connections.rows.flatMap fun attached =>
    (shard.delivery previous logic rendered attached).retired)

def accept (shard : Shard) (ids : IdAllocator) (logic : ShardLogic) (rendered : Rendered) :
    Shard × IdAllocator :=
  let published := shard.publish rendered
  (published.deliverBelow shard.view logic rendered none,
    (ids.retainChannels shard.id rendered.retainedChannels).retireChannelIds shard.id
      (published.retired shard.view logic rendered))

def reportOf (shard : Shard) (logic : ShardLogic) (rendered : Rendered) : ReconcileReport :=
  let ops := Plan.plan shard.view rendered.view
  let published := shard.publish rendered
  { version := published.version
    published := !ops.isEmpty
    deltaLen := ops.length
    replanned := (shard.connections.rows.filter fun attached =>
      attached.moved (logic.observation attached.id)).map AttachedConnection.id
    routingRecompiled :=
      published.since ≠ shard.since ∨ rendered.audio ≠ shard.declaredAudio ∨
        rendered.sessionOf ≠ shard.sessionOf ∨ rendered.silence ≠ shard.declaredSilence
    closed := (shard.connections.rows.filter fun attached =>
      (published.delivery shard.view logic rendered attached).outcome = .close).map
        AttachedConnection.id }

def reconcile (shard : Shard) (ids : IdAllocator) (logic : ShardLogic) :
    Shard × IdAllocator × ReconcileReport :=
  let builder := shard.rendering ids logic
  match builder.finish (shard.observations logic) with
  | .error refused => (shard, builder.ids, { version := shard.version, refused := some refused })
  | .ok rendered =>
    if shard.unchanged logic rendered then (shard, builder.ids, { version := shard.version })
    else
      let (accepted, ids) := shard.accept builder.ids logic rendered
      (accepted, ids, shard.reportOf logic rendered)

end Shard

end MumbleRuntime
