import MumbleRuntime.Turn
import MumbleRuntime.Library.Transition

/-!
# A runtime of shards

Several shards share one allocator. A connection is attached to one shard or on
its way to one: its handshake has sent it there, or another shard has handed it
over with the view its client holds. Commands reach a shard at any time and in
any order, a writer takes messages from a queue or ends at any time, and the
voice plane offers tunnelled packets. A connection that left for good keeps the
queue it left with. Moves a flavor asks for are steps that may be taken anyway,
so the effects of a command are not tracked.
-/

namespace MumbleRuntime
open Library

structure Flight where
  connection : ConnectionId
  session : SessionId
  destination : ShardId
  queue : OutboundQueue
  cursor : ℕ
  held : ShardView
  ready : Bool

structure Runtime where
  ids : IdAllocator
  shards : Table Shard.id
  flights : Table Flight.connection
  gone : List OutboundQueue
  nextShard : ShardId
  nextConnection : ConnectionId

inductive Event
  | create
  | connect (destination : ShardId)
  | arrive (connection : ConnectionId) (logic : ShardLogic)
  | command (shard : ShardId) (logic : ShardLogic) (command : ShardCommand)
  | depart (shard : ShardId) (logic : ShardLogic) (connection : ConnectionId)
      (destination : ShardId)
  | turn (shard : ShardId) (logic : ShardLogic)
  | read (connection : ConnectionId) (count : ℕ)
  | hangUp (connection : ConnectionId)
  | voice (connection : ConnectionId)

def ShardCommand.isRequest : ShardCommand → Bool
  | .attach .. => false
  | .detach _ _ (some _) => false
  | _ => true

def AttachedConnection.mapQueue (f : OutboundQueue → OutboundQueue)
    (attached : AttachedConnection) : AttachedConnection :=
  { attached with queue := f attached.queue }

namespace Runtime

def start : Runtime where
  ids := IdAllocator.new
  shards := Table.empty
  flights := Table.empty
  gone := []
  nextShard := 1
  nextConnection := 1

def create (runtime : Runtime) : Runtime :=
  { runtime with
    shards := runtime.shards.insert (Shard.new runtime.nextShard)
    nextShard := runtime.nextShard + 1 }

def connect (runtime : Runtime) (destination : ShardId) : Runtime :=
  let connection := runtime.nextConnection
  let registered := { runtime with nextConnection := connection + 1 }
  match runtime.ids.session (.connection connection) with
  | .error _ => registered
  | .ok (session, ids) =>
    if runtime.shards.contains destination then
      { registered with
        ids
        flights := runtime.flights.insert
          { connection, session, destination, queue := OutboundQueue.new, cursor := 0,
            held := ShardView.empty, ready := true } }
    else { registered with ids }

def settle (runtime : Runtime) (handled : Handled) : Runtime :=
  { runtime with
    ids := handled.ids
    shards := runtime.shards.insert handled.shard }

def arrive (runtime : Runtime) (connection : ConnectionId) (logic : ShardLogic) : Option Runtime :=
  match runtime.flights.get? connection with
  | none => none
  | some flight =>
    match runtime.shards.get? flight.destination with
    | none => none
    | some shard =>
      (shard.attach runtime.ids logic connection flight.queue flight.cursor flight.held
        flight.ready).map fun handled =>
          { runtime.settle handled with
            flights := runtime.flights.erase connection
            gone := runtime.gone ++ handled.departed.toList.map Departed.queue }

def command (runtime : Runtime) (id : ShardId) (logic : ShardLogic) (command : ShardCommand) :
    Option Runtime :=
  match runtime.shards.get? id with
  | none => none
  | some shard =>
    if command.isRequest then
      (shard.handle runtime.ids logic command).map fun handled =>
        { runtime.settle handled with
          gone := runtime.gone ++ handled.departed.toList.map Departed.queue }
    else none

def movingTo (destination : ShardId) : String := "moving to ShardId(" ++ toString destination ++ ")"

def depart (runtime : Runtime) (id : ShardId) (logic : ShardLogic) (connection : ConnectionId)
    (destination : ShardId) : Option Runtime :=
  match runtime.shards.get? id with
  | none => none
  | some shard =>
    match shard.connections.get? connection with
    | none => none
    | some attached =>
      if destination ≠ id ∧ runtime.shards.contains destination then
        (shard.detach runtime.ids logic connection (movingTo destination)
          (some destination)).bind fun handled =>
            handled.departed.bind fun departed => departed.held.map fun held =>
              { runtime.settle handled with
                flights := runtime.flights.insert
                  { connection, session := attached.session, destination,
                    queue := departed.queue, cursor := departed.sharedCursor, held,
                    ready := false } }
      else none

def turn (runtime : Runtime) (id : ShardId) (logic : ShardLogic) : Option Runtime :=
  (runtime.shards.get? id).map fun shard =>
    let (shard, ids, _) := shard.reconcile runtime.ids logic
    { runtime with ids, shards := runtime.shards.insert shard }

def mapQueue (runtime : Runtime) (connection : ConnectionId) (f : OutboundQueue → OutboundQueue) :
    Runtime :=
  { runtime with
    shards := runtime.shards.mapRows (fun shard =>
      { shard with
        connections := shard.connections.modify connection (AttachedConnection.mapQueue f) })
      (fun _ => rfl)
    flights := runtime.flights.modify connection fun flight =>
      { flight with queue := f flight.queue } }

def step (runtime : Runtime) : Event → Option Runtime
  | .create => some runtime.create
  | .connect destination => some (runtime.connect destination)
  | .arrive connection logic => runtime.arrive connection logic
  | .command shard logic command => runtime.command shard logic command
  | .depart shard logic connection destination => runtime.depart shard logic connection destination
  | .turn shard logic => runtime.turn shard logic
  | .read connection count => some (runtime.mapQueue connection fun queue => queue.drain count)
  | .hangUp connection => some (runtime.mapQueue connection OutboundQueue.hangUp)
  | .voice connection => some (runtime.mapQueue connection fun queue => queue.pushVoice.1)

end Runtime

end MumbleRuntime
