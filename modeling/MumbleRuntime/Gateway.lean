import MumbleRuntime.Ids
import MumbleRuntime.Library.TableSum
import MumbleRuntime.Library.Transition

/-!
# The gateway: connection tasks, migrations and shard mailboxes

Every connection has a task of its own: it registers a peer, attaches it to the
shard it was routed to, serves it, and cleans up. Moving a connection spawns a
task that asks the source shard for the view the client holds and attaches the
connection to the destination. Shards take commands in mailbox order. A step is
one access to shared state, so every interleaving of the tasks is a run.

A send is refused when the mailbox is full or the shard's task is gone. The
content of a handed-over view plays no part here.
-/

namespace MumbleRuntime

open Library

namespace Gateway

abbrev TaskId := ℕ

inductive Command
  | attach (connection : ConnectionId) (ready : Bool)
  | detach (connection : ConnectionId) (handover : Option TaskId)
  deriving DecidableEq, Repr

inductive RuntimeCommand
  | move (connection : ConnectionId) (shard : ShardId)
  | destroy (shard : ShardId)
  deriving DecidableEq, Repr

inductive Serve
  | reserved
  | routed (shard : ShardId)
  | inserted (shard : ShardId)
  | found (shard : ShardId)
  | pointed (shard : ShardId)
  | waiting
  | serving
  | failed
  | removed
  | leaving (shard : ShardId)
  | detaching (shard : ShardId)
  | ended
  deriving DecidableEq, Repr

structure Peer where
  id : ConnectionId
  serve : Serve
  shard : ShardId
  registered : Bool
  mustClose : Bool
  ready : Bool
  /-- A migration called `Peer::close`. -/
  abandoned : Bool
  deriving DecidableEq, Repr

inductive Migrate
  | spawned
  | found
  | read (source : ShardId)
  | looked (source : ShardId) (present : Bool)
  | awaiting
  | handed
  | pointed
  deriving DecidableEq, Repr

structure Migration where
  id : TaskId
  connection : ConnectionId
  destination : ShardId
  stage : Migrate
  deriving DecidableEq, Repr

/-- A shard's task. A connection maps to whether its handshake still waits. -/
structure Actor where
  id : ShardId
  mailbox : List Command
  connections : OrderedMap ConnectionId Bool

inductive ServeAction
  | route (shard : ShardId)
  | reject
  | insert
  | lookup
  | point
  | refuseAttach
  | ready
  | readyLost
  | overflow
  | hangUp
  | remove
  | readShard
  | findShard
  | refuseDetach
  deriving DecidableEq, Repr

inductive MigrateAction
  | find
  | readSource
  | look
  | noSource
  | refuseDetach
  | dropped
  | refuseAttach
  deriving DecidableEq, Repr

inductive Action
  | create
  | reserve
  | serve (connection : ConnectionId) (act : ServeAction)
  | sendAttach (connection : ConnectionId)
  | sendDetach (connection : ConnectionId)
  | requestMove (connection : ConnectionId) (shard : ShardId)
  | requestDestroy (shard : ShardId)
  | supervise
  | check
  | unlist
  | stop (shard : ShardId)
  | deliver (shard : ShardId)
  | publish (shard : ShardId) (connection : ConnectionId)
  | markFatal (connection : ConnectionId)
  | migrate (task : TaskId) (act : MigrateAction)
  | sendHandover (task : TaskId)
  | follow (task : TaskId)
  | sendHeld (task : TaskId)
  deriving DecidableEq, Repr

def Command.connection : Command → ConnectionId
  | .attach connection _ => connection
  | .detach connection _ => connection

def Command.isAttach (connection : ConnectionId) : Command → Bool
  | .attach other _ => other = connection
  | .detach .. => false

def Command.answers (task : TaskId) : Command → Bool
  | .detach _ (some handover) => handover = task
  | _ => false

def Actor.holds (actor : Actor) (connection : ConnectionId) : Bool :=
  actor.connections.contains connection

def Actor.owesReady (actor : Actor) (connection : ConnectionId) : Bool :=
  actor.connections.find? connection = some true ||
    actor.mailbox.contains (.attach connection true)

inductive Migrated
  | next (stage : Migrate)
  | finished
  | closed
  deriving DecidableEq, Repr

end Gateway

open Gateway in
structure Gateway where
  listed : OrderedSet ShardId
  actors : Table Actor.id
  peers : Table Peer.id
  migrations : Table Migration.id
  mailbox : List RuntimeCommand
  destroying : Option (ShardId × List ConnectionId)
  nextShard : ShardId
  nextConnection : ConnectionId
  nextTask : TaskId

namespace Gateway

def start : Gateway where
  listed := .empty
  actors := .empty
  peers := .empty
  migrations := .empty
  mailbox := []
  destroying := none
  nextShard := 0
  nextConnection := 0
  nextTask := 0

variable (gateway : Gateway)

def setPeer (peer : Peer) : Gateway := { gateway with peers := gateway.peers.insert peer }

def setActor (actor : Actor) : Gateway := { gateway with actors := gateway.actors.insert actor }

def setMigration (migration : Migration) : Gateway :=
  { gateway with migrations := gateway.migrations.insert migration }

def endMigration (task : TaskId) : Gateway :=
  { gateway with migrations := gateway.migrations.erase task }

def post (actor : Actor) (command : Command) : Gateway :=
  gateway.setActor { actor with mailbox := actor.mailbox ++ [command] }

def owesReady (connection : ConnectionId) : Bool :=
  gateway.actors.rows.any fun actor => actor.owesReady connection

def owesHandover (task : TaskId) : Bool :=
  gateway.actors.rows.any fun actor => actor.mailbox.any (Command.answers task)

def Peer.close (peer : Peer) : Peer := { peer with mustClose := true, abandoned := true }

/-- One step of `serve` that sends nothing. -/
def advance (peer : Peer) : ServeAction → Option Peer
  | .route shard =>
    match peer.serve with
    | .reserved => some { peer with serve := .routed shard }
    | _ => none
  | .reject =>
    match peer.serve with
    | .reserved | .routed _ => some { peer with serve := .ended }
    | _ => none
  | .insert =>
    match peer.serve with
    | .routed shard => some { peer with serve := .inserted shard, shard, registered := true }
    | _ => none
  | .lookup =>
    match peer.serve with
    | .inserted shard =>
      some { peer with
        serve := if gateway.listed.contains shard then .found shard else .failed }
    | _ => none
  | .point =>
    match peer.serve with
    | .found shard => some { peer with serve := .pointed shard, shard }
    | _ => none
  | .refuseAttach =>
    match peer.serve with
    | .pointed _ => some { peer with serve := .failed }
    | _ => none
  | .ready => if peer.serve = .waiting ∧ peer.ready then some { peer with serve := .serving } else none
  | .readyLost =>
    if peer.serve = .waiting ∧ peer.ready = false ∧ gateway.owesReady peer.id = false then
      some { peer with serve := .failed }
    else none
  | .overflow =>
    if peer.serve = .serving ∧ peer.mustClose then some { peer with serve := .failed } else none
  | .hangUp =>
    match peer.serve with
    | .inserted _ | .waiting | .serving => some { peer with serve := .failed }
    | _ => none
  | .remove =>
    match peer.serve with
    | .failed => some { peer with serve := .removed, registered := false }
    | _ => none
  | .readShard =>
    match peer.serve with
    | .removed => some { peer with serve := .leaving peer.shard }
    | _ => none
  | .findShard =>
    match peer.serve with
    | .leaving shard =>
      some { peer with
        serve := if gateway.listed.contains shard then .detaching shard else .ended }
    | _ => none
  | .refuseDetach =>
    match peer.serve with
    | .detaching _ => some { peer with serve := .ended }
    | _ => none

def advanceMigration (migration : Migration) : MigrateAction → Option Migrated
  | .find =>
    if migration.stage = .spawned then
      match gateway.peers.get? migration.connection with
      | some peer => some (if peer.registered then .next .found else .finished)
      | none => some .finished
    else none
  | .readSource =>
    if migration.stage = .found then
      (gateway.peers.get? migration.connection).map fun peer =>
        if peer.shard = migration.destination then .finished else .next (.read peer.shard)
    else none
  | .look =>
    match migration.stage with
    | .read source =>
      some (if gateway.listed.contains migration.destination then
        .next (.looked source (gateway.listed.contains source))
      else .finished)
    | _ => none
  | .noSource =>
    match migration.stage with
    | .looked _ false => some .closed
    | _ => none
  | .refuseDetach =>
    match migration.stage with
    | .looked _ true => some .closed
    | _ => none
  | .dropped =>
    if migration.stage = .awaiting ∧ gateway.owesHandover migration.id = false then some .closed
    else none
  | .refuseAttach => if migration.stage = .pointed then some .closed else none

def resolve (migration : Migration) : Migrated → Option Gateway
  | .next stage => some (gateway.setMigration { migration with stage })
  | .finished => some (gateway.endMigration migration.id)
  | .closed =>
    (gateway.peers.get? migration.connection).map fun peer =>
      (gateway.setPeer peer.close).endMigration migration.id

/-- `Shard::detach` answering a handover: the view goes to the migration. -/
def handOver (actor : Actor) (connection : ConnectionId) (task : TaskId) : Gateway :=
  let gateway := gateway.setActor { actor with connections := actor.connections.erase connection }
  match gateway.migrations.get? task with
  | some migration =>
    if migration.stage = .awaiting then gateway.setMigration { migration with stage := .handed }
    else gateway
  | none => gateway

def handle (actor : Actor) : Command → Gateway
  | .attach connection ready =>
    gateway.setActor { actor with connections := actor.connections.set connection ready }
  | .detach connection none =>
    gateway.setActor { actor with connections := actor.connections.erase connection }
  | .detach connection (some task) =>
    if actor.holds connection then gateway.handOver actor connection task
    else gateway.setActor actor

def supervise : Option Gateway :=
  match gateway.destroying, gateway.mailbox with
  | none, .move connection shard :: rest =>
    some { gateway with
      mailbox := rest
      migrations := gateway.migrations.insert ⟨gateway.nextTask, connection, shard, .spawned⟩
      nextTask := gateway.nextTask + 1 }
  | none, .destroy shard :: rest =>
    some { gateway with
      mailbox := rest
      destroying := some (shard, (gateway.peers.rows.filter Peer.registered).map Peer.id) }
  | _, _ => none

def check : Option Gateway :=
  match gateway.destroying with
  | some (shard, connection :: rest) =>
    let gateway := { gateway with destroying := some (shard, rest) }
    match gateway.peers.get? connection with
    | some peer =>
      some (if peer.shard = shard then gateway.setPeer { peer with mustClose := true } else gateway)
    | none => some gateway
  | _ => none

def step : Action → Option Gateway
  | .create =>
    some { gateway with
      listed := gateway.listed.insert gateway.nextShard
      actors := gateway.actors.insert ⟨gateway.nextShard, [], .empty⟩
      nextShard := gateway.nextShard + 1 }
  | .reserve =>
    some { gateway with
      peers := gateway.peers.insert
        ⟨gateway.nextConnection, .reserved, 0, false, false, false, false⟩
      nextConnection := gateway.nextConnection + 1 }
  | .serve connection act =>
    (gateway.peers.get? connection).bind fun peer =>
      (gateway.advance peer act).map gateway.setPeer
  | .sendAttach connection =>
    (gateway.peers.get? connection).bind fun peer =>
      match peer.serve with
      | .pointed shard =>
        (gateway.actors.get? shard).map fun actor =>
          (gateway.setPeer { peer with serve := .waiting }).post actor (.attach connection true)
      | _ => none
  | .sendDetach connection =>
    (gateway.peers.get? connection).bind fun peer =>
      match peer.serve with
      | .detaching shard =>
        (gateway.actors.get? shard).map fun actor =>
          (gateway.setPeer { peer with serve := .ended }).post actor (.detach connection none)
      | _ => none
  | .requestMove connection shard =>
    some { gateway with mailbox := gateway.mailbox ++ [.move connection shard] }
  | .requestDestroy shard => some { gateway with mailbox := gateway.mailbox ++ [.destroy shard] }
  | .supervise => gateway.supervise
  | .check => gateway.check
  | .unlist =>
    match gateway.destroying with
    | some (shard, []) =>
      some { gateway with listed := gateway.listed.erase shard, destroying := none }
    | _ => none
  | .stop shard =>
    if gateway.listed.contains shard then none
    else some { gateway with actors := gateway.actors.erase shard }
  | .deliver shard =>
    (gateway.actors.get? shard).bind fun actor =>
      match actor.mailbox with
      | [] => none
      | command :: rest => some (gateway.handle { actor with mailbox := rest } command)
  | .publish shard connection =>
    (gateway.actors.get? shard).bind fun actor =>
      if actor.connections.find? connection = some true then
        (gateway.peers.get? connection).map fun peer =>
          (gateway.setPeer { peer with ready := true }).setActor
            { actor with connections := actor.connections.set connection false }
      else none
  | .markFatal connection =>
    (gateway.peers.get? connection).map fun peer => gateway.setPeer { peer with mustClose := true }
  | .migrate task act =>
    (gateway.migrations.get? task).bind fun migration =>
      (gateway.advanceMigration migration act).bind (gateway.resolve migration)
  | .sendHandover task =>
    (gateway.migrations.get? task).bind fun migration =>
      match migration.stage with
      | .looked source true =>
        (gateway.actors.get? source).map fun actor =>
          (gateway.setMigration { migration with stage := .awaiting }).post actor
            (.detach migration.connection (some task))
      | _ => none
  | .follow task =>
    (gateway.migrations.get? task).bind fun migration =>
      if migration.stage = .handed then
        (gateway.peers.get? migration.connection).map fun peer =>
          (gateway.setPeer { peer with shard := migration.destination }).setMigration
            { migration with stage := .pointed }
      else none
  | .sendHeld task =>
    (gateway.migrations.get? task).bind fun migration =>
      if migration.stage = .pointed then
        (gateway.actors.get? migration.destination).map fun actor =>
          (gateway.endMigration task).post actor (.attach migration.connection false)
      else none

end Gateway

end MumbleRuntime
