import MumbleRuntime.Agreement

/-!
# Moves of one connection

The environment a connection is moved in: its client stays, its mailboxes take
every command, and its shards last. A migration closes the peer only when the
shard it asks has nothing to hand over, and the handshake is lost only when a
shard hands the connection over before its first view. `Kept` is what holds as
long as neither happens.
-/

namespace MumbleRuntime

open Library Table

namespace Gateway

/-- The client of a connection stays, its mailboxes take every command, and the
shards to `keep` are never destroyed once the connection was sent to them. -/
def undisturbed (keep : ShardId → Bool) (connection : ConnectionId) (gateway : Gateway) :
    Action → Bool
  | .serve other (.route shard) =>
    decide (other ≠ connection) || keep shard && gateway.listed.contains shard
  | .serve other .reject | .serve other .hangUp | .serve other .refuseAttach =>
    other ≠ connection
  | .requestMove other shard =>
    decide (other ≠ connection) || keep shard && gateway.listed.contains shard
  | .requestDestroy shard => !keep shard
  | .markFatal other => other ≠ connection
  | .migrate task .refuseDetach | .migrate task .refuseAttach =>
    match gateway.migrations.get? task with
    | some migration => migration.connection ≠ connection
    | none => true
  | _ => true

/-- A shard is asked for a connection only if it will hold it when it takes the
request, and hands it over only after the first view. -/
def answerable (connection : ConnectionId) (gateway : Gateway) : Action → Bool
  | .sendHandover task =>
    match gateway.migrations.get? task with
    | some migration =>
      gateway.actors.rows.all fun actor =>
        !(decide (migration.connection = connection) &&
          decide (migration.stage = .looked actor.id true)) || actor.settles connection
    | none => true
  | .deliver shard =>
    match gateway.actors.get? shard with
    | some actor =>
      match actor.mailbox with
      | .detach other (some _) :: _ =>
        decide (other ≠ connection) || decide (actor.connections.find? connection ≠ some true)
      | _ => true
    | none => true
  | _ => true

def Command.asks (connection : ConnectionId) : Command → Bool
  | .detach other (some _) => other = connection
  | _ => false

def grounded (connection : ConnectionId) : Bool → List Command → Bool
  | _, [] => true
  | held, command :: rest =>
    (!command.asks connection || held) && grounded connection (command.settle connection held) rest

theorem grounded_append (connection : ConnectionId) (command : Command) (held : Bool)
    (commands : List Command) :
    grounded connection held (commands ++ [command]) = (grounded connection held commands &&
      (!command.asks connection || commands.foldl (Command.settle connection) held)) := by
  induction commands generalizing held with
  | nil => simp [grounded]
  | cons first rest ih => simp [grounded, ih, Bool.and_assoc]

def Actor.Grounded (actor : Actor) (connection : ConnectionId) : Prop :=
  grounded connection (actor.holds connection) actor.mailbox = true

theorem Actor.Grounded.post {actor : Actor} {connection : ConnectionId} {command : Command}
    (h : actor.Grounded connection)
    (hasks : command.asks connection = true → actor.settles connection = true) :
    ({ actor with mailbox := actor.mailbox ++ [command] } : Actor).Grounded connection := by
  unfold Grounded at h ⊢
  rw [grounded_append, Bool.and_eq_true]
  refine ⟨h, ?_⟩
  cases hcmd : command.asks connection with
  | false => rfl
  | true => simpa [Actor.settles, Actor.holds] using hasks hcmd

def Lasts (keep : ShardId → Bool) (gateway : Gateway) (shard : ShardId) : Prop :=
  keep shard = true ∧ gateway.listed.contains shard = true

def Migrate.source : Migrate → Option ShardId
  | .read source | .looked source _ => some source
  | _ => none

structure Kept (keep : ShardId → Bool) (connection : ConnectionId) (gateway : Gateway) : Prop where
  alive : ∀ peer, gateway.peers.get? connection = some peer →
    peer.doomed = false ∧ peer.abandoned = false
  routed : ∀ peer shard, gateway.peers.get? connection = some peer →
    peer.serve = .routed shard → gateway.Lasts keep shard
  placed : ∀ peer, gateway.peers.get? connection = some peer → peer.serve.isNew = false →
    gateway.Lasts keep peer.shard
  destination : ∀ task migration, gateway.migrations.get? task = some migration →
    migration.connection = connection → gateway.Lasts keep migration.destination
  source : ∀ task migration shard, gateway.migrations.get? task = some migration →
    migration.connection = connection → migration.stage.source = some shard →
    gateway.Lasts keep shard
  present : ∀ task migration shard, gateway.migrations.get? task = some migration →
    migration.connection = connection → migration.stage ≠ .looked shard false
  asked : ∀ task migration, gateway.migrations.get? task = some migration →
    migration.connection = connection → migration.stage = .awaiting →
    ∃ shard actor, gateway.Lasts keep shard ∧ gateway.actors.get? shard = some actor ∧
      .detach connection (some task) ∈ actor.mailbox
  moves : ∀ shard, .move connection shard ∈ gateway.mailbox → gateway.Lasts keep shard
  spared : ∀ shard, .destroy shard ∈ gateway.mailbox → keep shard = false
  passing : ∀ shard pending, gateway.destroying = some (shard, pending) → keep shard = false ∧
    (connection ∈ pending →
      ∃ peer, gateway.peers.get? connection = some peer ∧ peer.serve.isNew = false)
  grounded : ∀ shard actor, gateway.actors.get? shard = some actor → actor.Grounded connection
  owed : ∀ peer, gateway.peers.get? connection = some peer → peer.serve = .waiting →
    peer.ready = false →
    ∃ shard actor, gateway.actors.get? shard = some actor ∧ actor.owesReady connection = true
  lodges : ∀ peer, gateway.peers.get? connection = some peer →
    peer.serve = .waiting ∨ peer.serve = .serving → 0 < gateway.residence connection

section Steps

variable {keep : ShardId → Bool} {connection : ConnectionId} {gateway gateway' : Gateway}
  {action : Action}

variable {shard : ShardId}

variable (h : Taken gateway action gateway')

include h in
theorem Taken.lasts (hk : gateway.Kept keep connection)
    (hlasts : gateway.Lasts keep shard) : gateway'.Lasts keep shard := by
  obtain ⟨hkeep, hlst⟩ := hlasts
  refine ⟨hkeep, ?_⟩
  cases h with
  | create => simp [OrderedSet.contains_insert, hlst]
  | @unlist target hdes =>
    have hne : shard ≠ target := by
      rintro rfl
      rw [(hk.passing _ _ hdes).1] at hkeep
      cases hkeep
    simp [OrderedSet.contains_erase, hlst, hne]
  | @handedOver actor other task rest _ _ _ _ hres =>
    rwa [hres, (gateway.handOver_listed { actor with mailbox := rest } other task).1]
  | _ => exact hlst

theorem Kept.lasts_of_weight (hk : gateway.Kept keep connection) (hl : gateway.Lodged)
    (hp : gateway.Placed) {actor : Actor} (hact : gateway.actors.get? shard = some actor)
    (hwt : 0 < actor.weight connection) : gateway.Lasts keep shard := by
  have hbd : gateway.Bound shard connection := .stands hact hwt
  cases hpeer : gateway.peers.get? connection with
  | none =>
    have hzero : actor.weight connection = 0 := hl.weight_early (by simp [hpeer]) hact
    omega
  | some peer =>
    rw [← hp.resides _ _ _ _ hact hwt hpeer]
    exact hk.placed _ hpeer (hbd.not_new hl hp hpeer)

theorem Kept.not_stopped (hk : gateway.Kept keep connection) (hl : gateway.Lodged)
    (hp : gateway.Placed) {actor : Actor} (hlst : gateway.listed.contains shard = false)
    (hact : gateway.actors.get? shard = some actor) : actor.weight connection = 0 := by
  by_contra hwt
  have hlasts := hk.lasts_of_weight hl hp hact (Nat.pos_of_ne_zero hwt)
  rw [Lasts, hlst] at hlasts
  cases hlasts.2

theorem Kept.no_close (hk : gateway.Kept keep connection) {migration : Migration}
    {act : MigrateAction}
    (hu : gateway.undisturbed keep connection (.migrate migration.id act) = true)
    (hmig : gateway.migrations.get? migration.id = some migration)
    (hconn : migration.connection = connection) :
    ¬ Progress gateway migration act .closed := by
  intro hprog
  cases hprog with
  | noSource hstg => exact hk.present _ _ _ hmig hconn hstg
  | refuseDetach
  | refuseAttach => simp [undisturbed, hmig, hconn] at hu
  | dropped hstg hdrp =>
    obtain ⟨shard, actor, -, hact, hmem⟩ := hk.asked _ _ hmig hconn hstg
    have howed : gateway.owesHandover migration.id = true := by
      simp only [owesHandover, List.any_eq_true]
      exact ⟨actor, mem_of_get? hact, _, hmem, by simp [Command.answers]⟩
    rw [hdrp] at howed
    cases howed

variable {peer' : Peer}

theorem Advances.alive {peer : Peer} {act : ServeAction} (h : Advances gateway peer act peer')
    (hp : gateway.Placed) (hk : gateway.Kept keep peer.id)
    (hpeer : gateway.peers.get? peer.id = some peer)
    (hu : gateway.undisturbed keep peer.id (.serve peer.id act) = true) :
    peer'.doomed = false ∧ peer'.abandoned = false := by
  obtain ⟨hsnd, hheld⟩ := hk.alive peer hpeer
  simp only [Peer.doomed, Bool.or_eq_false_iff] at hsnd ⊢
  cases h with
  | reject
  | hangUp
  | refuseAttach => simp [undisturbed] at hu
  | @missing shard hsrv hmissing =>
    have hsh := hp.target _ _ shard hpeer (by rw [hsrv]; rfl)
    have hlasts := hk.placed _ hpeer (by rw [hsrv]; rfl)
    rw [hsh, Lasts, hmissing] at hlasts
    cases hlasts.2
  | readyLost hsrv hrdy hlost =>
    obtain ⟨shard, actor, hact, howes⟩ := hk.owed _ hpeer hsrv hrdy
    have howed : gateway.owesReady peer.id = true := by
      simp only [owesReady, List.any_eq_true]
      exact ⟨actor, mem_of_get? hact, howes⟩
    rw [hlost] at howed
    cases howed
  | overflow hsrv hclose =>
    rw [hclose] at hsnd
    cases hsnd.1
  | remove hsrv
  | readShard hsrv
  | detach hsrv
  | nowhere hsrv
  | refuseDetach hsrv => simp [hsrv, Serve.isDead] at hsnd
  | _ => exact ⟨⟨hsnd.1, rfl⟩, hheld⟩

include h in
theorem Taken.alive (hl : gateway.Lodged) (hp : gateway.Placed)
    (hk : gateway.Kept keep connection) (hu : gateway.undisturbed keep connection action = true)
    (hpeer' : gateway'.peers.get? connection = some peer') :
    peer'.doomed = false ∧ peer'.abandoned = false := by
  rcases h.peer_cases hl.numbered hpeer' with
    ⟨peer, hpeer, hfate⟩ | ⟨-, -, hsrv, hopen, -, hheld⟩
  swap
  · exact ⟨by simp [Peer.doomed, hsrv, hopen, Serve.isDead], hheld⟩
  have hbef := hk.alive peer hpeer
  obtain rfl := key_of_get? hpeer
  cases hfate with
  | serve hadv => exact hadv.alive hp hk hpeer hu
  | sendAttach hsrv => simpa [Peer.doomed, hsrv, Serve.isDead] using hbef
  | sendDetach hsrv => simp [Peer.doomed, hsrv, Serve.isDead] at hbef
  | destroyed hdes =>
    obtain ⟨hspare, hpending⟩ := hk.passing _ _ hdes
    obtain ⟨other, hoth, hnew⟩ := hpending List.mem_cons_self
    rw [hpeer] at hoth
    cases hoth
    rw [(hk.placed _ hpeer hnew).1] at hspare
    cases hspare
  | fatal => simp [undisturbed] at hu
  | closed hmig hconn hprog =>
    exact absurd hprog (hk.no_close hu hmig hconn)
  | _ => exact hbef

include h in
theorem Taken.routed (hl : gateway.Lodged)
    (hk : gateway.Kept keep connection) (hu : gateway.undisturbed keep connection action = true)
    (hpeer' : gateway'.peers.get? connection = some peer') (hsrv' : peer'.serve = .routed shard) :
    gateway'.Lasts keep shard := by
  refine h.lasts hk ?_
  rcases h.peer_cases hl.numbered hpeer' with ⟨peer, hpeer, hfate⟩ | ⟨-, -, hsrv, -⟩
  swap
  · rw [hsrv] at hsrv'
    cases hsrv'
  obtain rfl := key_of_get? hpeer
  cases hfate with
  | serve hadv =>
    cases hadv with
    | route =>
      cases hsrv'
      simpa [undisturbed, Lasts] using hu
    | _ => cases hsrv'
  | sendAttach => cases hsrv'
  | sendDetach => cases hsrv'
  | _ => exact hk.routed _ _ hpeer hsrv'

include h in
theorem Taken.stands (hl : gateway.Lodged) (hp : gateway.Placed) (hk : gateway.Kept keep connection)
    (hu : gateway.undisturbed keep connection action = true)
    (hpeer' : gateway'.peers.get? connection = some peer') (hnew' : peer'.serve.isNew = false) :
    gateway'.Lasts keep peer'.shard := by
  refine h.lasts hk ?_
  rcases h.peer_cases hl.numbered hpeer' with ⟨peer, hpeer, hfate⟩ | ⟨-, -, hsrv, -⟩
  swap
  · rw [hsrv] at hnew'
    cases hnew'
  obtain rfl := key_of_get? hpeer
  have hbef := hk.placed peer hpeer
  cases hfate with
  | serve hadv =>
    cases hadv with
    | route => cases hnew'
    | reject
    | hangUp => simp [undisturbed] at hu
    | insert hsrv => exact hk.routed _ _ hpeer hsrv
    | @point shard hsrv =>
      have hsh := hp.target _ _ shard hpeer (by rw [hsrv]; rfl)
      have hlasts := hbef (by rw [hsrv]; rfl)
      rwa [hsh] at hlasts
    | _ => exact hbef (by simp_all [Serve.isNew])
  | sendAttach hsrv
  | sendDetach hsrv => exact hbef (by rw [hsrv]; rfl)
  | followed hmig hconn => exact hk.destination _ _ hmig hconn
  | _ => exact hbef hnew'

variable {task : TaskId} {migration' : Migration}

include h in
theorem Taken.destination (hk : gateway.Kept keep connection)
    (hmig' : gateway'.migrations.get? task = some migration')
    (hconn : migration'.connection = connection) :
    gateway'.Lasts keep migration'.destination := by
  refine h.lasts hk ?_
  rcases h.migration_cases hmig' with ⟨migration, hmig, hfate⟩ | ⟨-, -, -, hmem⟩
  · have hbef := hk.destination _ migration hmig
    cases hfate <;> exact hbef hconn
  · rw [hconn] at hmem
    exact hk.moves _ hmem

include h in
theorem Taken.source (hp : gateway.Placed) (hk : gateway.Kept keep connection)
    (hmig' : gateway'.migrations.get? task = some migration')
    (hconn : migration'.connection = connection)
    (hsource : migration'.stage.source = some shard) : gateway'.Lasts keep shard := by
  refine h.lasts hk ?_
  rcases h.migration_cases hmig' with ⟨migration, hmig, hfate⟩ | ⟨-, -, hspawned, -⟩
  swap
  · rw [hspawned] at hsource
    cases hsource
  cases hfate with
  | rest => exact hk.source _ _ _ hmig hconn hsource
  | next hprog =>
    cases hprog with
    | found => cases hsource
    | @read peer hstg hpeer =>
      cases hsource
      obtain ⟨other, hoth, hnew⟩ := hp.known _ _ hmig (by rw [hstg]; simp)
      rw [hpeer] at hoth
      cases hoth
      exact hk.placed peer (hconn ▸ hpeer) hnew
    | looked hstg =>
      cases hsource
      exact hk.source _ _ _ hmig hconn (by rw [hstg]; rfl)
  | _ => cases hsource

include h in
theorem Taken.present (hk : gateway.Kept keep connection)
    (hmig' : gateway'.migrations.get? task = some migration')
    (hconn : migration'.connection = connection) :
    migration'.stage ≠ .looked shard false := by
  intro hstg'
  rcases h.migration_cases hmig' with ⟨migration, hmig, hfate⟩ | ⟨-, -, hspawned, -⟩
  swap
  · rw [hspawned] at hstg'
    cases hstg'
  cases hfate with
  | rest => exact hk.present _ _ _ hmig hconn hstg'
  | next hprog =>
    cases hprog with
    | found => cases hstg'
    | read => cases hstg'
    | @looked source hstg =>
      have hlasts := hk.source _ _ source hmig hconn (by rw [hstg]; rfl)
      simp only [Migrate.looked.injEq] at hstg'
      rw [Lasts, hstg'.2] at hlasts
      cases hlasts.2
  | _ => cases hstg'

end Steps

end Gateway

end MumbleRuntime
