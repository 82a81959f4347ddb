import MumbleRuntime.GatewayFates

/-!
# Single residence

Only the handshake sends an `Attach` of its own; a migration sends one for the
view it was handed, and a shard hands a view over only by giving the connection
up. So what stands for a connection - a shard holding it, an `Attach` on its way,
a view between two shards - is passed on and never doubled.
-/

namespace MumbleRuntime

open Library Table

variable {action : Gateway.Action} {actor : Actor}

namespace Gateway

/-- The handshake has yet to send its `Attach`. -/
def Serve.isEarly : Serve → Bool
  | .reserved | .routed _ | .inserted _ | .found _ | .pointed _ => true
  | _ => false

def Actor.weight (connection : ConnectionId) (actor : Actor) : ℕ :=
  (actor.holds connection).toNat + actor.mailbox.countP (Command.isAttach connection)

def Migrate.carries : Migrate → Bool
  | .handed | .pointed => true
  | _ => false

def Migration.weight (connection : ConnectionId) (migration : Migration) : ℕ :=
  (decide (migration.connection = connection) && migration.stage.carries).toNat

/-- Shards holding a connection, `Attach` commands on their way and views
between two shards. -/
def residence (gateway : Gateway) (connection : ConnectionId) : ℕ :=
  gateway.actors.sum (Actor.weight connection) + gateway.migrations.sum (Migration.weight connection)

def allowance (gateway : Gateway) (connection : ConnectionId) : ℕ :=
  match gateway.peers.get? connection with
  | some peer => if peer.serve.isEarly then 0 else 1
  | none => 0

section Frame

variable (gateway : Gateway)

theorem residence_setActor (actor : Actor) {before : Actor}
    (h : gateway.actors.get? actor.id = some before) (connection : ConnectionId) :
    (gateway.setActor actor).residence connection + before.weight connection =
      gateway.residence connection + actor.weight connection := by
  have hsum := sum_of_get? h (Actor.weight connection)
  have hinsert := gateway.actors.sum_insert actor (Actor.weight connection)
  simp only [residence, setActor]
  omega

theorem residence_setMigration (migration : Migration) {before : Migration}
    (h : gateway.migrations.get? migration.id = some before) (connection : ConnectionId) :
    (gateway.setMigration migration).residence connection + before.weight connection =
      gateway.residence connection + migration.weight connection := by
  have hsum := sum_of_get? h (Migration.weight connection)
  have hinsert := gateway.migrations.sum_insert migration (Migration.weight connection)
  simp only [residence, setMigration]
  omega

theorem residence_endMigration {migration : Migration}
    (h : gateway.migrations.get? migration.id = some migration) (connection : ConnectionId) :
    (gateway.endMigration migration.id).residence connection + migration.weight connection =
      gateway.residence connection := by
  have hsum := sum_of_get? h (Migration.weight connection)
  simp only [residence, endMigration]
  omega

theorem Actor.weight_post (actor : Actor) (command : Command) (connection : ConnectionId) :
    ({ actor with mailbox := actor.mailbox ++ [command] } : Actor).weight connection =
      actor.weight connection + (command.isAttach connection).toNat := by
  simp only [Actor.weight, List.countP_append, List.countP_singleton, ← Nat.add_assoc]
  cases command.isAttach connection <;> rfl

theorem residence_post (h : gateway.actors.get? actor.id = some actor)
    (command : Command) (connection : ConnectionId) :
    (gateway.post actor command).residence connection =
      gateway.residence connection + (command.isAttach connection).toNat := by
  have hset := gateway.residence_setActor { actor with mailbox := actor.mailbox ++ [command] } h
    connection
  rw [Actor.weight_post] at hset
  simp only [post]
  omega

@[simp] theorem residence_setPeer (peer : Peer) (connection : ConnectionId) :
    (gateway.setPeer peer).residence connection = gateway.residence connection := rfl

end Frame

section Delivery

variable {actor : Actor} {rest : List Command}

theorem Actor.holds_set (actor : Actor) (mailbox : List Command) (other : ConnectionId)
    (ready : Bool) (connection : ConnectionId) :
    ({ actor with mailbox, connections := actor.connections.set other ready } :
      Actor).holds connection = (decide (connection = other) || actor.holds connection) := by
  by_cases hconn : connection = other <;> simp [Actor.holds, contains, OrderedMap.set, hconn]

theorem Actor.holds_erase (actor : Actor) (mailbox : List Command)
    (other connection : ConnectionId) :
    ({ actor with mailbox, connections := actor.connections.erase other } :
      Actor).holds connection = (decide (connection ≠ other) && actor.holds connection) := by
  by_cases hconn : connection = other <;> simp [Actor.holds, contains, hconn]

theorem Actor.holds_of_find? {connection : ConnectionId} {ready : Bool}
    (h : actor.connections.find? connection = some ready) : actor.holds connection = true := by
  obtain ⟨entry, hentry, -⟩ := Option.map_eq_some_iff.mp h
  simp [Actor.holds, contains, hentry]

variable {other : ConnectionId}

theorem Actor.weight_attached {ready : Bool} (h : actor.mailbox = .attach other ready :: rest)
    (connection : ConnectionId) :
    let after : Actor := { actor with mailbox := rest, connections := actor.connections.set other ready }
    after.weight connection ≤ actor.weight connection ∧
      (actor.weight connection ≤ 1 → after.weight connection = actor.weight connection) := by
  simp only [Actor.weight, Actor.holds_set, h, List.countP_cons, Command.isAttach]
  by_cases hconn : connection = other
  · subst hconn
    simp only [decide_true, Bool.true_or, Bool.toNat_true, if_true]
    omega
  · simp [hconn, Ne.symm hconn]

theorem Actor.weight_detached {handover : Option TaskId}
    (h : actor.mailbox = .detach other handover :: rest) (connection : ConnectionId) :
    ({ actor with mailbox := rest, connections := actor.connections.erase other } :
      Actor).weight connection + (decide (connection = other) && actor.holds connection).toNat =
      actor.weight connection := by
  simp only [Actor.weight, Actor.holds_erase, h, List.countP_cons, Command.isAttach]
  by_cases hconn : connection = other
  · subst hconn
    simp [Nat.add_comm]
  · simp [hconn]

theorem Actor.weight_skipped {handover : Option TaskId}
    (h : actor.mailbox = .detach other handover :: rest) (connection : ConnectionId) :
    ({ actor with mailbox := rest } : Actor).weight connection = actor.weight connection := by
  simp [Actor.weight, Actor.holds, h, Command.isAttach]

theorem Actor.weight_published (h : actor.connections.find? other = some true)
    (connection : ConnectionId) :
    ({ actor with connections := actor.connections.set other false } : Actor).weight connection =
      actor.weight connection := by
  have hhd := actor.holds_set actor.mailbox other false connection
  simp only [Actor.weight, hhd]
  by_cases hconn : connection = other
  · subst hconn
    simp [Actor.holds_of_find? h]
  · simp [hconn]

end Delivery

/-- Every handover asked for belongs to the connection its migration moves. -/
def Asked (gateway : Gateway) : Prop :=
  ∀ shard actor connection task, gateway.actors.get? shard = some actor →
    .detach connection (some task) ∈ actor.mailbox → task < gateway.nextTask ∧
      ∀ migration, gateway.migrations.get? task = some migration →
        migration.connection = connection

variable {gateway : Gateway}

theorem residence_handOver_of_awaiting {rest : List Command} {other : ConnectionId}
    {migration : Migration} (hact : gateway.actors.get? actor.id = some actor)
    (hbox : actor.mailbox = .detach other (some migration.id) :: rest)
    (hhd : actor.holds other = true) (hmig : gateway.migrations.get? migration.id = some migration)
    (hstg : migration.stage = .awaiting) (hask : gateway.Asked) (connection : ConnectionId) :
    (gateway.handOver { actor with mailbox := rest } other migration.id).residence connection =
      gateway.residence connection := by
  have hset := gateway.residence_setActor
    { actor with mailbox := rest, connections := actor.connections.erase other } hact connection
  have hwt := Actor.weight_detached hbox connection
  rw [handOver_eq hmig hstg]
  dsimp only
  have hconn := (hask _ _ _ _ hact (hbox ▸ List.mem_cons_self)).2 _ hmig
  have hmoved := residence_setMigration
    (gateway.setActor { actor with mailbox := rest, connections := actor.connections.erase other })
    { migration with stage := .handed } hmig connection
  have hbef : migration.weight connection = 0 := by
    simp [Migration.weight, hstg, Migrate.carries]
  have haft : ({ migration with stage := .handed } : Migration).weight connection =
      (decide (connection = other) && actor.holds connection).toNat := by
    by_cases hoth : connection = other
    · subst hoth
      simp [Migration.weight, hconn, Migrate.carries, hhd]
    · simp [Migration.weight, hconn, hoth, Ne.symm hoth]
  omega

theorem residence_handOver_le {rest : List Command} {other : ConnectionId}
    {task : TaskId} (hact : gateway.actors.get? actor.id = some actor)
    (hbox : actor.mailbox = .detach other (some task) :: rest)
    (hhd : actor.holds other = true) (hask : gateway.Asked) (connection : ConnectionId) :
    (gateway.handOver { actor with mailbox := rest } other task).residence connection ≤
      gateway.residence connection := by
  rcases gateway.handOver_cases { actor with mailbox := rest } other task with
    ⟨migration, hmig, hstg, -⟩ | ⟨-, hres⟩
  · obtain rfl := key_of_get? hmig
    exact (residence_handOver_of_awaiting hact hbox hhd hmig hstg hask connection).le
  · have hset := gateway.residence_setActor
      { actor with mailbox := rest, connections := actor.connections.erase other } hact connection
    have hwt := Actor.weight_detached hbox connection
    dsimp only at hres
    rw [hres]
    omega

variable {gateway' : Gateway}

/-- The actions that leave every connection in as many places as it is. -/
def Action.quiet : Action → Bool
  | .sendAttach _ | .stop _ | .deliver _ | .migrate _ _ => false
  | _ => true

variable (h : Taken gateway action gateway')

include h in
theorem Taken.residence_quiet (hnumbered : gateway.Numbered) (hqt : action.quiet = true)
    (connection : ConnectionId) :
    gateway'.residence connection = gateway.residence connection := by
  cases h with
  | create =>
    have hnone : gateway.actors.get? gateway.nextShard = none := by
      by_contra hsome
      obtain ⟨actor, hact⟩ := Option.ne_none_iff_exists'.mp hsome
      exact absurd (hnumbered.actors _ _ hact) (lt_irrefl _)
    have hinsert := sum_insert_of_none
      (a := (⟨gateway.nextShard, [], .empty⟩ : Actor)) hnone (Actor.weight connection)
    have hzero : (⟨gateway.nextShard, [], .empty⟩ : Actor).weight connection = 0 := rfl
    simp only [residence]
    omega
  | @sendDetach peer actor hpeer hsrv hact =>
    rw [residence_post (gateway.setPeer { peer with serve := .ended }) hact, residence_setPeer]
    rfl
  | @spawn other shard rest hidle hbox =>
    have hnone : gateway.migrations.get? gateway.nextTask = none := by
      by_contra hsome
      obtain ⟨migration, hmig⟩ := Option.ne_none_iff_exists'.mp hsome
      exact absurd (hnumbered.migrations _ _ hmig) (lt_irrefl _)
    have hinsert := sum_insert_of_none
      (a := (⟨gateway.nextTask, other, shard, .spawned⟩ : Migration)) hnone
      (Migration.weight connection)
    have hzero : (⟨gateway.nextTask, other, shard, .spawned⟩ : Migration).weight connection = 0 := by
      simp [Migration.weight, Migrate.carries]
    simp only [residence]
    omega
  | @publish actor peer hact hrdy hpeer =>
    have hset := residence_setActor (gateway.setPeer { peer with ready := true })
      { actor with connections := actor.connections.set peer.id false } hact connection
    have hwt := Actor.weight_published hrdy connection
    rw [residence_setPeer] at hset
    omega
  | @sendHandover migration actor hmig hstg hact =>
    have hset := gateway.residence_setMigration { migration with stage := .awaiting } hmig
      connection
    have hwt : ({ migration with stage := .awaiting } : Migration).weight connection =
        migration.weight connection := by
      simp [Migration.weight, Migrate.carries, hstg]
    rw [residence_post (gateway.setMigration { migration with stage := .awaiting }) hact]
    simp only [Command.isAttach, Bool.toNat_false]
    omega
  | @follow migration peer hmig hstg hpeer =>
    have hset := residence_setMigration
      (gateway.setPeer { peer with shard := migration.destination })
      { migration with stage := .pointed } hmig connection
    have hwt : ({ migration with stage := .pointed } : Migration).weight connection =
        migration.weight connection := by
      simp [Migration.weight, Migrate.carries, hstg]
    rw [residence_setPeer] at hset
    omega
  | @sendHeld migration actor hmig hstg hdest hact =>
    have hend := gateway.residence_endMigration hmig connection
    have hwt : migration.weight connection =
        (decide (migration.connection = connection)).toNat := by
      simp [Migration.weight, Migrate.carries, hstg]
    rw [residence_post (gateway.endMigration migration.id) hact]
    simp only [Command.isAttach]
    omega
  | _ => first | rfl | cases hqt

include h in
theorem Taken.residence_le (hnumbered : gateway.Numbered) (hask : gateway.Asked)
    (connection : ConnectionId) :
    gateway'.residence connection ≤
      gateway.residence connection + (decide (action = .sendAttach connection)).toNat := by
  by_cases hqt : action.quiet = true
  · rw [h.residence_quiet hnumbered hqt]
    exact Nat.le_add_right _ _
  cases h with
  | @sendAttach peer actor hpeer hsrv hact =>
    rw [residence_post (gateway.setPeer { peer with serve := .waiting }) hact, residence_setPeer]
    by_cases hconn : peer.id = connection <;> simp [Command.isAttach, hconn]
  | @stop shard =>
    have herase := gateway.actors.sum_erase_le shard (Actor.weight connection)
    simp only [residence]
    omega
  | @attached actor other ready rest hact hbox =>
    have hset := gateway.residence_setActor
      { actor with mailbox := rest, connections := actor.connections.set other ready } hact
      connection
    have hwt := (Actor.weight_attached hbox connection).1
    omega
  | @detached actor other rest hact hbox =>
    have hset := gateway.residence_setActor
      { actor with mailbox := rest, connections := actor.connections.erase other } hact connection
    have hwt := Actor.weight_detached hbox connection
    omega
  | handedOver hact hbox hhd hres =>
    rw [hres]
    exact (residence_handOver_le hact hbox hhd hask connection).trans (Nat.le_add_right _ _)
  | @notHeld actor other task rest hact hbox =>
    have hset := gateway.residence_setActor { actor with mailbox := rest } hact connection
    have hwt := Actor.weight_skipped hbox connection
    omega
  | @next migration act stage hmig hprog =>
    have hset := gateway.residence_setMigration { migration with stage } hmig connection
    have hzero : ({ migration with stage } : Migration).weight connection = 0 := by
      cases hprog <;> simp [Migration.weight, Migrate.carries]
    omega
  | finished hmig =>
    have hend := gateway.residence_endMigration hmig connection
    omega
  | @closed migration act peer hmig =>
    have hend := residence_endMigration (gateway.setPeer peer.close) hmig connection
    rw [residence_setPeer] at hend
    omega
  | _ => exact absurd rfl hqt

namespace Asked

variable {gateway : Gateway}

theorem setActor (h : gateway.Asked) {before : Actor}
    (hbef : gateway.actors.get? actor.id = some before)
    (hsub : ∀ connection task, .detach connection (some task) ∈ actor.mailbox →
      .detach connection (some task) ∈ before.mailbox) : (gateway.setActor actor).Asked := by
  intro shard other connection task hget hmem
  rw [Gateway.setActor, get?_insert] at hget
  split_ifs at hget with hkey
  · cases hget
    exact h _ _ connection task hbef (hsub _ _ hmem)
  · exact h _ _ connection task hget hmem

theorem setMigration (h : gateway.Asked) {migration before : Migration}
    (hbef : gateway.migrations.get? migration.id = some before)
    (hsame : migration.connection = before.connection) :
    (gateway.setMigration migration).Asked := by
  intro shard actor connection task hget hmem
  obtain ⟨hlt, hconn⟩ := h shard actor connection task hget hmem
  refine ⟨hlt, fun other hoth => ?_⟩
  rw [Gateway.setMigration, get?_insert] at hoth
  split_ifs at hoth with hkey
  · cases hoth
    rw [hsame]
    exact hconn before (hkey ▸ hbef)
  · exact hconn other hoth

theorem endMigration (h : gateway.Asked) (task : TaskId) : (gateway.endMigration task).Asked := by
  intro shard actor connection other hget hmem
  obtain ⟨hlt, hconn⟩ := h shard actor connection other hget hmem
  refine ⟨hlt, fun migration hmig => ?_⟩
  rw [Gateway.endMigration, get?_erase] at hmig
  split_ifs at hmig
  exact hconn migration hmig

theorem post (h : gateway.Asked) (hact : gateway.actors.get? actor.id = some actor)
    {command : Command}
    (hcmd : ∀ connection task, command = .detach connection (some task) →
      task < gateway.nextTask ∧ ∀ migration, gateway.migrations.get? task = some migration →
        migration.connection = connection) : (gateway.post actor command).Asked := by
  intro shard other connection task hget hmem
  rw [Gateway.post, Gateway.setActor, get?_insert] at hget
  split_ifs at hget with hkey
  · cases hget
    rcases List.mem_append.mp hmem with hold | hnew
    · exact h _ _ connection task hact hold
    · exact hcmd connection task (List.mem_singleton.mp hnew).symm
  · exact h _ _ connection task hget hmem

end Asked

include h in
theorem Taken.asked (hn : gateway.Numbered) (ha : gateway.Asked) : gateway'.Asked := by
  cases h with
  | create =>
    intro shard actor connection task hget hmem
    rw [get?_insert] at hget
    split_ifs at hget
    · cases hget
      cases hmem
    · exact ha _ _ connection task hget hmem
  | @sendAttach peer _ hpeer hsrv hact =>
    have hframe : (gateway.setPeer { peer with serve := .waiting }).Asked := ha
    exact hframe.post hact (fun _ _ heq => by cases heq)
  | @sendDetach peer _ hpeer hsrv hact =>
    have hframe : (gateway.setPeer { peer with serve := .ended }).Asked := ha
    exact hframe.post hact (fun _ _ heq => by cases heq)
  | spawn =>
    intro shard actor connection task hget hmem
    obtain ⟨hlt, hconn⟩ := ha shard actor connection task hget hmem
    refine ⟨hlt.trans (Nat.lt_succ_self _), fun migration hmig => ?_⟩
    rw [get?_insert, if_neg hlt.ne] at hmig
    exact hconn migration hmig
  | stop =>
    intro id actor connection task hget hmem
    rw [get?_erase] at hget
    split_ifs at hget
    exact ha _ _ connection task hget hmem
  | attached hact hbox
  | detached hact hbox
  | notHeld hact hbox =>
    refine ha.setActor hact fun connection task hmem => ?_
    rw [hbox]
    exact List.mem_cons_of_mem _ hmem
  | @handedOver actor connection task rest _ hact hbox _ hres =>
    rw [hres]
    have hframe : (gateway.setActor { actor with
        mailbox := rest, connections := actor.connections.erase connection }).Asked := by
      refine ha.setActor hact fun connection task hmem => ?_
      rw [hbox]
      exact List.mem_cons_of_mem _ hmem
    rcases gateway.handOver_cases { actor with mailbox := rest } connection task with
      ⟨migration, hmig, -, heq⟩ | ⟨-, heq⟩
    · rw [heq]
      have hid := key_of_get? hmig
      subst hid
      exact hframe.setMigration hmig rfl
    · rw [heq]
      exact hframe
  | @publish _ peer hact =>
    have hframe : (gateway.setPeer { peer with ready := true }).Asked := ha
    exact hframe.setActor hact (fun _ _ hmem => hmem)
  | next hmig => exact ha.setMigration hmig rfl
  | finished => exact ha.endMigration _
  | @closed _ _ peer =>
    have hframe : (gateway.setPeer peer.close).Asked := ha
    exact hframe.endMigration _
  | @sendHandover migration _ hmig hstg hact =>
    have hframe : (gateway.setMigration { migration with stage := .awaiting }).Asked :=
      ha.setMigration hmig rfl
    refine hframe.post hact fun connection task heq => ?_
    cases heq
    refine ⟨hn.migrations _ _ hmig, fun other hoth => ?_⟩
    rw [setMigration, get?_insert, if_pos rfl] at hoth
    cases hoth
    rfl
  | @follow migration peer hmig =>
    have hframe : (gateway.setPeer { peer with shard := migration.destination }).Asked := ha
    exact hframe.setMigration hmig rfl
  | sendHeld hmig hstg hdest hact =>
    exact (ha.endMigration _).post hact (fun _ _ heq => by cases heq)
  | _ => exact ha

theorem Advances.isEarly {peer peer' : Peer} {act : ServeAction}
    (h : Advances gateway peer act peer') (hearly : peer'.serve.isEarly = true) :
    peer.serve.isEarly = true := by
  cases h <;> simp_all [Serve.isEarly]

theorem PeerFate.isEarly {peer peer' : Peer}
    (h : PeerFate gateway peer action peer') (hearly : peer'.serve.isEarly = true) :
    peer.serve.isEarly = true := by
  cases h with
  | serve hadv => exact hadv.isEarly hearly
  | sendAttach => cases hearly
  | sendDetach => cases hearly
  | _ => exact hearly

include h in
theorem Taken.allowance_le (hn : gateway.Numbered) (connection : ConnectionId) :
    gateway.allowance connection + (decide (action = .sendAttach connection)).toNat ≤
      gateway'.allowance connection := by
  by_cases hsend : action = .sendAttach connection
  · subst hsend
    cases h with
    | @sendAttach peer actor hpeer hsrv hact =>
      have hbef : gateway.allowance peer.id = 0 := by
        simp [allowance, hpeer, hsrv, Serve.isEarly]
      rw [hbef]
      simp [allowance, post, setActor, setPeer, Serve.isEarly]
  · simp only [hsend, decide_false, Bool.toNat_false, Nat.add_zero]
    cases hpeer : gateway.peers.get? connection with
    | none => simp [allowance, hpeer]
    | some peer =>
      obtain ⟨peer', hpeer', hfate⟩ := h.peer hn hpeer
      simp only [allowance, hpeer, hpeer']
      split_ifs with hbef haft haft
      · exact le_rfl
      · exact Nat.zero_le _
      · exact absurd (hfate.isEarly haft) hbef
      · exact le_rfl

structure Lodged (gateway : Gateway) : Prop where
  numbered : gateway.Numbered
  asked : gateway.Asked
  residence : ∀ connection, gateway.residence connection ≤ gateway.allowance connection

theorem start_lodged : Gateway.start.Lodged where
  numbered := by constructor <;> simp [start]
  asked := by simp [Asked, start]
  residence := by simp [residence, start]

include h in
theorem Taken.lodged (hl : gateway.Lodged) :
    gateway'.Lodged where
  numbered := h.numbered hl.numbered
  asked := h.asked hl.numbered hl.asked
  residence := by
    intro connection
    calc gateway'.residence connection
        ≤ gateway.residence connection + (decide (action = .sendAttach connection)).toNat :=
          h.residence_le hl.numbered hl.asked connection
      _ ≤ gateway.allowance connection + (decide (action = .sendAttach connection)).toNat :=
          Nat.add_le_add_right (hl.residence connection) _
      _ ≤ gateway'.allowance connection := h.allowance_le hl.numbered connection

theorem Reaches.lodged {allowed : Gateway → Action → Prop}
    (h : Reaches Gateway.step allowed Gateway.start gateway) : gateway.Lodged :=
  h.invariant start_lodged fun _ _ _ hl _ hstep => (step_taken hstep).lodged hl

theorem allowance_le_one (gateway : Gateway) (connection : ConnectionId) :
    gateway.allowance connection ≤ 1 := by
  unfold allowance
  cases gateway.peers.get? connection with
  | none => exact Nat.zero_le _
  | some peer =>
    simp only
    split_ifs
    · exact Nat.zero_le _
    · exact le_rfl

end Gateway

open Gateway in
theorem single_residence {gateway : Gateway}
    (h : Reaches Gateway.step (fun _ _ => True) Gateway.start gateway) (connection : ConnectionId) :
    (∀ s t actor other, gateway.actors.get? s = some actor → gateway.actors.get? t = some other →
      actor.holds connection = true → other.holds connection = true → s = t) ∧
    gateway.residence connection ≤ 1 := by
  have hone := ((Reaches.lodged h).residence connection).trans (gateway.allowance_le_one connection)
  refine ⟨fun s t actor other hs ht hhd hoth => ?_, hone⟩
  by_contra hne
  have htwo := add_le_sum_of_get? hs ht hne (Actor.weight connection)
  simp only [residence] at hone
  simp only [Actor.weight, hhd, hoth, Bool.toNat_true] at htwo
  omega

open Gateway in
def movingActions : List Action :=
  [.create, .create, .reserve, .serve 0 (.route 0), .serve 0 .insert, .serve 0 .lookup,
    .serve 0 .point, .sendAttach 0, .deliver 0, .publish 0 0, .serve 0 .ready, .requestMove 0 1,
    .supervise, .migrate 0 .find, .migrate 0 .readSource, .migrate 0 .look, .sendHandover 0,
    .deliver 0]

def movingGateway : Gateway :=
  (runActions Gateway.step Gateway.start movingActions).getD Gateway.start

theorem single_residence_moving : movingGateway.residence 0 = 1 ∧ movingGateway.residence 0 ≤ 1 :=
  ⟨by decide +kernel, (single_residence
    (reaches_of_run (eq_some_getD (by decide +kernel)) (allAllowed_true _ movingActions)) 0).2⟩

end MumbleRuntime
