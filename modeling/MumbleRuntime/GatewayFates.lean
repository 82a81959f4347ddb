import MumbleRuntime.GatewaySteps

/-!
# What a step does to one record

The same step seen from one connection, one shard and one migration: the record
is left alone, or it changes in one of a few ways, each with the guard the step
passed. New records carry numbers that were never used.
-/

namespace MumbleRuntime

open Library Table OrderedSet

variable {action : Gateway.Action} {connection : ConnectionId}

namespace Gateway

variable {gateway : Gateway}

theorem Advances.id_eq {peer peer' : Peer} {act : ServeAction}
    (h : Advances gateway peer act peer') : peer'.id = peer.id := by
  cases h <;> rfl

variable {task : TaskId}

theorem handOver_eq {actor : Actor} {migration : Migration}
    (hmig : gateway.migrations.get? task = some migration) (hstg : migration.stage = .awaiting) :
    gateway.handOver actor connection task =
      (gateway.setActor { actor with connections := actor.connections.erase connection }).setMigration
        { migration with stage := .handed } := by
  simp only [handOver, setActor, hmig, hstg, if_true]

theorem handOver_of_not_awaiting {actor : Actor}
    (h : ∀ migration, gateway.migrations.get? task = some migration → migration.stage ≠ .awaiting) :
    gateway.handOver actor connection task =
      gateway.setActor { actor with connections := actor.connections.erase connection } := by
  simp only [handOver, setActor]
  cases hmig : gateway.migrations.get? task with
  | none => rfl
  | some migration => simp [h migration hmig]

theorem handOver_cases (gateway : Gateway) (actor : Actor) (connection : ConnectionId)
    (task : TaskId) :
    (∃ migration, gateway.migrations.get? task = some migration ∧ migration.stage = .awaiting ∧
      gateway.handOver actor connection task =
        (gateway.setActor
          { actor with connections := actor.connections.erase connection }).setMigration
          { migration with stage := .handed }) ∨
    ((∀ migration, gateway.migrations.get? task = some migration → migration.stage ≠ .awaiting) ∧
      gateway.handOver actor connection task =
        gateway.setActor { actor with connections := actor.connections.erase connection }) := by
  by_cases h : ∃ migration, gateway.migrations.get? task = some migration ∧
      migration.stage = .awaiting
  · obtain ⟨migration, hmig, hstg⟩ := h
    exact .inl ⟨migration, hmig, hstg, handOver_eq hmig hstg⟩
  · have hnot : ∀ migration, gateway.migrations.get? task = some migration →
        migration.stage ≠ .awaiting := fun migration hmig hstg =>
      h ⟨migration, hmig, hstg⟩
    exact .inr ⟨hnot, handOver_of_not_awaiting hnot⟩

structure Numbered (gateway : Gateway) : Prop where
  peers : ∀ id peer, gateway.peers.get? id = some peer → id < gateway.nextConnection
  migrations : ∀ id migration, gateway.migrations.get? id = some migration → id < gateway.nextTask
  shards : ∀ id, gateway.listed.contains id = true → id < gateway.nextShard
  actors : ∀ id actor, gateway.actors.get? id = some actor → id < gateway.nextShard
  alive : ∀ id, gateway.listed.contains id = true → ∃ actor, gateway.actors.get? id = some actor

namespace Numbered

variable {gateway : Gateway}

section

variable (h : gateway.Numbered)

include h

theorem setPeer {peer : Peer} (hid : peer.id < gateway.nextConnection) :
    (gateway.setPeer peer).Numbered where
  peers := by
    intro id other hget
    rw [Gateway.setPeer, get?_insert] at hget
    split_ifs at hget with hkey
    · rw [hkey]
      exact hid
    · exact h.peers id other hget
  migrations := h.migrations
  shards := h.shards
  actors := h.actors
  alive := h.alive

theorem setActor {actor : Actor} (hid : actor.id < gateway.nextShard) :
    (gateway.setActor actor).Numbered where
  peers := h.peers
  migrations := h.migrations
  shards := h.shards
  actors := by
    intro id other hget
    rw [Gateway.setActor, get?_insert] at hget
    split_ifs at hget with hkey
    · rw [hkey]
      exact hid
    · exact h.actors id other hget
  alive := by
    intro id hlst
    obtain ⟨other, hoth⟩ := h.alive id hlst
    rw [Gateway.setActor, get?_insert]
    split_ifs
    · exact ⟨actor, rfl⟩
    · exact ⟨other, hoth⟩

theorem setMigration {migration : Migration}
    (hid : migration.id < gateway.nextTask) : (gateway.setMigration migration).Numbered where
  peers := h.peers
  migrations := by
    intro id other hget
    rw [Gateway.setMigration, get?_insert] at hget
    split_ifs at hget with hkey
    · rw [hkey]
      exact hid
    · exact h.migrations id other hget
  shards := h.shards
  actors := h.actors
  alive := h.alive

theorem endMigration (task : TaskId) :
    (gateway.endMigration task).Numbered where
  peers := h.peers
  migrations := by
    intro id other hget
    rw [Gateway.endMigration, get?_erase] at hget
    split_ifs at hget
    exact h.migrations id other hget
  shards := h.shards
  actors := h.actors
  alive := h.alive

theorem create :
    ({ gateway with
      listed := gateway.listed.insert gateway.nextShard
      actors := gateway.actors.insert ⟨gateway.nextShard, [], .empty⟩
      nextShard := gateway.nextShard + 1 } : Gateway).Numbered where
  peers := h.peers
  migrations := h.migrations
  shards := by
    intro id hlst
    rw [contains_insert] at hlst
    rcases Bool.or_eq_true _ _ ▸ hlst with hnew | hold
    · rw [decide_eq_true_eq.mp hnew]
      exact Nat.lt_succ_self _
    · exact (h.shards id hold).trans (Nat.lt_succ_self _)
  actors := by
    intro id actor hget
    rw [get?_insert] at hget
    split_ifs at hget with hkey
    · rw [hkey]
      exact Nat.lt_succ_self _
    · exact (h.actors id actor hget).trans (Nat.lt_succ_self _)
  alive := by
    intro id hlst
    rw [get?_insert]
    split_ifs with hkey
    · exact ⟨_, rfl⟩
    · refine h.alive id ?_
      simpa [hkey] using hlst

theorem reserve :
    ({ gateway with
      peers := gateway.peers.insert
        ⟨gateway.nextConnection, .reserved, 0, false, false, false, false⟩
      nextConnection := gateway.nextConnection + 1 } : Gateway).Numbered where
  peers := by
    intro id peer hget
    rw [get?_insert] at hget
    split_ifs at hget with hkey
    · rw [hkey]
      exact Nat.lt_succ_self _
    · exact (h.peers id peer hget).trans (Nat.lt_succ_self _)
  migrations := h.migrations
  shards := h.shards
  actors := h.actors
  alive := h.alive

theorem spawn (connection : ConnectionId) (shard : ShardId) (mailbox : List RuntimeCommand) :
    ({ gateway with
      mailbox
      migrations := gateway.migrations.insert ⟨gateway.nextTask, connection, shard, .spawned⟩
      nextTask := gateway.nextTask + 1 } : Gateway).Numbered where
  peers := h.peers
  migrations := by
    intro id migration hget
    rw [get?_insert] at hget
    split_ifs at hget with hkey
    · rw [hkey]
      exact Nat.lt_succ_self _
    · exact (h.migrations id migration hget).trans (Nat.lt_succ_self _)
  shards := h.shards
  actors := h.actors
  alive := h.alive

theorem unlist (shard : ShardId) :
    ({ gateway with listed := gateway.listed.erase shard, destroying := none } :
      Gateway).Numbered where
  peers := h.peers
  migrations := h.migrations
  shards := by
    intro id hlst
    rw [contains_erase, Bool.and_eq_true] at hlst
    exact h.shards id (by simpa using hlst.2)
  actors := h.actors
  alive := by
    intro id hlst
    rw [contains_erase, Bool.and_eq_true] at hlst
    exact h.alive id (by simpa using hlst.2)

theorem stop {shard : ShardId} (hlst : gateway.listed.contains shard = false) :
    ({ gateway with actors := gateway.actors.erase shard } : Gateway).Numbered where
  peers := h.peers
  migrations := h.migrations
  shards := h.shards
  actors := by
    intro id actor hget
    rw [get?_erase] at hget
    split_ifs at hget
    exact h.actors id actor hget
  alive := by
    intro id hid
    have hne : id ≠ shard := by
      rintro rfl
      rw [hlst] at hid
      cases hid
    rw [get?_erase, if_neg hne]
    exact h.alive id hid

end

end Numbered

variable {gateway' : Gateway}

variable (h : Taken gateway action gateway') (hn : gateway.Numbered)

include h hn in
theorem Taken.numbered : gateway'.Numbered := by
  cases h with
  | create => exact hn.create
  | reserve => exact hn.reserve
  | serve hpeer hadv =>
    refine hn.setPeer ?_
    rw [hadv.id_eq]
    exact hn.peers _ _ hpeer
  | sendAttach hpeer hsrv hact
  | sendDetach hpeer hsrv hact
  | publish hact hrdy hpeer =>
    refine Numbered.setActor (Numbered.setPeer hn ?_) ?_
    · exact hn.peers _ _ hpeer
    · exact hn.actors _ _ hact
  | spawn => exact hn.spawn _ _ _
  | @close shard peer rest hdes hpeer =>
    have hframe : ({ gateway with destroying := some (shard, rest) } : Gateway).Numbered :=
      ⟨hn.peers, hn.migrations, hn.shards, hn.actors, hn.alive⟩
    refine hframe.setPeer ?_
    exact hn.peers _ _ hpeer
  | unlist => exact hn.unlist _
  | stop hlst => exact hn.stop hlst
  | attached hact
  | detached hact
  | notHeld hact => exact hn.setActor (hn.actors _ _ hact)
  | @handedOver actor connection task rest _ hact _ _ hres =>
    rw [hres]
    rcases gateway.handOver_cases { actor with mailbox := rest } connection task with
      ⟨migration, hmig, -, heq⟩ | ⟨-, heq⟩
    · rw [heq]
      have hid := key_of_get? hmig
      subst hid
      refine Numbered.setMigration (Numbered.setActor hn ?_) ?_
      · exact hn.actors _ _ hact
      · exact hn.migrations _ _ hmig
    · rw [heq]
      exact hn.setActor (hn.actors _ _ hact)
  | markFatal hpeer => exact hn.setPeer (hn.peers _ _ hpeer)
  | next hmig => exact hn.setMigration (hn.migrations _ _ hmig)
  | finished => exact hn.endMigration _
  | closed hmig hprog hpeer =>
    have hid := key_of_get? hpeer
    exact (hn.setPeer (by simpa [Peer.close, hid] using hn.peers _ _ hpeer)).endMigration _
  | sendHandover hmig hstg hact =>
    refine Numbered.setActor (Numbered.setMigration hn ?_) ?_
    · exact hn.migrations _ _ hmig
    · exact hn.actors _ _ hact
  | follow hmig hstg hpeer =>
    have hid := key_of_get? hpeer
    exact (hn.setPeer (by simpa [hid] using hn.peers _ _ hpeer)).setMigration
      (hn.migrations _ _ hmig)
  | sendHeld hmig hstg hdest hact =>
    exact (hn.endMigration _).setActor (hn.actors _ _ hact)
  | _ => exact ⟨hn.peers, hn.migrations, hn.shards, hn.actors, hn.alive⟩

inductive PeerFate (gateway : Gateway) (peer : Peer) : Action → Peer → Prop
  | rest {action : Action} : PeerFate gateway peer action peer
  | serve {peer' : Peer} {act : ServeAction} (hadvance : Advances gateway peer act peer') :
      PeerFate gateway peer (.serve peer.id act) peer'
  | sendAttach {actor : Actor} (hserve : peer.serve = .pointed actor.id)
      (hactor : gateway.actors.get? actor.id = some actor) :
      PeerFate gateway peer (.sendAttach peer.id) { peer with serve := .waiting }
  | sendDetach {actor : Actor} (hserve : peer.serve = .detaching actor.id)
      (hactor : gateway.actors.get? actor.id = some actor) :
      PeerFate gateway peer (.sendDetach peer.id) { peer with serve := .ended }
  | destroyed {rest : List ConnectionId}
      (hdestroying : gateway.destroying = some (peer.shard, peer.id :: rest)) :
      PeerFate gateway peer .check { peer with mustClose := true }
  | fatal : PeerFate gateway peer (.markFatal peer.id) { peer with mustClose := true }
  | published {actor : Actor} (hactor : gateway.actors.get? actor.id = some actor)
      (hready : actor.connections.find? peer.id = some true) :
      PeerFate gateway peer (.publish actor.id peer.id) { peer with ready := true }
  | closed {migration : Migration} {act : MigrateAction}
      (hmigration : gateway.migrations.get? migration.id = some migration)
      (hconnection : migration.connection = peer.id)
      (hprogress : Progress gateway migration act .closed) :
      PeerFate gateway peer (.migrate migration.id act) peer.close
  | followed {migration : Migration}
      (hmigration : gateway.migrations.get? migration.id = some migration)
      (hconnection : migration.connection = peer.id) (hstage : migration.stage = .handed) :
      PeerFate gateway peer (.follow migration.id) { peer with shard := migration.destination }

theorem get?_setPeer (gateway : Gateway) (peer : Peer) (connection : ConnectionId) :
    (gateway.setPeer peer).peers.get? connection =
      if connection = peer.id then some peer else gateway.peers.get? connection :=
  get?_insert _ _ _

theorem exists_fate_setPeer {peer before changed : Peer}
    (hpeer : gateway.peers.get? connection = some peer)
    (hbef : gateway.peers.get? before.id = some before) (hid : changed.id = before.id)
    (hfate : PeerFate gateway before action changed) :
    ∃ peer', (gateway.setPeer changed).peers.get? connection = some peer' ∧
      PeerFate gateway peer action peer' := by
  rw [get?_setPeer, hid]
  split_ifs with hkey
  · rw [hkey, hbef] at hpeer
    cases hpeer
    exact ⟨changed, rfl, hfate⟩
  · exact ⟨peer, hpeer, .rest⟩

theorem handOver_peers (gateway : Gateway) (actor : Actor) (connection : ConnectionId)
    (task : TaskId) : (gateway.handOver actor connection task).peers = gateway.peers := by
  simp only [handOver]
  split
  · split_ifs <;> rfl
  · rfl

include h hn in
theorem Taken.peer {peer : Peer} (hpeer : gateway.peers.get? connection = some peer) :
    ∃ peer', gateway'.peers.get? connection = some peer' ∧ PeerFate gateway peer action peer' := by
  cases h with
  | reserve =>
    have hne := (hn.peers _ _ hpeer).ne
    exact ⟨peer, by rw [get?_insert, if_neg hne, hpeer], .rest⟩
  | serve hbef hadv =>
    exact exists_fate_setPeer hpeer hbef hadv.id_eq (.serve hadv)
  | sendAttach hbef hsrv hact =>
    exact exists_fate_setPeer hpeer hbef rfl (.sendAttach hsrv hact)
  | sendDetach hbef hsrv hact =>
    exact exists_fate_setPeer hpeer hbef rfl (.sendDetach hsrv hact)
  | close hdes hbef hsh =>
    exact exists_fate_setPeer hpeer hbef rfl (.destroyed (hsh ▸ hdes))
  | handedOver _ _ _ hres =>
    rw [hres, handOver_peers]
    exact ⟨peer, hpeer, .rest⟩
  | publish hact hrdy hbef =>
    exact exists_fate_setPeer hpeer hbef rfl (.published hact hrdy)
  | markFatal hbef => exact exists_fate_setPeer hpeer hbef rfl .fatal
  | closed hmig hprog hbef =>
    obtain hid := key_of_get? hbef
    rw [← hid] at hbef
    exact exists_fate_setPeer hpeer hbef rfl (.closed hmig hid.symm hprog)
  | follow hmig hstg hbef =>
    obtain hid := key_of_get? hbef
    rw [← hid] at hbef
    exact exists_fate_setPeer hpeer hbef rfl (.followed hmig hid.symm hstg)
  | _ => exact ⟨peer, hpeer, .rest⟩

theorem setPeer_none {peer before : Peer}
    (hbef : gateway.peers.get? before.id = some before) (hid : peer.id = before.id)
    (hnone : gateway.peers.get? connection = none) :
    (gateway.setPeer peer).peers.get? connection = none := by
  rw [get?_setPeer, hid, if_neg, hnone]
  rintro rfl
  rw [hnone] at hbef
  cases hbef

theorem Taken.peer_none (h : Taken gateway action gateway') (hreserve : action ≠ .reserve)
    (hnone : gateway.peers.get? connection = none) : gateway'.peers.get? connection = none := by
  cases h with
  | reserve => exact absurd rfl hreserve
  | serve hbef hadv => exact setPeer_none hbef hadv.id_eq hnone
  | sendAttach hbef
  | sendDetach hbef
  | close _ hbef
  | publish _ _ hbef
  | markFatal hbef =>
    exact setPeer_none hbef rfl hnone
  | closed _ _ hbef
  | follow _ _ hbef =>
    have hid := key_of_get? hbef
    rw [← hid] at hbef
    exact setPeer_none hbef rfl hnone
  | handedOver _ _ _ hres =>
    rw [hres, handOver_peers]
    exact hnone
  | _ => exact hnone

include h hn in
theorem Taken.peer_cases {peer' : Peer} (hpeer' : gateway'.peers.get? connection = some peer') :
    (∃ peer, gateway.peers.get? connection = some peer ∧ PeerFate gateway peer action peer') ∨
    (action = .reserve ∧ gateway.peers.get? connection = none ∧ peer'.serve = .reserved ∧
      peer'.mustClose = false ∧ peer'.registered = false ∧ peer'.abandoned = false) := by
  cases hpeer : gateway.peers.get? connection with
  | some peer =>
    obtain ⟨other, hoth, hfate⟩ := h.peer hn hpeer
    rw [hpeer'] at hoth
    cases hoth
    exact .inl ⟨peer, rfl, hfate⟩
  | none =>
    by_cases hreserve : action = .reserve
    · subst hreserve
      cases h
      rw [get?_insert] at hpeer'
      split_ifs at hpeer'
      · cases hpeer'
        exact .inr ⟨rfl, rfl, rfl, rfl, rfl, rfl⟩
      · rw [hpeer] at hpeer'
        cases hpeer'
    · rw [h.peer_none hreserve hpeer] at hpeer'
      cases hpeer'

inductive ActorFate (gateway : Gateway) (actor : Actor) : Action → Actor → Prop
  | rest {action : Action} : ActorFate gateway actor action actor
  | attachSent {peer : Peer} (hpeer : gateway.peers.get? peer.id = some peer)
      (hserve : peer.serve = .pointed actor.id) :
      ActorFate gateway actor (.sendAttach peer.id)
        { actor with mailbox := actor.mailbox ++ [.attach peer.id true] }
  | detachSent {peer : Peer} (hpeer : gateway.peers.get? peer.id = some peer)
      (hserve : peer.serve = .detaching actor.id) :
      ActorFate gateway actor (.sendDetach peer.id)
        { actor with mailbox := actor.mailbox ++ [.detach peer.id none] }
  | handoverSent {migration : Migration}
      (hmigration : gateway.migrations.get? migration.id = some migration)
      (hstage : migration.stage = .looked actor.id true) :
      ActorFate gateway actor (.sendHandover migration.id)
        { actor with
          mailbox := actor.mailbox ++ [.detach migration.connection (some migration.id)] }
  | heldSent {migration : Migration}
      (hmigration : gateway.migrations.get? migration.id = some migration)
      (hstage : migration.stage = .pointed) (hdestination : migration.destination = actor.id) :
      ActorFate gateway actor (.sendHeld migration.id)
        { actor with mailbox := actor.mailbox ++ [.attach migration.connection false] }
  | attached {connection : ConnectionId} {ready : Bool} {rest : List Command}
      (hmailbox : actor.mailbox = .attach connection ready :: rest) :
      ActorFate gateway actor (.deliver actor.id)
        { actor with mailbox := rest, connections := actor.connections.set connection ready }
  | detached {connection : ConnectionId} {handover : Option TaskId} {rest : List Command}
      (hmailbox : actor.mailbox = .detach connection handover :: rest)
      (hholds : handover = none ∨ actor.holds connection = true) :
      ActorFate gateway actor (.deliver actor.id)
        { actor with mailbox := rest, connections := actor.connections.erase connection }
  | notHeld {connection : ConnectionId} {task : TaskId} {rest : List Command}
      (hmailbox : actor.mailbox = .detach connection (some task) :: rest)
      (hholds : actor.holds connection = false) :
      ActorFate gateway actor (.deliver actor.id) { actor with mailbox := rest }
  | published {peer : Peer} (hpeer : gateway.peers.get? peer.id = some peer)
      (hready : actor.connections.find? peer.id = some true) :
      ActorFate gateway actor (.publish actor.id peer.id)
        { actor with connections := actor.connections.set peer.id false }

theorem get?_setActor (gateway : Gateway) (actor : Actor) (shard : ShardId) :
    (gateway.setActor actor).actors.get? shard =
      if shard = actor.id then some actor else gateway.actors.get? shard :=
  get?_insert _ _ _

variable {shard : ShardId}

theorem exists_fate_setActor {actor before changed : Actor}
    (hact : gateway.actors.get? shard = some actor)
    (hbef : gateway.actors.get? before.id = some before) (hid : changed.id = before.id)
    (hfate : ActorFate gateway before action changed) :
    ∃ actor', (gateway.setActor changed).actors.get? shard = some actor' ∧
      ActorFate gateway actor action actor' := by
  rw [get?_setActor, hid]
  split_ifs with hkey
  · rw [hkey, hbef] at hact
    cases hact
    exact ⟨changed, rfl, hfate⟩
  · exact ⟨actor, hact, .rest⟩

theorem handOver_actors (gateway : Gateway) (actor : Actor) (connection : ConnectionId)
    (task : TaskId) : (gateway.handOver actor connection task).actors =
      (gateway.setActor { actor with connections := actor.connections.erase connection }).actors := by
  simp only [handOver]
  split
  · split_ifs <;> rfl
  · rfl

include h hn in
theorem Taken.actor {actor : Actor} (hact : gateway.actors.get? shard = some actor) :
    (∃ actor', gateway'.actors.get? shard = some actor' ∧ ActorFate gateway actor action actor') ∨
      (action = .stop shard ∧ gateway.listed.contains shard = false) := by
  cases h with
  | create =>
    have hne := (hn.actors _ _ hact).ne
    exact .inl ⟨actor, by rw [get?_insert, if_neg hne, hact], .rest⟩
  | sendAttach hpeer hsrv hbef =>
    exact .inl (exists_fate_setActor hact hbef rfl (.attachSent hpeer hsrv))
  | sendDetach hpeer hsrv hbef =>
    exact .inl (exists_fate_setActor hact hbef rfl (.detachSent hpeer hsrv))
  | @stop other hlst =>
    by_cases hkey : shard = other
    · exact .inr ⟨by rw [hkey], by rw [hkey]; exact hlst⟩
    · exact .inl ⟨actor, by rw [get?_erase, if_neg hkey, hact], .rest⟩
  | attached hbef hbox =>
    exact .inl (exists_fate_setActor hact hbef rfl (.attached hbox))
  | detached hbef hbox =>
    exact .inl (exists_fate_setActor hact hbef rfl (.detached hbox (.inl rfl)))
  | handedOver hbef hbox hhd hres =>
    rw [hres, handOver_actors]
    exact .inl (exists_fate_setActor hact hbef rfl (.detached hbox (.inr hhd)))
  | notHeld hbef hbox hhd =>
    exact .inl (exists_fate_setActor hact hbef rfl (.notHeld hbox hhd))
  | publish hbef hrdy hpeer =>
    exact .inl (exists_fate_setActor hact hbef rfl (.published hpeer hrdy))
  | sendHandover hmig hstg hbef =>
    exact .inl (exists_fate_setActor hact hbef rfl (.handoverSent hmig hstg))
  | sendHeld hmig hstg hdest hbef =>
    exact .inl (exists_fate_setActor hact hbef rfl (.heldSent hmig hstg hdest))
  | _ => exact .inl ⟨actor, hact, .rest⟩

theorem setActor_none {actor before : Actor}
    (hbef : gateway.actors.get? before.id = some before) (hid : actor.id = before.id)
    (hnone : gateway.actors.get? shard = none) :
    (gateway.setActor actor).actors.get? shard = none := by
  rw [get?_setActor, hid, if_neg, hnone]
  rintro rfl
  rw [hnone] at hbef
  cases hbef

theorem Taken.actor_none (h : Taken gateway action gateway')
    (hcreate : action ≠ .create) (hnone : gateway.actors.get? shard = none) :
    gateway'.actors.get? shard = none := by
  cases h with
  | create => exact absurd rfl hcreate
  | sendAttach hpeer hsrv hbef
  | sendDetach hpeer hsrv hbef
  | attached hbef
  | detached hbef
  | notHeld hbef
  | publish hbef
  | sendHandover _ _ hbef
  | sendHeld _ _ _ hbef =>
    exact setActor_none hbef rfl hnone
  | stop =>
    rw [get?_erase, hnone]
    split_ifs <;> rfl
  | handedOver hbef _ _ hres =>
    rw [hres, handOver_actors]
    exact setActor_none hbef rfl hnone
  | _ => exact hnone

include h hn in
theorem Taken.actor_cases {actor' : Actor} (hact' : gateway'.actors.get? shard = some actor') :
    (∃ actor, gateway.actors.get? shard = some actor ∧ ActorFate gateway actor action actor') ∨
    (action = .create ∧ actor'.mailbox = [] ∧ actor'.connections = .empty) := by
  cases hact : gateway.actors.get? shard with
  | some actor =>
    rcases h.actor hn hact with ⟨other, hoth, hfate⟩ | ⟨rfl, hlst⟩
    · rw [hact'] at hoth
      cases hoth
      exact .inl ⟨actor, rfl, hfate⟩
    · cases h
      simp at hact'
  | none =>
    by_cases hcreate : action = .create
    · subst hcreate
      cases h
      rw [get?_insert] at hact'
      split_ifs at hact'
      · cases hact'
        exact .inr ⟨rfl, rfl, rfl⟩
      · rw [hact] at hact'
        cases hact'
    · rw [h.actor_none hcreate hact] at hact'
      cases hact'

inductive MigrationFate (gateway : Gateway) (migration : Migration) : Action → Migration → Prop
  | rest {action : Action} : MigrationFate gateway migration action migration
  | next {act : MigrateAction} {stage : Migrate}
      (hprogress : Progress gateway migration act (.next stage)) :
      MigrationFate gateway migration (.migrate migration.id act) { migration with stage }
  | asked {actor : Actor} (hstage : migration.stage = .looked actor.id true)
      (hactor : gateway.actors.get? actor.id = some actor) :
      MigrationFate gateway migration (.sendHandover migration.id)
        { migration with stage := .awaiting }
  | handed {actor : Actor} {connection : ConnectionId} {rest : List Command}
      (hactor : gateway.actors.get? actor.id = some actor)
      (hmailbox : actor.mailbox = .detach connection (some migration.id) :: rest)
      (hholds : actor.holds connection = true) (hstage : migration.stage = .awaiting) :
      MigrationFate gateway migration (.deliver actor.id) { migration with stage := .handed }
  | followed {peer : Peer} (hpeer : gateway.peers.get? migration.connection = some peer)
      (hstage : migration.stage = .handed) :
      MigrationFate gateway migration (.follow migration.id) { migration with stage := .pointed }

theorem get?_setMigration (gateway : Gateway) (migration : Migration) (task : TaskId) :
    (gateway.setMigration migration).migrations.get? task =
      if task = migration.id then some migration else gateway.migrations.get? task :=
  get?_insert _ _ _

variable {migration' : Migration}

theorem fate_of_setMigration {before changed : Migration}
    (h : (gateway.setMigration changed).migrations.get? task = some migration')
    (hbef : gateway.migrations.get? before.id = some before) (hid : changed.id = before.id)
    (hfate : MigrationFate gateway before action changed) :
    ∃ migration, gateway.migrations.get? task = some migration ∧
      MigrationFate gateway migration action migration' := by
  rw [get?_setMigration, hid] at h
  split_ifs at h with hkey
  · cases h
    exact ⟨before, by rw [hkey, hbef], hfate⟩
  · exact ⟨migration', h, .rest⟩

theorem fate_of_endMigration {other : TaskId}
    (h : (gateway.endMigration other).migrations.get? task = some migration') :
    ∃ migration, gateway.migrations.get? task = some migration ∧
      MigrationFate gateway migration action migration' := by
  rw [endMigration, get?_erase] at h
  split_ifs at h
  exact ⟨migration', h, .rest⟩

theorem Taken.migration_cases (h : Taken gateway action gateway')
    (hmig' : gateway'.migrations.get? task = some migration') :
    (∃ migration, gateway.migrations.get? task = some migration ∧
      MigrationFate gateway migration action migration') ∨
    (action = .supervise ∧ task = gateway.nextTask ∧ migration'.stage = .spawned ∧
      .move migration'.connection migration'.destination ∈ gateway.mailbox) := by
  cases h with
  | spawn hidle hbox =>
    rw [get?_insert] at hmig'
    split_ifs at hmig' with hkey
    · cases hmig'
      exact .inr ⟨rfl, hkey, rfl, hbox ▸ List.mem_cons_self⟩
    · exact .inl ⟨migration', hmig', .rest⟩
  | next hbef hprog =>
    exact .inl (fate_of_setMigration hmig' hbef rfl (.next hprog))
  | finished
  | closed
  | sendHeld => exact .inl (fate_of_endMigration hmig')
  | sendHandover hbef hstg hact =>
    exact .inl (fate_of_setMigration hmig' hbef rfl (.asked hstg hact))
  | follow hbef hstg hpeer =>
    exact .inl (fate_of_setMigration hmig' hbef rfl (.followed hpeer hstg))
  | @handedOver actor connection other rest _ hact hbox hhd hres =>
    rw [hres] at hmig'
    rcases gateway.handOver_cases { actor with mailbox := rest } connection other with
      ⟨migration, hmig, hstg, heq⟩ | ⟨-, heq⟩
    · rw [heq] at hmig'
      obtain rfl := key_of_get? hmig
      exact .inl (fate_of_setMigration hmig' hmig rfl (.handed hact hbox hhd hstg))
    · rw [heq] at hmig'
      exact .inl ⟨migration', hmig', .rest⟩
  | _ => exact .inl ⟨migration', hmig', .rest⟩

end Gateway

end MumbleRuntime
