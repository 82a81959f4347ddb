import MumbleRuntime.Gateway

/-!
# What a step of the gateway does

One inversion for the step of a connection's task, one for a step of the whole
gateway: which records it found, under which guard, and the state it leaves.
-/

namespace MumbleRuntime

open Library Table Option

variable {connection : ConnectionId} {act : MigrateAction}

namespace Gateway

inductive Advances (gateway : Gateway) (peer : Peer) : ServeAction → Peer → Prop
  | route (shard : ShardId) (hserve : peer.serve = .reserved) :
      Advances gateway peer (.route shard) { peer with serve := .routed shard }
  | reject (hserve : peer.serve = .reserved ∨ ∃ shard, peer.serve = .routed shard) :
      Advances gateway peer .reject { peer with serve := .ended }
  | insert {shard : ShardId} (hserve : peer.serve = .routed shard) :
      Advances gateway peer .insert
        { peer with serve := .inserted shard, shard, registered := true }
  | found {shard : ShardId} (hserve : peer.serve = .inserted shard)
      (hlisted : gateway.listed.contains shard = true) :
      Advances gateway peer .lookup { peer with serve := .found shard }
  | missing {shard : ShardId} (hserve : peer.serve = .inserted shard)
      (hlisted : gateway.listed.contains shard = false) :
      Advances gateway peer .lookup { peer with serve := .failed }
  | point {shard : ShardId} (hserve : peer.serve = .found shard) :
      Advances gateway peer .point { peer with serve := .pointed shard, shard }
  | refuseAttach {shard : ShardId} (hserve : peer.serve = .pointed shard) :
      Advances gateway peer .refuseAttach { peer with serve := .failed }
  | ready (hserve : peer.serve = .waiting) (hready : peer.ready = true) :
      Advances gateway peer .ready { peer with serve := .serving }
  | readyLost (hserve : peer.serve = .waiting) (hready : peer.ready = false)
      (hlost : gateway.owesReady peer.id = false) :
      Advances gateway peer .readyLost { peer with serve := .failed }
  | overflow (hserve : peer.serve = .serving) (hclose : peer.mustClose = true) :
      Advances gateway peer .overflow { peer with serve := .failed }
  | hangUp (hserve : (∃ shard, peer.serve = .inserted shard) ∨ peer.serve = .waiting ∨
        peer.serve = .serving) :
      Advances gateway peer .hangUp { peer with serve := .failed }
  | remove (hserve : peer.serve = .failed) :
      Advances gateway peer .remove { peer with serve := .removed, registered := false }
  | readShard (hserve : peer.serve = .removed) :
      Advances gateway peer .readShard { peer with serve := .leaving peer.shard }
  | detach {shard : ShardId} (hserve : peer.serve = .leaving shard)
      (hlisted : gateway.listed.contains shard = true) :
      Advances gateway peer .findShard { peer with serve := .detaching shard }
  | nowhere {shard : ShardId} (hserve : peer.serve = .leaving shard)
      (hlisted : gateway.listed.contains shard = false) :
      Advances gateway peer .findShard { peer with serve := .ended }
  | refuseDetach {shard : ShardId} (hserve : peer.serve = .detaching shard) :
      Advances gateway peer .refuseDetach { peer with serve := .ended }

variable {gateway : Gateway}

theorem advance_advances {peer peer' : Peer} {act : ServeAction}
    (h : gateway.advance peer act = some peer') : Advances gateway peer act peer' := by
  cases act with
  | route shard =>
    simp only [advance] at h
    split at h
    · cases h
      exact .route shard ‹_›
    · cases h
  | reject =>
    simp only [advance] at h
    split at h
    · cases h
      exact .reject (.inl ‹_›)
    · cases h
      exact .reject (.inr ⟨_, ‹_›⟩)
    · cases h
  | insert =>
    simp only [advance] at h
    split at h
    · cases h
      exact .insert ‹_›
    · cases h
  | lookup =>
    simp only [advance] at h
    split at h
    · rename_i shard hsrv
      cases h
      cases hlst : gateway.listed.contains shard with
      | true => exact .found hsrv hlst
      | false => exact .missing hsrv hlst
    · cases h
  | point =>
    simp only [advance] at h
    split at h
    · cases h
      exact .point ‹_›
    · cases h
  | refuseAttach =>
    simp only [advance] at h
    split at h
    · cases h
      exact .refuseAttach ‹_›
    · cases h
  | ready =>
    simp only [advance] at h
    split_ifs at h with hrdy
    cases h
    exact .ready hrdy.1 hrdy.2
  | readyLost =>
    simp only [advance] at h
    split_ifs at h with hlost
    cases h
    exact .readyLost hlost.1 hlost.2.1 hlost.2.2
  | overflow =>
    simp only [advance] at h
    split_ifs at h with hclose
    cases h
    exact .overflow hclose.1 hclose.2
  | hangUp =>
    simp only [advance] at h
    split at h
    · cases h
      exact .hangUp (.inl ⟨_, ‹_›⟩)
    · cases h
      exact .hangUp (.inr (.inl ‹_›))
    · cases h
      exact .hangUp (.inr (.inr ‹_›))
    · cases h
  | remove =>
    simp only [advance] at h
    split at h
    · cases h
      exact .remove ‹_›
    · cases h
  | readShard =>
    simp only [advance] at h
    split at h
    · cases h
      exact .readShard ‹_›
    · cases h
  | findShard =>
    simp only [advance] at h
    split at h
    · rename_i shard hsrv
      cases h
      cases hlst : gateway.listed.contains shard with
      | true => exact .detach hsrv hlst
      | false => exact .nowhere hsrv hlst
    · cases h
  | refuseDetach =>
    simp only [advance] at h
    split at h
    · cases h
      exact .refuseDetach ‹_›
    · cases h

inductive Progress (gateway : Gateway) (migration : Migration) : MigrateAction → Migrated → Prop
  | found {peer : Peer} (hstage : migration.stage = .spawned)
      (hpeer : gateway.peers.get? migration.connection = some peer)
      (hregistered : peer.registered = true) :
      Progress gateway migration .find (.next .found)
  | gone (hstage : migration.stage = .spawned) : Progress gateway migration .find .finished
  | read {peer : Peer} (hstage : migration.stage = .found)
      (hpeer : gateway.peers.get? migration.connection = some peer)
      (hmoves : peer.shard ≠ migration.destination) :
      Progress gateway migration .readSource (.next (.read peer.shard))
  | stay (hstage : migration.stage = .found) : Progress gateway migration .readSource .finished
  | looked {source : ShardId} (hstage : migration.stage = .read source)
      (hlisted : gateway.listed.contains migration.destination = true) :
      Progress gateway migration .look (.next (.looked source (gateway.listed.contains source)))
  | missing {source : ShardId} (hstage : migration.stage = .read source)
      (hlisted : gateway.listed.contains migration.destination = false) :
      Progress gateway migration .look .finished
  | noSource {source : ShardId} (hstage : migration.stage = .looked source false) :
      Progress gateway migration .noSource .closed
  | refuseDetach {source : ShardId} (hstage : migration.stage = .looked source true) :
      Progress gateway migration .refuseDetach .closed
  | dropped (hstage : migration.stage = .awaiting)
      (hdropped : gateway.owesHandover migration.id = false) :
      Progress gateway migration .dropped .closed
  | refuseAttach (hstage : migration.stage = .pointed) :
      Progress gateway migration .refuseAttach .closed

theorem advanceMigration_progress {migration : Migration}
    {outcome : Migrated} (h : gateway.advanceMigration migration act = some outcome) :
    Progress gateway migration act outcome := by
  cases act with
  | find =>
    simp only [advanceMigration] at h
    split_ifs at h with hstg
    cases hpeer : gateway.peers.get? migration.connection with
    | none =>
      simp only [hpeer, some.injEq] at h
      subst h
      exact .gone hstg
    | some peer =>
      simp only [hpeer, some.injEq] at h
      subst h
      cases hreg : peer.registered with
      | true => exact .found hstg hpeer hreg
      | false => exact .gone hstg
  | readSource =>
    simp only [advanceMigration] at h
    split_ifs at h with hstg
    obtain ⟨peer, hpeer, rfl⟩ := map_eq_some_iff.mp h
    split_ifs with hstay
    · exact .stay hstg
    · exact .read hstg hpeer hstay
  | look =>
    simp only [advanceMigration] at h
    split at h
    · rename_i source hstg
      cases h
      cases hlst : gateway.listed.contains migration.destination with
      | true => exact .looked hstg hlst
      | false => exact .missing hstg hlst
    · cases h
  | noSource =>
    simp only [advanceMigration] at h
    split at h
    · cases h
      exact .noSource ‹_›
    · cases h
  | refuseDetach =>
    simp only [advanceMigration] at h
    split at h
    · cases h
      exact .refuseDetach ‹_›
    · cases h
  | dropped =>
    simp only [advanceMigration] at h
    split_ifs at h with hdrp
    cases h
    exact .dropped hdrp.1 hdrp.2
  | refuseAttach =>
    simp only [advanceMigration] at h
    split_ifs at h with hstg
    cases h
    exact .refuseAttach hstg

inductive Taken (gateway : Gateway) : Action → Gateway → Prop
  | create : Taken gateway .create
      { gateway with
        listed := gateway.listed.insert gateway.nextShard
        actors := gateway.actors.insert ⟨gateway.nextShard, [], .empty⟩
        nextShard := gateway.nextShard + 1 }
  | reserve : Taken gateway .reserve
      { gateway with
        peers := gateway.peers.insert
          ⟨gateway.nextConnection, .reserved, 0, false, false, false, false⟩
        nextConnection := gateway.nextConnection + 1 }
  | serve {peer peer' : Peer} {act : ServeAction} (hpeer : gateway.peers.get? peer.id = some peer)
      (hadvance : Advances gateway peer act peer') :
      Taken gateway (.serve peer.id act) (gateway.setPeer peer')
  | sendAttach {peer : Peer} {actor : Actor} (hpeer : gateway.peers.get? peer.id = some peer)
      (hserve : peer.serve = .pointed actor.id)
      (hactor : gateway.actors.get? actor.id = some actor) :
      Taken gateway (.sendAttach peer.id)
        ((gateway.setPeer { peer with serve := .waiting }).post actor (.attach peer.id true))
  | sendDetach {peer : Peer} {actor : Actor} (hpeer : gateway.peers.get? peer.id = some peer)
      (hserve : peer.serve = .detaching actor.id)
      (hactor : gateway.actors.get? actor.id = some actor) :
      Taken gateway (.sendDetach peer.id)
        ((gateway.setPeer { peer with serve := .ended }).post actor (.detach peer.id none))
  | requestMove (connection : ConnectionId) (shard : ShardId) :
      Taken gateway (.requestMove connection shard)
        { gateway with mailbox := gateway.mailbox ++ [.move connection shard] }
  | requestDestroy (shard : ShardId) : Taken gateway (.requestDestroy shard)
      { gateway with mailbox := gateway.mailbox ++ [.destroy shard] }
  | spawn {connection : ConnectionId} {shard : ShardId} {rest : List RuntimeCommand}
      (hidle : gateway.destroying = none)
      (hmailbox : gateway.mailbox = .move connection shard :: rest) :
      Taken gateway .supervise
        { gateway with
          mailbox := rest
          migrations := gateway.migrations.insert ⟨gateway.nextTask, connection, shard, .spawned⟩
          nextTask := gateway.nextTask + 1 }
  | destroy {shard : ShardId} {rest : List RuntimeCommand} (hidle : gateway.destroying = none)
      (hmailbox : gateway.mailbox = .destroy shard :: rest) :
      Taken gateway .supervise
        { gateway with
          mailbox := rest
          destroying := some (shard, (gateway.peers.rows.filter Peer.registered).map Peer.id) }
  | close {shard : ShardId} {peer : Peer} {rest : List ConnectionId}
      (hdestroying : gateway.destroying = some (shard, peer.id :: rest))
      (hpeer : gateway.peers.get? peer.id = some peer) (hshard : peer.shard = shard) :
      Taken gateway .check
        ({ gateway with destroying := some (shard, rest) }.setPeer { peer with mustClose := true })
  | spare {shard : ShardId} {connection : ConnectionId} {rest : List ConnectionId}
      (hdestroying : gateway.destroying = some (shard, connection :: rest))
      (hother : ∀ peer, gateway.peers.get? connection = some peer → peer.shard ≠ shard) :
      Taken gateway .check { gateway with destroying := some (shard, rest) }
  | unlist {shard : ShardId} (hdestroying : gateway.destroying = some (shard, [])) :
      Taken gateway .unlist
        { gateway with listed := gateway.listed.erase shard, destroying := none }
  | stop {shard : ShardId} (hlisted : gateway.listed.contains shard = false) :
      Taken gateway (.stop shard) { gateway with actors := gateway.actors.erase shard }
  | attached {actor : Actor} {connection : ConnectionId} {ready : Bool} {rest : List Command}
      (hactor : gateway.actors.get? actor.id = some actor)
      (hmailbox : actor.mailbox = .attach connection ready :: rest) :
      Taken gateway (.deliver actor.id)
        (gateway.setActor
          { actor with mailbox := rest, connections := actor.connections.set connection ready })
  | detached {actor : Actor} {connection : ConnectionId} {rest : List Command}
      (hactor : gateway.actors.get? actor.id = some actor)
      (hmailbox : actor.mailbox = .detach connection none :: rest) :
      Taken gateway (.deliver actor.id)
        (gateway.setActor
          { actor with mailbox := rest, connections := actor.connections.erase connection })
  | handedOver {actor : Actor} {connection : ConnectionId} {task : TaskId} {rest : List Command}
      {gateway' : Gateway}
      (hactor : gateway.actors.get? actor.id = some actor)
      (hmailbox : actor.mailbox = .detach connection (some task) :: rest)
      (hholds : actor.holds connection = true)
      (hresult : gateway' = gateway.handOver { actor with mailbox := rest } connection task) :
      Taken gateway (.deliver actor.id) gateway'
  | notHeld {actor : Actor} {connection : ConnectionId} {task : TaskId} {rest : List Command}
      (hactor : gateway.actors.get? actor.id = some actor)
      (hmailbox : actor.mailbox = .detach connection (some task) :: rest)
      (hholds : actor.holds connection = false) :
      Taken gateway (.deliver actor.id) (gateway.setActor { actor with mailbox := rest })
  | publish {actor : Actor} {peer : Peer} (hactor : gateway.actors.get? actor.id = some actor)
      (hready : actor.connections.find? peer.id = some true)
      (hpeer : gateway.peers.get? peer.id = some peer) :
      Taken gateway (.publish actor.id peer.id)
        ((gateway.setPeer { peer with ready := true }).setActor
          { actor with connections := actor.connections.set peer.id false })
  | markFatal {peer : Peer} (hpeer : gateway.peers.get? peer.id = some peer) :
      Taken gateway (.markFatal peer.id) (gateway.setPeer { peer with mustClose := true })
  | next {migration : Migration} {act : MigrateAction} {stage : Migrate}
      (hmigration : gateway.migrations.get? migration.id = some migration)
      (hprogress : Progress gateway migration act (.next stage)) :
      Taken gateway (.migrate migration.id act) (gateway.setMigration { migration with stage })
  | finished {migration : Migration} {act : MigrateAction}
      (hmigration : gateway.migrations.get? migration.id = some migration)
      (hprogress : Progress gateway migration act .finished) :
      Taken gateway (.migrate migration.id act) (gateway.endMigration migration.id)
  | closed {migration : Migration} {act : MigrateAction} {peer : Peer}
      (hmigration : gateway.migrations.get? migration.id = some migration)
      (hprogress : Progress gateway migration act .closed)
      (hpeer : gateway.peers.get? migration.connection = some peer) :
      Taken gateway (.migrate migration.id act)
        ((gateway.setPeer peer.close).endMigration migration.id)
  | sendHandover {migration : Migration} {actor : Actor}
      (hmigration : gateway.migrations.get? migration.id = some migration)
      (hstage : migration.stage = .looked actor.id true)
      (hactor : gateway.actors.get? actor.id = some actor) :
      Taken gateway (.sendHandover migration.id)
        ((gateway.setMigration { migration with stage := .awaiting }).post actor
          (.detach migration.connection (some migration.id)))
  | follow {migration : Migration} {peer : Peer}
      (hmigration : gateway.migrations.get? migration.id = some migration)
      (hstage : migration.stage = .handed)
      (hpeer : gateway.peers.get? migration.connection = some peer) :
      Taken gateway (.follow migration.id)
        ((gateway.setPeer { peer with shard := migration.destination }).setMigration
          { migration with stage := .pointed })
  | sendHeld {migration : Migration} {actor : Actor}
      (hmigration : gateway.migrations.get? migration.id = some migration)
      (hstage : migration.stage = .pointed)
      (hdestination : migration.destination = actor.id)
      (hactor : gateway.actors.get? actor.id = some actor) :
      Taken gateway (.sendHeld migration.id)
        ((gateway.endMigration migration.id).post actor (.attach migration.connection false))

variable {gateway' : Gateway}

theorem check_taken (h : gateway.check = some gateway') : Taken gateway .check gateway' := by
  unfold check at h
  cases hdes : gateway.destroying with
  | none => simp [hdes] at h
  | some pending =>
    obtain ⟨shard, _ | ⟨connection, rest⟩⟩ := pending
    · simp [hdes] at h
    · simp only [hdes] at h
      cases hpeer : gateway.peers.get? connection with
      | none =>
        simp only [hpeer, some.injEq] at h
        subst h
        exact .spare hdes (by simp [hpeer])
      | some peer =>
        obtain rfl := key_of_get? hpeer
        simp only [hpeer, some.injEq] at h
        subst h
        split_ifs with hsh
        · exact .close hdes hpeer hsh
        · exact .spare hdes (by simpa [hpeer] using hsh)

theorem supervise_taken (h : gateway.supervise = some gateway') :
    Taken gateway .supervise gateway' := by
  unfold supervise at h
  cases hidle : gateway.destroying with
  | some pending => simp [hidle] at h
  | none =>
    cases hbox : gateway.mailbox with
    | nil => simp [hidle, hbox] at h
    | cons command rest =>
      cases command with
      | move connection shard =>
        simp only [hidle, hbox, some.injEq] at h
        subst h
        have htkn := Taken.spawn hidle hbox
        rwa [hidle] at htkn
      | destroy shard =>
        simp only [hidle, hbox, some.injEq] at h
        subst h
        exact .destroy hidle hbox

theorem deliver_taken {shard : ShardId} (h : gateway.step (.deliver shard) = some gateway') :
    Taken gateway (.deliver shard) gateway' := by
  obtain ⟨actor, hact, htkn⟩ := bind_eq_some_iff.mp h
  obtain rfl := key_of_get? hact
  cases hbox : actor.mailbox with
  | nil => simp [hbox] at htkn
  | cons command rest =>
    simp only [hbox, some.injEq] at htkn
    subst htkn
    cases command with
    | attach connection ready => exact .attached hact hbox
    | detach connection handover =>
      cases handover with
      | none => exact .detached hact hbox
      | some task =>
        cases hhd : actor.holds connection with
        | false =>
          have hkept := Taken.notHeld hact hbox hhd
          simp only [Actor.holds] at hhd
          simpa [handle, Actor.holds, hhd] using hkept
        | true =>
          refine .handedOver hact hbox hhd ?_
          simp only [Actor.holds] at hhd
          simp [handle, Actor.holds, hhd]

theorem migrate_taken {task : TaskId} (h : gateway.step (.migrate task act) = some gateway') :
    Taken gateway (.migrate task act) gateway' := by
  obtain ⟨migration, hmig, htkn⟩ := bind_eq_some_iff.mp h
  obtain ⟨outcome, hadv, htkn⟩ := bind_eq_some_iff.mp htkn
  obtain rfl := key_of_get? hmig
  cases outcome with
  | next stage =>
    cases htkn
    exact .next hmig (advanceMigration_progress hadv)
  | finished =>
    cases htkn
    exact .finished hmig (advanceMigration_progress hadv)
  | closed =>
    obtain ⟨peer, hpeer, rfl⟩ := map_eq_some_iff.mp htkn
    exact .closed hmig (advanceMigration_progress hadv) hpeer

theorem step_taken {action : Action} (h : gateway.step action = some gateway') :
    Taken gateway action gateway' := by
  cases action with
  | create =>
    cases h
    exact .create
  | reserve =>
    cases h
    exact .reserve
  | serve connection act =>
    obtain ⟨peer, hpeer, htkn⟩ := bind_eq_some_iff.mp h
    obtain ⟨peer', hadv, rfl⟩ := map_eq_some_iff.mp htkn
    obtain rfl := key_of_get? hpeer
    exact .serve hpeer (advance_advances hadv)
  | sendAttach connection =>
    obtain ⟨peer, hpeer, htkn⟩ := bind_eq_some_iff.mp h
    obtain rfl := key_of_get? hpeer
    split at htkn
    · rename_i shard hsrv
      obtain ⟨actor, hact, rfl⟩ := map_eq_some_iff.mp htkn
      obtain rfl := key_of_get? hact
      exact .sendAttach hpeer hsrv hact
    · cases htkn
  | sendDetach connection =>
    obtain ⟨peer, hpeer, htkn⟩ := bind_eq_some_iff.mp h
    obtain rfl := key_of_get? hpeer
    split at htkn
    · rename_i shard hsrv
      obtain ⟨actor, hact, rfl⟩ := map_eq_some_iff.mp htkn
      obtain rfl := key_of_get? hact
      exact .sendDetach hpeer hsrv hact
    · cases htkn
  | requestMove connection shard =>
    cases h
    exact .requestMove connection shard
  | requestDestroy shard =>
    cases h
    exact .requestDestroy shard
  | supervise => exact supervise_taken h
  | check => exact check_taken h
  | unlist =>
    simp only [step] at h
    split at h
    · rename_i shard hdes
      cases h
      exact .unlist hdes
    · cases h
  | stop shard =>
    simp only [step] at h
    split_ifs at h with hlst
    cases h
    exact .stop (by simpa using hlst)
  | deliver shard => exact deliver_taken h
  | publish shard connection =>
    obtain ⟨actor, hact, htkn⟩ := bind_eq_some_iff.mp h
    obtain rfl := key_of_get? hact
    split_ifs at htkn with hrdy
    obtain ⟨peer, hpeer, rfl⟩ := map_eq_some_iff.mp htkn
    obtain rfl := key_of_get? hpeer
    exact .publish hact hrdy hpeer
  | markFatal connection =>
    obtain ⟨peer, hpeer, rfl⟩ := map_eq_some_iff.mp h
    obtain rfl := key_of_get? hpeer
    exact .markFatal hpeer
  | migrate task act => exact migrate_taken h
  | sendHandover task =>
    obtain ⟨migration, hmig, htkn⟩ := bind_eq_some_iff.mp h
    obtain rfl := key_of_get? hmig
    split at htkn
    · rename_i source hstg
      obtain ⟨actor, hact, rfl⟩ := map_eq_some_iff.mp htkn
      obtain rfl := key_of_get? hact
      exact .sendHandover hmig hstg hact
    · cases htkn
  | follow task =>
    obtain ⟨migration, hmig, htkn⟩ := bind_eq_some_iff.mp h
    obtain rfl := key_of_get? hmig
    split_ifs at htkn with hstg
    obtain ⟨peer, hpeer, rfl⟩ := map_eq_some_iff.mp htkn
    exact .follow hmig hstg hpeer
  | sendHeld task =>
    obtain ⟨migration, hmig, htkn⟩ := bind_eq_some_iff.mp h
    obtain rfl := key_of_get? hmig
    split_ifs at htkn with hstg
    obtain ⟨actor, hact, rfl⟩ := map_eq_some_iff.mp htkn
    exact .sendHeld hmig hstg (key_of_get? hact).symm (by rwa [key_of_get? hact])

section Inversion

variable {gateway gateway' : Gateway}

theorem Taken.of_sendAttach (h : Taken gateway (.sendAttach connection) gateway') :
    ∃ peer actor, gateway.peers.get? connection = some peer ∧ peer.serve = .pointed actor.id ∧
      gateway.actors.get? actor.id = some actor ∧ gateway' =
        (gateway.setPeer { peer with serve := .waiting }).post actor (.attach connection true) := by
  cases h with
  | sendAttach hpeer hsrv hact => exact ⟨_, _, hpeer, hsrv, hact, rfl⟩

theorem Taken.of_sendDetach (h : Taken gateway (.sendDetach connection) gateway') :
    ∃ peer actor, gateway.peers.get? connection = some peer ∧ peer.serve = .detaching actor.id ∧
      gateway.actors.get? actor.id = some actor ∧ gateway' =
        (gateway.setPeer { peer with serve := .ended }).post actor (.detach connection none) := by
  cases h with
  | sendDetach hpeer hsrv hact => exact ⟨_, _, hpeer, hsrv, hact, rfl⟩

variable {task : TaskId}

theorem Taken.of_follow (h : Taken gateway (.follow task) gateway') :
    ∃ migration peer, gateway.migrations.get? task = some migration ∧ migration.stage = .handed ∧
      gateway.peers.get? migration.connection = some peer ∧ gateway' =
        (gateway.setPeer { peer with shard := migration.destination }).setMigration
          { migration with stage := .pointed } := by
  cases h with
  | follow hmig hstg hpeer => exact ⟨_, _, hmig, hstg, hpeer, rfl⟩

theorem Taken.of_sendHandover (h : Taken gateway (.sendHandover task) gateway') :
    ∃ migration actor, gateway.migrations.get? task = some migration ∧
      migration.stage = .looked actor.id true ∧ gateway.actors.get? actor.id = some actor ∧
      gateway' = (gateway.setMigration { migration with stage := .awaiting }).post actor
        (.detach migration.connection (some task)) := by
  cases h with
  | sendHandover hmig hstg hact => exact ⟨_, _, hmig, hstg, hact, rfl⟩

theorem Taken.of_deliver {shard : ShardId} (h : Taken gateway (.deliver shard) gateway') :
    ∃ actor command rest, gateway.actors.get? shard = some actor ∧
      actor.mailbox = command :: rest ∧
      gateway' = gateway.handle { actor with mailbox := rest } command := by
  cases h with
  | attached hact hbox
  | detached hact hbox => exact ⟨_, _, _, hact, hbox, rfl⟩
  | handedOver hact hbox hhd hres =>
    refine ⟨_, _, _, hact, hbox, hres.trans ?_⟩
    simp only [Actor.holds] at hhd
    simp [handle, Actor.holds, hhd]
  | notHeld hact hbox hhd =>
    refine ⟨_, _, _, hact, hbox, ?_⟩
    simp only [Actor.holds] at hhd
    simp [handle, Actor.holds, hhd]

theorem Taken.of_publish {shard : ShardId}
    (h : Taken gateway (.publish shard connection) gateway') :
    ∃ peer, gateway.peers.get? connection = some peer ∧
      gateway'.peers.get? connection = some { peer with ready := true } := by
  cases h with
  | publish hact hrdy hpeer => exact ⟨_, hpeer, by simp [setPeer, setActor]⟩

theorem Taken.of_closed {migration : Migration}
    (h : Taken gateway (.migrate migration.id act) gateway')
    (hmig : gateway.migrations.get? migration.id = some migration)
    (hprog : Progress gateway migration act .closed) :
    ∃ peer, gateway.peers.get? migration.connection = some peer ∧
      gateway' = (gateway.setPeer peer.close).endMigration migration.id := by
  generalize htask : migration.id = task at h
  cases h with
  | next hoth hnext =>
    rw [← htask, hmig] at hoth
    cases hoth
    cases hprog <;> cases hnext
  | finished hoth hfinished =>
    rw [← htask, hmig] at hoth
    cases hoth
    cases hprog <;> cases hfinished
  | closed hoth _ hpeer =>
    rw [← htask, hmig] at hoth
    cases hoth
    exact ⟨_, hpeer, rfl⟩

end Inversion

end Gateway

end MumbleRuntime
