import MumbleRuntime.Residence

/-!
# Where a peer stands

What every run keeps besides the single residence: the peer's shard is the one
its connection stands at, a plain `Detach` is the last thing its task sends, and
a mailbox carries a handover only while its migration waits for it.
-/

namespace MumbleRuntime

open Library Table

variable {connection : ConnectionId} {shard : ShardId} {actor : Actor}

namespace Gateway

/-- Between `Peers::insert` and `Peers::remove`. -/
def Serve.isRegistered : Serve → Bool
  | .inserted _ | .found _ | .pointed _ | .waiting | .serving | .failed => true
  | _ => false

def Serve.isNew : Serve → Bool
  | .reserved | .routed _ => true
  | _ => false

def Serve.target : Serve → Option ShardId
  | .inserted shard | .found shard | .pointed shard => some shard
  | _ => none

def awaits (gateway : Gateway) (task : TaskId) : Bool :=
  match gateway.migrations.get? task with
  | some migration => migration.stage = .awaiting
  | none => false

def Actor.handovers (task : TaskId) (actor : Actor) : ℕ :=
  actor.mailbox.countP (Command.answers task)

def handovers (gateway : Gateway) (task : TaskId) : ℕ :=
  gateway.actors.sum (Actor.handovers task)

structure Placed (gateway : Gateway) : Prop where
  registered : ∀ connection peer, gateway.peers.get? connection = some peer →
    peer.registered = peer.serve.isRegistered
  target : ∀ connection peer shard, gateway.peers.get? connection = some peer →
    peer.serve.target = some shard → peer.shard = shard
  resides : ∀ shard actor connection peer, gateway.actors.get? shard = some actor →
    0 < actor.weight connection → gateway.peers.get? connection = some peer → peer.shard = shard
  pointed : ∀ task migration peer, gateway.migrations.get? task = some migration →
    migration.stage = .pointed → gateway.peers.get? migration.connection = some peer →
    peer.shard = migration.destination
  known : ∀ task migration, gateway.migrations.get? task = some migration →
    migration.stage ≠ .spawned →
    ∃ peer, gateway.peers.get? migration.connection = some peer ∧ peer.serve.isNew = false
  left : ∀ shard actor connection, gateway.actors.get? shard = some actor →
    .detach connection none ∈ actor.mailbox →
    ∃ peer, gateway.peers.get? connection = some peer ∧ peer.serve = .ended
  awaited : ∀ task, gateway.handovers task ≤ (gateway.awaits task).toNat

namespace Lodged

variable {gateway : Gateway}

theorem residence_le_one (h : gateway.Lodged) (connection : ConnectionId) :
    gateway.residence connection ≤ 1 :=
  (h.residence connection).trans (gateway.allowance_le_one connection)

theorem residence_early (h : gateway.Lodged)
    (hearly : ∀ peer, gateway.peers.get? connection = some peer → peer.serve.isEarly = true) :
    gateway.residence connection = 0 := by
  have hle := h.residence connection
  unfold allowance at hle
  cases hpeer : gateway.peers.get? connection with
  | none => simpa [hpeer] using hle
  | some peer => simpa [hpeer, hearly peer hpeer] using hle

theorem weight_early (h : gateway.Lodged)
    (hearly : ∀ peer, gateway.peers.get? connection = some peer → peer.serve.isEarly = true)
    (hact : gateway.actors.get? shard = some actor) :
    actor.weight connection = 0 := by
  have hzero := h.residence_early hearly
  have hle := le_sum_of_get? hact (Actor.weight connection)
  simp only [Gateway.residence] at hzero
  omega

variable {task : TaskId} {migration : Migration}

variable (h : gateway.Lodged) (hmig : gateway.migrations.get? task = some migration)

include h hmig in
theorem carried_not_early (hcarries : migration.stage.carries = true) {peer : Peer}
    (hpeer : gateway.peers.get? migration.connection = some peer) : peer.serve.isEarly = false := by
  by_contra hearly
  have hzero : gateway.residence migration.connection = 0 := by
    refine h.residence_early fun other hoth => ?_
    rw [hpeer] at hoth
    cases hoth
    simpa using hearly
  have hle := le_sum_of_get? hmig (Migration.weight migration.connection)
  simp only [Migration.weight, hcarries, decide_true, Bool.and_self, Bool.toNat_true] at hle
  simp only [Gateway.residence] at hzero
  omega

include h hmig in
theorem weight_carried (hcarries : migration.stage.carries = true)
    (hact : gateway.actors.get? shard = some actor) : actor.weight migration.connection = 0 := by
  have hone := h.residence_le_one migration.connection
  have hcarried := le_sum_of_get? hmig (Migration.weight migration.connection)
  have hle := le_sum_of_get? hact (Actor.weight migration.connection)
  simp only [Migration.weight, hcarries, decide_true, Bool.and_self, Bool.toNat_true] at hcarried
  simp only [Gateway.residence] at hone
  omega

include h hmig in
theorem carried_unique {other : TaskId} {second : Migration}
    (hsec : gateway.migrations.get? other = some second)
    (hcarries : migration.stage.carries = true) (hcarries' : second.stage.carries = true)
    (hsame : migration.connection = second.connection) : task = other := by
  by_contra hne
  have hone := h.residence_le_one migration.connection
  have htwo := add_le_sum_of_get? hmig hsec hne (Migration.weight migration.connection)
  rw [hsame] at hone htwo
  simp only [Migration.weight, hcarries, hcarries', hsame, decide_true, Bool.and_self,
    Bool.toNat_true] at htwo
  simp only [Gateway.residence] at hone
  omega

end Lodged

theorem ActorFate.weight_pos {gateway : Gateway} {actor actor' : Actor} {action : Action}
    (h : ActorFate gateway actor action actor') (hwt : 0 < actor'.weight connection) :
    0 < actor.weight connection ∨
    (action = .sendAttach connection ∧ ∃ peer, gateway.peers.get? connection = some peer ∧
      peer.serve = .pointed actor.id) ∨
    (∃ migration, action = .sendHeld migration.id ∧
      gateway.migrations.get? migration.id = some migration ∧
      migration.connection = connection ∧ migration.stage = .pointed ∧
      migration.destination = actor.id) := by
  cases h with
  | rest => exact .inl hwt
  | @attachSent peer hpeer hsrv =>
    rw [Actor.weight_post] at hwt
    by_cases hconn : peer.id = connection
    · subst hconn
      exact .inr (.inl ⟨rfl, peer, hpeer, hsrv⟩)
    · simp only [Command.isAttach, hconn, decide_false, Bool.toNat_false] at hwt
      exact .inl hwt
  | detachSent
  | handoverSent =>
    rw [Actor.weight_post] at hwt
    exact .inl hwt
  | @heldSent migration hmig hstg hdestination =>
    rw [Actor.weight_post] at hwt
    by_cases hconn : migration.connection = connection
    · exact .inr (.inr ⟨migration, rfl, hmig, hconn, hstg, hdestination⟩)
    · simp only [Command.isAttach, hconn, decide_false, Bool.toNat_false] at hwt
      exact .inl hwt
  | attached hbox => exact .inl (hwt.trans_le (Actor.weight_attached hbox _).1)
  | detached hbox =>
    have heq := Actor.weight_detached hbox connection
    exact .inl (by omega)
  | notHeld hbox =>
    rw [Actor.weight_skipped hbox] at hwt
    exact .inl hwt
  | published hpeer hrdy =>
    rw [Actor.weight_published hrdy] at hwt
    exact .inl hwt

section Steps

variable {gateway gateway' : Gateway} {action : Action}

variable {peer' : Peer}

theorem Advances.registered {peer : Peer} {act : ServeAction} (h : Advances gateway peer act peer')
    (hreg : peer.registered = peer.serve.isRegistered) :
    peer'.registered = peer'.serve.isRegistered := by
  cases h with
  | reject hsrv =>
    rcases hsrv with hsrv | ⟨shard, hsrv⟩ <;> simpa [hsrv, Serve.isRegistered] using hreg
  | hangUp hsrv =>
    rcases hsrv with ⟨shard, hsrv⟩ | hsrv | hsrv <;> simpa [hsrv, Serve.isRegistered] using hreg
  | _ => simp_all [Serve.isRegistered]

theorem Taken.registered (h : Taken gateway action gateway') (hn : gateway.Numbered)
    (hp : gateway.Placed) (hpeer' : gateway'.peers.get? connection = some peer') :
    peer'.registered = peer'.serve.isRegistered := by
  rcases h.peer_cases hn hpeer' with ⟨peer, hpeer, hfate⟩ | ⟨-, -, hsrv, -, hreg, -⟩
  · have hbef := hp.registered connection peer hpeer
    cases hfate with
    | serve hadv => exact hadv.registered hbef
    | sendAttach hsrv
    | sendDetach hsrv => simpa [hsrv, Serve.isRegistered] using hbef
    | _ => exact hbef
  · rw [hsrv, hreg]
    rfl

theorem Taken.target (h : Taken gateway action gateway') (hl : gateway.Lodged) (hp : gateway.Placed)
    (hpeer' : gateway'.peers.get? connection = some peer')
    (htgt : peer'.serve.target = some shard) : peer'.shard = shard := by
  rcases h.peer_cases hl.numbered hpeer' with ⟨peer, hpeer, hfate⟩ | ⟨-, -, hsrv, -⟩
  · have hbef := hp.target connection peer shard hpeer
    cases hfate with
    | serve hadv => cases hadv <;> simp_all [Serve.target]
    | sendAttach => cases htgt
    | sendDetach => cases htgt
    | followed hmig hconn hstg =>
      have hid := key_of_get? hpeer
      rw [← hid, ← hconn] at hpeer
      have hlate := hl.carried_not_early hmig (by rw [hstg]; rfl) hpeer
      simp only at htgt
      cases hsrv : peer.serve <;> simp [hsrv, Serve.target, Serve.isEarly] at htgt hlate
    | _ => exact hbef htgt
  · rw [hsrv] at htgt
    cases htgt

theorem PeerFate.shard_eq {peer : Peer} (h : PeerFate gateway peer action peer') :
    peer'.shard = peer.shard ∨ peer.serve.isEarly = true ∨
      ∃ migration, action = .follow migration.id ∧
        gateway.migrations.get? migration.id = some migration ∧
        migration.connection = peer.id ∧ migration.stage = .handed ∧
        peer'.shard = migration.destination := by
  cases h with
  | serve hadv =>
    cases hadv with
    | insert hsrv
    | point hsrv => exact .inr (.inl (by rw [hsrv]; rfl))
    | _ => exact .inl rfl
  | followed hmig hconn hstg =>
    exact .inr (.inr ⟨_, rfl, hmig, hconn, hstg, rfl⟩)
  | _ => exact .inl rfl

theorem Taken.resides (h : Taken gateway action gateway') (hl : gateway.Lodged)
    (hp : gateway.Placed) {actor' : Actor}
    (hact' : gateway'.actors.get? shard = some actor') (hwt : 0 < actor'.weight connection)
    (hpeer' : gateway'.peers.get? connection = some peer') : peer'.shard = shard := by
  rcases h.actor_cases hl.numbered hact' with ⟨actor, hact, hactorFate⟩ | ⟨rfl, hmail, hconns⟩
  swap
  · simp [Actor.weight, Actor.holds, contains, hmail, hconns] at hwt
  obtain rfl := key_of_get? hact
  have hsource := hactorFate.weight_pos hwt
  rcases h.peer_cases hl.numbered hpeer' with ⟨peer, hpeer, hfate⟩ | ⟨rfl, hnone, -⟩
  swap
  · rcases hsource with hbef | ⟨hsend, -⟩ | ⟨migration, hsend, -⟩
    · have hzero : actor.weight connection = 0 := hl.weight_early (by simp [hnone]) hact
      omega
    · cases hsend
    · cases hsend
  obtain rfl := key_of_get? hpeer
  have hmoved := hfate.shard_eq
  rcases hsource with hbef | ⟨rfl, peer₂, hpeer₂, hsrv⟩ | ⟨migration, rfl, hmig, hconn, hstg, hdest⟩
  · rcases hmoved with hsame | hearly | ⟨migration, -, hmig, hconn, hstg, -⟩
    · rw [hsame]
      exact hp.resides _ _ _ _ hact hbef hpeer
    · have hzero : actor.weight peer.id = 0 :=
        hl.weight_early (by simpa [hpeer] using hearly) hact
      omega
    · have hzero := hl.weight_carried hmig (by rw [hstg]; rfl) hact
      rw [hconn] at hzero
      omega
  · rw [hpeer] at hpeer₂
    cases hpeer₂
    have hsh := hp.target _ _ actor.id hpeer (by rw [hsrv]; rfl)
    cases hfate with
    | rest => exact hsh
    | sendAttach => exact hsh
  · cases hfate with
    | rest => exact (hp.pointed _ _ _ hmig hstg (hconn ▸ hpeer)).trans hdest

theorem Taken.pointed (h : Taken gateway action gateway') (hl : gateway.Lodged)
    (hp : gateway.Placed) {task : TaskId} {migration' : Migration}
    (hmig' : gateway'.migrations.get? task = some migration') (hstg' : migration'.stage = .pointed)
    (hpeer' : gateway'.peers.get? migration'.connection = some peer') :
    peer'.shard = migration'.destination := by
  rcases h.migration_cases hmig' with
    ⟨migration, hmig, hfate⟩ | ⟨-, -, hspawned, -⟩
  swap
  · rw [hspawned] at hstg'
    cases hstg'
  obtain rfl := key_of_get? hmig
  cases hfate with
  | next hprog => cases hprog <;> cases hstg'
  | asked => cases hstg'
  | handed => cases hstg'
  | followed hpeer hstg =>
    obtain ⟨other, peer₂, hoth, -, hpeer₂, rfl⟩ := h.of_follow
    rw [hmig] at hoth
    cases hoth
    have hid := key_of_get? hpeer₂
    rw [setMigration, get?_setPeer, if_pos hid.symm] at hpeer'
    cases hpeer'
    rfl
  | rest =>
    have hcarries : migration'.stage.carries = true := by rw [hstg']; rfl
    rcases h.peer_cases hl.numbered hpeer' with ⟨peer, hpeer, hpeerFate⟩ | ⟨-, hnone, -⟩
    · have hid := key_of_get? hpeer
      rcases hpeerFate.shard_eq with
        hsame | hearly | ⟨second, -, hsec, hconn, hstg, -⟩
      · rw [hsame]
        exact hp.pointed _ _ _ hmig hstg' hpeer
      · rw [hl.carried_not_early hmig hcarries hpeer] at hearly
        cases hearly
      · have hsame := hl.carried_unique hmig hsec hcarries (by rw [hstg]; rfl)
          (hid.symm.trans hconn.symm)
        rw [hsame, hsec] at hmig
        cases hmig
        rw [hstg] at hstg'
        cases hstg'
    · obtain ⟨peer, hpeer, -⟩ := hp.known _ _ hmig (by rw [hstg']; simp)
      rw [hnone] at hpeer
      cases hpeer

theorem Taken.known (h : Taken gateway action gateway') (hl : gateway.Lodged)
    (hp : gateway.Placed) {task : TaskId} {migration' : Migration}
    (hmig' : gateway'.migrations.get? task = some migration')
    (hstg' : migration'.stage ≠ .spawned) :
    ∃ peer, gateway'.peers.get? migration'.connection = some peer ∧ peer.serve.isNew = false := by
  have hkeep : ∀ connection peer, gateway.peers.get? connection = some peer →
      peer.serve.isNew = false →
      ∃ peer', gateway'.peers.get? connection = some peer' ∧ peer'.serve.isNew = false := by
    intro connection peer hpeer hnew
    obtain ⟨peer', hpeer', hfate⟩ := h.peer hl.numbered hpeer
    refine ⟨peer', hpeer', ?_⟩
    cases hfate with
    | serve hadv => cases hadv <;> simp_all [Serve.isNew]
    | sendAttach => rfl
    | sendDetach => rfl
    | _ => exact hnew
  rcases h.migration_cases hmig' with
    ⟨migration, hmig, hfate⟩ | ⟨-, -, hspawned, -⟩
  swap
  · exact absurd hspawned hstg'
  by_cases hspawned : migration.stage = .spawned
  · cases hfate with
    | rest => exact absurd hspawned hstg'
    | next hprog =>
      cases hprog with
      | found _ hpeer hreg =>
        refine hkeep _ _ hpeer ?_
        rw [hp.registered _ _ hpeer] at hreg
        cases hsrv : Peer.serve _ <;> simp_all [Serve.isRegistered, Serve.isNew]
      | read hstg
      | looked hstg => rw [hspawned] at hstg; cases hstg
    | asked hstg
    | handed _ _ _ hstg
    | followed _ hstg => rw [hspawned] at hstg; cases hstg
  · obtain ⟨peer, hpeer, hnew⟩ := hp.known _ _ hmig hspawned
    have hsame : migration'.connection = migration.connection := by cases hfate <;> rfl
    rw [hsame]
    exact hkeep _ _ hpeer hnew

theorem Taken.left (h : Taken gateway action gateway') (hl : gateway.Lodged)
    (hp : gateway.Placed) {actor' : Actor} (hact' : gateway'.actors.get? shard = some actor')
    (hmem : .detach connection none ∈ actor'.mailbox) :
    ∃ peer, gateway'.peers.get? connection = some peer ∧ peer.serve = .ended := by
  have hkeep : ∀ peer, gateway.peers.get? connection = some peer → peer.serve = .ended →
      ∃ peer', gateway'.peers.get? connection = some peer' ∧ peer'.serve = .ended := by
    intro peer hpeer hended
    obtain ⟨peer', hpeer', hfate⟩ := h.peer hl.numbered hpeer
    refine ⟨peer', hpeer', ?_⟩
    cases hfate with
    | serve hadv => cases hadv <;> simp_all
    | sendAttach hsrv => rw [hended] at hsrv; cases hsrv
    | sendDetach => rfl
    | _ => exact hended
  rcases h.actor_cases hl.numbered hact' with ⟨actor, hact, hfate⟩ | ⟨-, hmail, -⟩
  swap
  · rw [hmail] at hmem
    cases hmem
  have hold : .detach connection none ∈ actor.mailbox →
      ∃ peer, gateway'.peers.get? connection = some peer ∧ peer.serve = .ended := by
    intro hbef
    obtain ⟨peer, hpeer, hended⟩ := hp.left _ _ _ hact hbef
    exact hkeep peer hpeer hended
  cases hfate with
  | rest => exact hold hmem
  | detachSent hpeer hsrv =>
    rcases List.mem_append.mp hmem with hbef | hnew
    · exact hold hbef
    · cases List.mem_singleton.mp hnew
      obtain ⟨peer₂, actor₂, hpeer₂, -, -, rfl⟩ := h.of_sendDetach
      refine ⟨{ peer₂ with serve := .ended }, ?_, rfl⟩
      rw [post, setActor, get?_setPeer, if_pos (key_of_get? hpeer₂).symm]
  | attached hbox
  | detached hbox
  | notHeld hbox => exact hold (by rw [hbox]; exact List.mem_cons_of_mem _ hmem)
  | published => exact hold hmem
  | _ => exact hold (by simpa using hmem)

end Steps

section Handovers

variable {gateway gateway' : Gateway} {action : Action}

theorem handovers_setActor (gateway : Gateway) (actor : Actor) {before : Actor}
    (h : gateway.actors.get? actor.id = some before) (task : TaskId) :
    (gateway.setActor actor).handovers task + before.handovers task =
      gateway.handovers task + actor.handovers task := by
  have hsum := sum_of_get? h (Actor.handovers task)
  have hinsert := gateway.actors.sum_insert actor (Actor.handovers task)
  simp only [handovers, setActor]
  omega

theorem handovers_post (gateway : Gateway)
    (h : gateway.actors.get? actor.id = some actor) (command : Command) (task : TaskId) :
    (gateway.post actor command).handovers task =
      gateway.handovers task + (command.answers task).toNat := by
  have hset := gateway.handovers_setActor { actor with mailbox := actor.mailbox ++ [command] } h task
  have hcnt : ({ actor with mailbox := actor.mailbox ++ [command] } : Actor).handovers task =
      actor.handovers task + (command.answers task).toNat := by
    simp only [Actor.handovers, List.countP_append, List.countP_singleton]
    cases command.answers task <;> rfl
  simp only [post]
  omega

theorem handovers_pop (gateway : Gateway) {command : Command} {rest : List Command}
    (connections : OrderedMap ConnectionId Bool)
    (h : gateway.actors.get? actor.id = some actor) (hbox : actor.mailbox = command :: rest)
    (task : TaskId) :
    (gateway.setActor { actor with mailbox := rest, connections }).handovers task +
      (command.answers task).toNat = gateway.handovers task := by
  have hset := gateway.handovers_setActor { actor with mailbox := rest, connections } h task
  have hcnt : actor.handovers task =
      ({ actor with mailbox := rest, connections } : Actor).handovers task +
        (command.answers task).toNat := by
    simp only [Actor.handovers, hbox, List.countP_cons]
    cases command.answers task <;> rfl
  omega

theorem awaits_setMigration (gateway : Gateway) (migration : Migration) (task : TaskId) :
    (gateway.setMigration migration).awaits task =
      if task = migration.id then decide (migration.stage = .awaiting) else gateway.awaits task := by
  unfold awaits
  rw [get?_setMigration]
  split_ifs <;> rfl

theorem awaits_endMigration (gateway : Gateway) (ended task : TaskId) :
    (gateway.endMigration ended).awaits task =
      if task = ended then false else gateway.awaits task := by
  unfold awaits
  rw [endMigration, get?_erase]
  split_ifs <;> rfl

variable {task : TaskId}

theorem awaits_of_get? {migration : Migration} (h : gateway.migrations.get? task = some migration) :
    gateway.awaits task = decide (migration.stage = .awaiting) := by
  simp [awaits, h]

theorem Placed.handovers_eq_zero (hp : gateway.Placed) (h : gateway.awaits task = false) :
    gateway.handovers task = 0 := by
  have hle := hp.awaited task
  rw [h] at hle
  simpa using hle

theorem handovers_eq_zero_of_not_owed (h : gateway.owesHandover task = false) :
    gateway.handovers task = 0 := by
  by_contra hpos
  obtain ⟨actor, hact, hcnt⟩ := exists_of_sum_pos (Nat.pos_of_ne_zero hpos)
  obtain ⟨command, hmem, hanswers⟩ := List.countP_pos_iff.mp hcnt
  have howed : gateway.owesHandover task = true := by
    simp only [owesHandover, List.any_eq_true]
    exact ⟨actor, mem_of_get? hact, command, hmem, hanswers⟩
  rw [h] at howed
  cases howed

theorem Placed.awaited_setMigration (hp : gateway.Placed) (migration : Migration)
    (hzero : gateway.handovers migration.id = 0) (task : TaskId) :
    gateway.handovers task ≤ ((gateway.setMigration migration).awaits task).toNat := by
  rw [awaits_setMigration]
  split_ifs with hkey
  · rw [hkey, hzero]
    exact Nat.zero_le _
  · exact hp.awaited task

theorem Placed.awaited_endMigration (hp : gateway.Placed) {ended : TaskId}
    (hzero : gateway.handovers ended = 0) (task : TaskId) :
    gateway.handovers task ≤ ((gateway.endMigration ended).awaits task).toNat := by
  rw [awaits_endMigration]
  split_ifs with hkey
  · rw [hkey, hzero]
    exact Nat.zero_le _
  · exact hp.awaited task

theorem Taken.awaited (h : Taken gateway action gateway') (hl : gateway.Lodged)
    (hp : gateway.Placed) (task : TaskId) :
    gateway'.handovers task ≤ (gateway'.awaits task).toNat := by
  have hbef := hp.awaited task
  have hidle : ∀ {migration : Migration}, gateway.migrations.get? migration.id = some migration →
      migration.stage ≠ .awaiting → gateway.handovers migration.id = 0 := by
    intro migration hmig hstg
    exact hp.handovers_eq_zero (by simp [awaits_of_get? hmig, hstg])
  cases h with
  | create =>
    have hinsert := gateway.actors.sum_insert_le ⟨gateway.nextShard, [], .empty⟩
      (Actor.handovers task)
    exact hinsert.trans hbef
  | @sendAttach peer actor hpeer hsrv hact =>
    have hpost := handovers_post (gateway.setPeer { peer with serve := .waiting }) hact
      (.attach peer.id true) task
    exact hpost.le.trans hbef
  | @sendDetach peer actor hpeer hsrv hact =>
    have hpost := handovers_post (gateway.setPeer { peer with serve := .ended }) hact
      (.detach peer.id none) task
    exact hpost.le.trans hbef
  | @spawn connection shard rest =>
    have hzero : gateway.handovers gateway.nextTask = 0 := by
      refine hp.handovers_eq_zero ?_
      unfold awaits
      cases hmig : gateway.migrations.get? gateway.nextTask with
      | none => rfl
      | some migration => exact absurd (hl.numbered.migrations _ _ hmig) (lt_irrefl _)
    exact hp.awaited_setMigration ⟨gateway.nextTask, connection, shard, .spawned⟩ hzero task
  | stop => exact (gateway.actors.sum_erase_le _ _).trans hbef
  | @attached actor connection ready rest hact hbox =>
    have hpop := gateway.handovers_pop (actor.connections.set connection ready) hact hbox task
    exact hpop.le.trans hbef
  | @detached actor connection rest hact hbox =>
    have hpop := gateway.handovers_pop (actor.connections.erase connection) hact hbox task
    exact hpop.le.trans hbef
  | @handedOver actor connection answered rest _ hact hbox hhd hres =>
    have hpop := gateway.handovers_pop (actor.connections.erase connection) hact hbox task
    rcases gateway.handOver_cases { actor with mailbox := rest } connection answered with
      ⟨migration, hmig, hstg, hcase⟩ | ⟨hnot, hcase⟩
    · obtain rfl := key_of_get? hmig
      rw [hres, hcase, awaits_setMigration]
      split_ifs with hkey
      · subst hkey
        have hone := Bool.toNat_le (gateway.awaits migration.id)
        simp only [Command.answers, decide_true, Bool.toNat_true] at hpop
        refine Nat.le_of_lt_succ (lt_of_lt_of_le ?_ (hbef.trans hone))
        exact Nat.lt_of_succ_le hpop.le
      · exact (Nat.le_of_add_right_le hpop.le).trans hbef
    · rw [hres, hcase]
      exact (Nat.le_of_add_right_le hpop.le).trans hbef
  | @notHeld actor connection answered rest hact hbox =>
    have hpop := gateway.handovers_pop actor.connections hact hbox task
    exact (Nat.le_of_add_right_le hpop.le).trans hbef
  | @publish actor peer hact hrdy hpeer =>
    have hset := handovers_setActor (gateway.setPeer { peer with ready := true })
      { actor with connections := actor.connections.set peer.id false } hact task
    exact (Nat.add_right_cancel hset).le.trans hbef
  | @next migration act stage hmig hprog =>
    have hzero : gateway.handovers migration.id = 0 := by
      refine hidle hmig ?_
      cases hprog <;> simp_all
    exact hp.awaited_setMigration { migration with stage } hzero task
  | finished hmig hprog =>
    refine hp.awaited_endMigration (hidle hmig ?_) task
    cases hprog <;> simp_all
  | closed hmig hprog =>
    refine hp.awaited_endMigration ?_ task
    cases hprog with
    | dropped _ hdrp => exact handovers_eq_zero_of_not_owed hdrp
    | noSource hstg
    | refuseDetach hstg
    | refuseAttach hstg => exact hidle hmig (by simp [hstg])
  | @sendHandover migration actor hmig hstg hact =>
    have hpost := handovers_post (gateway.setMigration { migration with stage := .awaiting }) hact
      (.detach migration.connection (some migration.id)) task
    have hawaits := gateway.awaits_setMigration { migration with stage := .awaiting } task
    have hzero := hidle hmig (by simp [hstg])
    refine hpost.le.trans (le_of_le_of_eq ?_ (congrArg Bool.toNat hawaits).symm)
    change gateway.handovers task + _ ≤ _
    by_cases hkey : task = migration.id
    · subst hkey
      simpa [Command.answers] using hzero
    · simpa [Command.answers, hkey, Ne.symm hkey] using hbef
  | @follow migration peer hmig hstg hpeer =>
    have hzero := hidle hmig (by simp [hstg])
    exact hp.awaited_setMigration { migration with stage := .pointed } hzero task
  | @sendHeld migration actor hmig hstg hdestination hact =>
    have hpost := handovers_post (gateway.endMigration migration.id) hact
      (.attach migration.connection false) task
    have hend := hp.awaited_endMigration (hidle hmig (by simp [hstg])) task
    exact hpost.le.trans hend
  | _ => exact hbef

end Handovers

theorem start_placed : start.Placed where
  registered _ _ h := by cases h
  target _ _ _ h := by cases h
  resides _ _ _ _ h := by cases h
  pointed _ _ _ h := by cases h
  known _ _ h := by cases h
  left _ _ _ h := by cases h
  awaited _ := Nat.zero_le _

theorem Taken.placed {gateway gateway' : Gateway} {action : Action}
    (h : Taken gateway action gateway') (hl : gateway.Lodged) (hp : gateway.Placed) :
    gateway'.Placed where
  registered _ _ hpeer := h.registered hl.numbered hp hpeer
  target _ _ _ hpeer htgt := h.target hl hp hpeer htgt
  resides _ _ _ _ hact hwt hpeer := h.resides hl hp hact hwt hpeer
  pointed _ _ _ hmig hstg hpeer := h.pointed hl hp hmig hstg hpeer
  known _ _ hmig hstg := h.known hl hp hmig hstg
  left _ _ _ hact hmem := h.left hl hp hact hmem
  awaited task := h.awaited hl hp task

end Gateway

open Gateway in
/-- In every interleaving the shard that holds a connection, or is about to, is the one
its peer points to. A `Detach` that awaits no hand-over is that of a task that ended, and
a migrate task is owed one hand-over at most. -/
theorem peer_points_home {gateway : Gateway}
    (h : Reaches Gateway.step (fun _ _ => True) Gateway.start gateway) :
    (∀ shard actor connection, gateway.actors.get? shard = some actor →
      (actor.holds connection = true ∨ ∃ command ∈ actor.mailbox, command.isAttach connection = true) →
      ∃ peer, gateway.peers.get? connection = some peer ∧ peer.serve.isEarly = false ∧
        peer.shard = shard) ∧
    (∀ shard actor connection, gateway.actors.get? shard = some actor →
      .detach connection none ∈ actor.mailbox →
      ∃ peer, gateway.peers.get? connection = some peer ∧ peer.serve = .ended) ∧
    ∀ task, gateway.handovers task ≤ 1 := by
  obtain ⟨hl, hp⟩ : gateway.Lodged ∧ gateway.Placed :=
    h.invariant (P := fun g => g.Lodged ∧ g.Placed) ⟨start_lodged, start_placed⟩
      fun _ _ _ hg _ hstep =>
        ⟨(step_taken hstep).lodged hg.1, (step_taken hstep).placed hg.1 hg.2⟩
  refine ⟨fun shard actor connection hact hheld => ?_, hp.left,
    fun task => (hp.awaited task).trans (Bool.toNat_le _)⟩
  have hwt : 0 < actor.weight connection := by
    rcases hheld with hhd | hattach
    · simp only [Actor.weight, hhd, Bool.toNat_true]
      omega
    · exact Nat.lt_add_left _ (List.countP_pos_iff.mpr hattach)
  by_contra hnone
  refine hwt.ne' (hl.weight_early (fun peer hpeer => ?_) hact)
  by_contra hlate
  exact hnone ⟨peer, hpeer, by simpa using hlate, hp.resides _ _ _ _ hact hwt hpeer⟩

/-- The connection has been attached to its first shard. -/
theorem peer_points_home_attached :
    let gateway := (runActions Gateway.step Gateway.start (movingActions.take 9)).getD Gateway.start
    ∃ peer, gateway.peers.get? 0 = some peer ∧ peer.serve.isEarly = false ∧ peer.shard = 0 :=
  (peer_points_home (reaches_getD ⟨by decide +kernel, allAllowed_true _ _⟩)).1 0 _ 0
    (@eq_some_getD _ _ ⟨0, [], Table.empty⟩ (by decide +kernel)) (.inl (by decide +kernel))

end MumbleRuntime
