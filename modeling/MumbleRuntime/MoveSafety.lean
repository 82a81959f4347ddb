import MumbleRuntime.Moves

/-!
# A move does not cost a connection

While the client of a connection stays and its shards last, the connection is
lost only where a shard is asked for it in vain or hands it over before its first
view. Where neither happens it lives on, and comes to rest on a shard it was
routed or moved to.
-/

namespace MumbleRuntime

open Library Gateway Table List Command Actor

variable {actor : Actor}

namespace Gateway

section Steps

variable {keep : ShardId → Bool} {connection : ConnectionId} {gateway gateway' : Gateway}
  {action : Action}

variable {task : TaskId}

theorem Actor.Grounded.holds {rest : List Command} (h : actor.Grounded connection)
    (hbox : actor.mailbox = .detach connection (some task) :: rest) :
    actor.holds connection = true := by
  rw [Grounded, hbox] at h
  simp only [grounded, asks, decide_true, Bool.not_true, Bool.false_or, Bool.and_eq_true] at h
  exact h.1

variable {shard : ShardId}

variable (hl : gateway.Lodged) (hp : gateway.Placed) (hk : gateway.Kept keep connection)

section

variable (h : Taken gateway action gateway')

include h

theorem Taken.request_kept (hl : gateway.Lodged)
    (hk : gateway.Kept keep connection) {migration migration' : Migration}
    (hlasts : gateway.Lasts keep shard) (hact : gateway.actors.get? shard = some actor)
    (hmem : .detach connection (some task) ∈ actor.mailbox)
    (hmig : gateway.migrations.get? task = some migration) (hstg : migration.stage = .awaiting)
    (hmig' : gateway'.migrations.get? task = some migration')
    (hstg' : migration'.stage = .awaiting) :
    ∃ actor', gateway'.actors.get? shard = some actor' ∧
      .detach connection (some task) ∈ actor'.mailbox := by
  rcases h.actor hl.numbered hact with ⟨actor', hact', hfate⟩ | ⟨-, hlst⟩
  swap
  · rw [Lasts, hlst] at hlasts
    cases hlasts.2
  refine ⟨actor', hact', ?_⟩
  obtain rfl := key_of_get? hact
  cases hfate with
  | rest => exact hmem
  | attached hbox =>
    rw [hbox] at hmem
    exact (mem_cons.mp hmem).resolve_left (by simp)
  | detached hbox hhd =>
    rw [hbox] at hmem
    rcases mem_cons.mp hmem with hhead | hrest
    · -- the request is answered, so its migration waits no longer
      cases hhead
      have hheld := hhd.resolve_left (by simp)
      obtain ⟨other, command, rest, hoth, hsame, rfl⟩ := h.of_deliver
      rw [hact] at hoth
      cases hoth
      rw [hbox] at hsame
      cases hsame
      simp only [holds] at hheld
      simp only [handle, holds, hheld, if_true, handOver_eq hmig hstg] at hmig'
      obtain rfl := key_of_get? hmig
      rw [get?_setMigration, if_pos rfl] at hmig'
      cases hmig'
      cases hstg'
    · exact hrest
  | notHeld hbox hhd =>
    rcases mem_cons.mp (hbox ▸ hmem) with hhead | hrest
    · cases hhead
      rw [(hk.grounded _ _ hact).holds hbox] at hhd
      cases hhd
    · exact hrest
  | published => exact hmem
  | _ => exact mem_append_left _ hmem

theorem Taken.requested (hl : gateway.Lodged)
    (hk : gateway.Kept keep connection) {migration' : Migration}
    (hmig' : gateway'.migrations.get? task = some migration')
    (hconn : migration'.connection = connection) (hstg' : migration'.stage = .awaiting) :
    ∃ shard actor, gateway'.Lasts keep shard ∧ gateway'.actors.get? shard = some actor ∧
      .detach connection (some task) ∈ actor.mailbox := by
  rcases h.migration_cases hmig' with ⟨migration, hmig, hfate⟩ | ⟨-, -, hspawned, -⟩
  swap
  · rw [hspawned] at hstg'
    cases hstg'
  cases hfate with
  | rest =>
    obtain ⟨shard, actor, hlasts, hact, hmem⟩ := hk.asked _ _ hmig hconn hstg'
    obtain ⟨actor', hact', hmem'⟩ := h.request_kept hl hk hlasts hact hmem hmig hstg' hmig' hstg'
    exact ⟨shard, actor', h.lasts hk hlasts, hact', hmem'⟩
  | next hprog => cases hprog <;> cases hstg'
  | asked hstg =>
    obtain rfl := key_of_get? hmig
    have hlasts := hk.source _ _ _ hmig hconn (by rw [hstg]; rfl)
    have haft := h.lasts hk hlasts
    obtain ⟨other, actor, hoth, hlooked, hact, rfl⟩ := h.of_sendHandover
    rw [hmig] at hoth
    cases hoth
    rw [hstg] at hlooked
    simp only [Migrate.looked.injEq, and_true] at hlooked
    rw [hlooked] at haft
    refine ⟨actor.id, _, haft, by rw [post, get?_setActor, if_pos rfl], ?_⟩
    simp [← hconn]
  | handed => cases hstg'
  | followed => cases hstg'

theorem Taken.mailbox_mem {command : RuntimeCommand} (hmem : command ∈ gateway'.mailbox) :
    command ∈ gateway.mailbox ∨
    (∃ other shard, action = .requestMove other shard ∧ command = .move other shard) ∨
    ∃ shard, action = .requestDestroy shard ∧ command = .destroy shard := by
  cases h with
  | requestMove other shard =>
    rcases mem_append.mp hmem with hold | hnew
    · exact .inl hold
    · exact .inr (.inl ⟨other, shard, rfl, mem_singleton.mp hnew⟩)
  | requestDestroy shard =>
    rcases mem_append.mp hmem with hold | hnew
    · exact .inl hold
    · exact .inr (.inr ⟨shard, rfl, mem_singleton.mp hnew⟩)
  | spawn _ hbox
  | destroy _ hbox => exact .inl (hbox ▸ mem_cons_of_mem _ hmem)
  | @handedOver actor other task rest _ _ _ _ hres =>
    rcases gateway.handOver_cases { actor with mailbox := rest } other task with
      ⟨migration, -, -, hcase⟩ | ⟨-, hcase⟩ <;>
    · rw [hres, hcase] at hmem
      exact .inl hmem
  | _ => exact .inl hmem

theorem Taken.destroying_cases {pending : List ConnectionId}
    (hdes' : gateway'.destroying = some (shard, pending)) :
    (∃ before, gateway.destroying = some (shard, before) ∧ pending ⊆ before) ∨
    (.destroy shard ∈ gateway.mailbox ∧ ∀ other ∈ pending,
      ∃ peer, gateway.peers.get? other = some peer ∧ peer.registered = true) := by
  cases h with
  | destroy _ hbox =>
    cases hdes'
    refine .inr ⟨hbox ▸ mem_cons_self, fun other hmem => ?_⟩
    obtain ⟨peer, hpeer, rfl⟩ := mem_map.mp hmem
    obtain ⟨hrow, hreg⟩ := mem_filter.mp hpeer
    exact ⟨peer, get?_of_mem hrow, hreg⟩
  | close hbef
  | spare hbef =>
    cases hdes'
    exact .inl ⟨_, hbef, subset_cons_self _ _⟩
  | unlist => cases hdes'
  | @handedOver actor other task rest _ _ _ _ hres =>
    rw [hres, (gateway.handOver_listed { actor with mailbox := rest } other task).2] at hdes'
    exact .inl ⟨pending, hdes', List.Subset.refl _⟩
  | _ => exact .inl ⟨pending, hdes', List.Subset.refl _⟩

theorem Taken.not_new (hn : gateway.Numbered) {peer : Peer}
    (hpeer : gateway.peers.get? connection = some peer) (hnew : peer.serve.isNew = false) :
    ∃ peer', gateway'.peers.get? connection = some peer' ∧ peer'.serve.isNew = false := by
  obtain ⟨peer', hpeer', hfate⟩ := h.peer hn hpeer
  refine ⟨peer', hpeer', ?_⟩
  cases hfate with
  | serve hadv => cases hadv <;> simp_all [Serve.isNew]
  | sendAttach => rfl
  | sendDetach => rfl
  | _ => exact hnew

include hl hp hk in
theorem Taken.passing {pending : List ConnectionId}
    (hdes' : gateway'.destroying = some (shard, pending)) :
    keep shard = false ∧ (connection ∈ pending →
      ∃ peer, gateway'.peers.get? connection = some peer ∧ peer.serve.isNew = false) := by
  rcases h.destroying_cases hdes' with ⟨before, hbef, hsub⟩ | ⟨hmem, hreg⟩
  · obtain ⟨hspare, hpending⟩ := hk.passing _ _ hbef
    refine ⟨hspare, fun hmem => ?_⟩
    obtain ⟨peer, hpeer, hnew⟩ := hpending (hsub hmem)
    exact h.not_new hl.numbered hpeer hnew
  · refine ⟨hk.spared _ hmem, fun hpending => ?_⟩
    obtain ⟨peer, hpeer, hin⟩ := hreg _ hpending
    rw [hp.registered _ _ hpeer] at hin
    refine h.not_new hl.numbered hpeer ?_
    cases hsrv : peer.serve <;> simp_all [Serve.isRegistered, Serve.isNew]

end

theorem Actor.Grounded.taken {command : Command} {rest : List Command}
    {connections : OrderedMap ConnectionId Bool} (h : actor.Grounded connection)
    (hbox : actor.mailbox = command :: rest)
    (hhd : ({ actor with mailbox := rest, connections } : Actor).holds connection =
      command.settle connection (actor.holds connection)) :
    ({ actor with mailbox := rest, connections } : Actor).Grounded connection := by
  rw [Grounded, hbox] at h
  simp only [grounded, Bool.and_eq_true] at h
  rw [Grounded, hhd]
  exact h.2

theorem Taken.grounded (h : Taken gateway action gateway') (hl : gateway.Lodged)
    (hk : gateway.Kept keep connection) (hs : gateway.answerable connection action = true)
    {actor' : Actor} (hact' : gateway'.actors.get? shard = some actor') :
    actor'.Grounded connection := by
  rcases h.actor_cases hl.numbered hact' with ⟨actor, hact, hfate⟩ | ⟨-, hmail, -⟩
  swap
  · rw [Actor.Grounded, hmail]
    rfl
  have hbef := hk.grounded _ _ hact
  cases hfate with
  | rest => exact hbef
  | @handoverSent migration hmig hstg =>
    refine hbef.post fun hasks => ?_
    have hconn : migration.connection = connection := by simpa [asks] using hasks
    simp only [answerable, hmig, all_eq_true] at hs
    simpa [hconn, hstg] using hs actor (mem_of_get? hact)
  | attached hbox => exact hbef.taken hbox (actor.holds_set _ _ _ _)
  | detached hbox => exact hbef.taken hbox (actor.holds_erase _ _ _)
  | @notHeld other task rest hbox hhd =>
    refine hbef.taken hbox ?_
    by_cases hconn : connection = other
    · subst hconn
      simpa [settle, holds] using hhd
    · simp [settle, hconn, holds]
  | @published peer hpeer hrdy =>
    have hhd := actor.holds_set actor.mailbox peer.id false connection
    rw [Actor.Grounded, hhd]
    by_cases hconn : connection = peer.id
    · subst hconn
      simpa [Actor.Grounded, holds_of_find? hrdy] using hbef
    · simpa [Actor.Grounded, hconn] using hbef
  | _ => exact hbef.post (by simp [asks])

theorem ActorFate.owesReady {actor actor' : Actor} (h : ActorFate gateway actor action actor')
    (howes : actor.owesReady connection = true) (hone : actor.weight connection ≤ 1) :
    actor'.owesReady connection = true ∨ action = .publish actor.id connection ∨
    (action = .deliver actor.id ∧ actor.connections.find? connection = some true ∧
      ∃ handover rest, actor.mailbox = .detach connection handover :: rest) := by
  have hcases : actor.connections.find? connection = some true ∨
      .attach connection true ∈ actor.mailbox := by simpa [Actor.owesReady] using howes
  cases h with
  | rest => exact .inl howes
  | @attached other ready rest hbox =>
    left
    by_cases hconn : connection = other
    · subst hconn
      cases ready with
      | true => simp [Actor.owesReady]
      | false =>
        -- a second `Attach` would stand for the connection twice
        exfalso
        rw [weight, hbox, countP_cons, if_pos (by simp [isAttach])] at hone
        rcases hcases with hfind | hmem
        · rw [holds_of_find? hfind, Bool.toNat_true] at hone
          omega
        · have hrest : .attach connection true ∈ rest := by simpa [hbox] using hmem
          have hpos : 0 < rest.countP (isAttach connection) :=
            countP_pos_iff.mpr ⟨_, hrest, by simp [isAttach]⟩
          omega
    · rcases hcases with hfind | hmem
      · simp [Actor.owesReady, hconn, hfind]
      · have hrest : .attach connection true ∈ rest := by
          simpa [hbox, hconn] using hmem
        simp [Actor.owesReady, hrest]
  | @detached other handover rest hbox =>
    rcases hcases with hfind | hmem
    · by_cases hconn : connection = other
      · subst hconn
        exact .inr (.inr ⟨rfl, hfind, handover, rest, hbox⟩)
      · exact .inl (by simp [Actor.owesReady, hconn, hfind])
    · have hrest : .attach connection true ∈ rest := by simpa [hbox] using hmem
      exact .inl (by simp [Actor.owesReady, hrest])
  | @notHeld other task rest hbox =>
    rcases hcases with hfind | hmem
    · exact .inl (by simp [Actor.owesReady, hfind])
    · have hrest : .attach connection true ∈ rest := by simpa [hbox] using hmem
      exact .inl (by simp [Actor.owesReady, hrest])
  | @published peer hpeer hrdy =>
    by_cases hconn : connection = peer.id
    · subst hconn
      exact .inr (.inl rfl)
    · rcases hcases with hfind | hmem
      · exact .inl (by simp [Actor.owesReady, hconn, hfind])
      · exact .inl (by simp [Actor.owesReady, hmem])
  | _ => exact .inl (by rcases hcases with h | h <;> simp [Actor.owesReady, h])

theorem Actor.weight_pos_of_owesReady (h : actor.owesReady connection = true) :
    0 < actor.weight connection := by
  rw [owesReady, Bool.or_eq_true, decide_eq_true_eq, contains_iff_mem] at h
  rcases h with hfind | hmem
  · exact weight_pos_of_holds (holds_of_find? hfind)
  · refine Nat.lt_add_left _ (countP_pos_iff.mpr ⟨_, hmem, ?_⟩)
    simp [isAttach]

variable {peer' : Peer}

section

variable (h : Taken gateway action gateway')

include h

include hl hp hk in
theorem Taken.owes (hs : gateway.answerable connection action = true)
    {peer : Peer} (hpeer : gateway.peers.get? connection = some peer)
    (hsrv : peer.serve = .waiting) (hpeer' : gateway'.peers.get? connection = some peer')
    (hrdy' : peer'.ready = false) (hact : gateway.actors.get? shard = some actor)
    (howes : actor.owesReady connection = true) :
    ∃ actor', gateway'.actors.get? shard = some actor' ∧ actor'.owesReady connection = true := by
  have hwt := weight_pos_of_owesReady howes
  rcases h.actor hl.numbered hact with ⟨actor', hact', hfate⟩ | ⟨-, hlst⟩
  swap
  · rw [hk.not_stopped hl hp hlst hact] at hwt
    cases hwt
  have hone : actor.weight connection ≤ 1 := by
    have hresidence := hl.residence_le_one connection
    have hle := le_sum_of_get? hact (weight connection)
    simp only [residence] at hresidence
    omega
  obtain rfl := key_of_get? hact
  rcases hfate.owesReady howes hone with haft | rfl | ⟨rfl, hfind, handover, rest, hbox⟩
  · exact ⟨actor', hact', haft⟩
  · obtain ⟨other, -, hoth⟩ := h.of_publish
    rw [hoth] at hpeer'
    cases hpeer'
    cases hrdy'
  · exfalso
    cases handover with
    | none =>
      obtain ⟨other, hoth, hended⟩ := hp.left _ _ _ hact (hbox ▸ mem_cons_self)
      rw [hpeer] at hoth
      cases hoth
      rw [hsrv] at hended
      cases hended
    | some task => simp [answerable, hact, hbox, hfind] at hs

include hl hp hk in
theorem Taken.owed (hs : gateway.answerable connection action = true)
    (hpeer' : gateway'.peers.get? connection = some peer') (hsrv' : peer'.serve = .waiting)
    (hrdy' : peer'.ready = false) :
    ∃ shard actor, gateway'.actors.get? shard = some actor ∧
      actor.owesReady connection = true := by
  have hgo : ∀ peer, gateway.peers.get? connection = some peer → peer.serve = .waiting →
      peer.ready = false → ∃ shard actor, gateway'.actors.get? shard = some actor ∧
        actor.owesReady connection = true := by
    intro peer hpeer hsrv hrdy
    obtain ⟨shard, actor, hact, howes⟩ := hk.owed _ hpeer hsrv hrdy
    obtain ⟨actor', hact', haft⟩ := h.owes hl hp hk hs hpeer hsrv hpeer' hrdy' hact howes
    exact ⟨shard, actor', hact', haft⟩
  rcases h.peer_cases hl.numbered hpeer' with ⟨peer, hpeer, hfate⟩ | ⟨-, -, hsrv, -⟩
  swap
  · rw [hsrv] at hsrv'
    cases hsrv'
  obtain rfl := key_of_get? hpeer
  cases hfate with
  | serve hadv => cases hadv <;> cases hsrv'
  | sendAttach =>
    obtain ⟨other, actor, -, -, hact, rfl⟩ := h.of_sendAttach
    refine ⟨actor.id, _, by rw [post, get?_setActor, if_pos rfl], ?_⟩
    simp [Actor.owesReady]
  | sendDetach => cases hsrv'
  | published => cases hrdy'
  | _ => exact hgo _ hpeer hsrv' hrdy'

include hl hp hk in
theorem Taken.lodges_kept (hu : gateway.undisturbed keep connection action = true)
    (hpeer' : gateway'.peers.get? connection = some peer')
    (hlate : peer'.serve = .waiting ∨ peer'.serve = .serving) :
    0 < gateway'.residence connection := by
  have halive := (h.alive hl hp hk hu hpeer').1
  rw [Peer.doomed, Bool.or_eq_false_iff] at halive
  rcases h.peer_cases hl.numbered hpeer' with ⟨peer, hpeer, hfate⟩ | ⟨-, -, hsrv, -⟩
  swap
  · simp [hsrv] at hlate
  obtain rfl := key_of_get? hpeer
  rcases hfate.late hlate halive.1 with rfl | ⟨hbef, -⟩
  · obtain ⟨other, actor, -, -, hact, rfl⟩ := h.of_sendAttach
    rw [residence_post (gateway.setPeer { other with serve := .waiting }) hact]
    simp [isAttach]
  have hpos := hk.lodges _ hpeer hbef
  rcases h.residence_ge hl hp peer.id with hge | hloses
  · exact hpos.trans_le hge
  exfalso
  cases hloses with
  | stop hlst hact hwt =>
    rw [hk.not_stopped hl hp hlst hact] at hwt
    cases hwt
  | left hoth hended =>
    rw [hpeer] at hoth
    cases hoth
    simp [hended] at hbef
  | closed hmig hconn hprog =>
    exact hk.no_close hu hmig hconn hprog

include hl hp hk in
theorem Taken.kept (hu : gateway.undisturbed keep connection action = true)
    (hs : gateway.answerable connection action = true) : gateway'.Kept keep connection where
  alive _ hpeer := h.alive hl hp hk hu hpeer
  routed _ _ hpeer hsrv := h.routed hl hk hu hpeer hsrv
  placed _ hpeer hnew := h.stands hl hp hk hu hpeer hnew
  destination _ _ hmig hconn := h.destination hk hmig hconn
  source _ _ _ hmig hconn hsource := h.source hp hk hmig hconn hsource
  present _ _ _ hmig hconn := h.present hk hmig hconn
  asked _ _ hmig hconn hstg := h.requested hl hk hmig hconn hstg
  moves shard hmem := by
    refine h.lasts hk ?_
    rcases h.mailbox_mem hmem with hold | ⟨other, target, rfl, heq⟩ | ⟨target, -, heq⟩
    · exact hk.moves _ hold
    · cases heq
      simpa [undisturbed, Lasts] using hu
    · cases heq
  spared shard hmem := by
    rcases h.mailbox_mem hmem with hold | ⟨other, target, -, heq⟩ | ⟨target, rfl, heq⟩
    · exact hk.spared _ hold
    · cases heq
    · cases heq
      simpa [undisturbed] using hu
  passing _ _ hdes := h.passing hl hp hk hdes
  grounded _ _ hact := h.grounded hl hk hs hact
  owed _ hpeer hsrv hrdy := h.owed hl hp hk hs hpeer hsrv hrdy
  lodges _ hpeer hlate := h.lodges_kept hl hp hk hu hpeer hlate

end

end Steps

theorem start_kept (keep : ShardId → Bool) (connection : ConnectionId) :
    start.Kept keep connection where
  alive _ h := by cases h
  routed _ _ h := by cases h
  placed _ h := by cases h
  destination _ _ h := by cases h
  source _ _ _ h := by cases h
  present _ _ _ h := by cases h
  asked _ _ h := by cases h
  moves _ h := by cases h
  spared _ h := by cases h
  passing _ _ h := by cases h
  grounded _ _ h := by cases h
  owed _ h := by cases h
  lodges _ h := by cases h

theorem Reaches.kept {keep : ShardId → Bool} {connection : ConnectionId} {gateway : Gateway}
    (h : Reaches step (fun g action => undisturbed keep connection g action = true ∧
      answerable connection g action = true) start gateway) :
    gateway.Lodged ∧ gateway.Placed ∧ gateway.Kept keep connection := by
  refine Reaches.invariant (P := fun g => g.Lodged ∧ g.Placed ∧ g.Kept keep connection)
    ⟨start_lodged, start_placed, start_kept keep connection⟩ ?_ h
  rintro before action after ⟨hl, hp, hk⟩ ⟨hu, hs⟩ hstep
  have htkn := step_taken hstep
  exact ⟨htkn.lodged hl, htkn.placed hl hp, htkn.kept hl hp hk hu hs⟩

end Gateway

open Gateway in
/-- While its client stays and its shards last, a connection whose moves ask only
shards that can answer is never closed, and rests on a shard it was sent to. -/
theorem moves_keep_connection {keep : ShardId → Bool} {connection : ConnectionId}
    {gateway : Gateway} {peer : Peer}
    (h : Reaches Gateway.step (fun g action => undisturbed keep connection g action = true ∧
      answerable connection g action = true) Gateway.start gateway)
    (hpeer : gateway.peers.get? connection = some peer) :
    peer.abandoned = false ∧ peer.mustClose = false ∧ peer.serve.isDead = false ∧
    (peer.serve = .waiting ∨ peer.serve = .serving → gateway.SettledFor connection →
      keep peer.shard = true ∧ gateway.listed.contains peer.shard = true ∧
      ∃ actor, gateway.actors.get? peer.shard = some actor ∧ actor.holds connection = true) := by
  obtain ⟨hl, hp, hk⟩ := Reaches.kept h
  obtain ⟨hsnd, hheld⟩ := hk.alive _ hpeer
  rw [Peer.doomed, Bool.or_eq_false_iff] at hsnd
  refine ⟨hheld, hsnd.1, hsnd.2, fun hlate hsettled => ?_⟩
  obtain ⟨shard, actor, hact, hhd⟩ := hsettled.held (hk.lodges _ hpeer hlate)
  have hwt := Actor.weight_pos_of_holds hhd
  have hsh := hp.resides _ _ _ _ hact hwt hpeer
  obtain ⟨hkeep, hlst⟩ := hk.lasts_of_weight hl hp hact hwt
  rw [hsh]
  exact ⟨hkeep, hlst, actor, hact, hhd⟩

open Gateway in
def arrivedActions : List Action := movingActions ++ [.follow 0, .sendHeld 0, .deliver 1]

def arrivedGateway : Gateway :=
  (runActions Gateway.step Gateway.start arrivedActions).getD Gateway.start

open Gateway in
def arrivedPeer : Peer := ⟨0, .serving, 1, true, false, true, false⟩

open Gateway in
theorem moves_keep_arrived :
    arrivedGateway.SettledFor 0 ∧ ∃ actor, arrivedGateway.actors.get? 1 = some actor ∧
      actor.holds 0 = true :=
  ⟨by decide +kernel, ((moves_keep_connection
    (reaches_of_run (eq_some_getD (by decide +kernel)) (by decide +kernel : AllAllowed step
      (fun g action => undisturbed (fun _ => true) 0 g action = true ∧
        answerable 0 g action = true) start arrivedActions))
    (by decide +kernel : arrivedGateway.peers.get? 0 = some arrivedPeer)).2.2.2 (.inr rfl)
      (by decide +kernel)).2.2⟩

open Gateway in
/-- Two moves of one connection both find it on shard 0: the second asks for a
connection the first has been handed. -/
def overlappingActions : List Action :=
  [.create, .create, .create, .reserve, .serve 0 (.route 0), .serve 0 .insert, .serve 0 .lookup,
    .serve 0 .point, .sendAttach 0, .deliver 0, .publish 0 0, .serve 0 .ready, .requestMove 0 1,
    .requestMove 0 2, .supervise, .supervise, .migrate 0 .find, .migrate 1 .find,
    .migrate 0 .readSource, .migrate 1 .readSource, .migrate 0 .look, .migrate 1 .look,
    .sendHandover 0, .sendHandover 1, .deliver 0, .deliver 0, .migrate 1 .dropped]

def overlappingGateway : Gateway :=
  (runActions Gateway.step Gateway.start overlappingActions).getD Gateway.start

open Gateway in
theorem overlapping_moves_close :
    Reaches Gateway.step (fun g action => undisturbed (fun _ => true) 0 g action = true)
      Gateway.start overlappingGateway ∧
    (overlappingGateway.peers.get? 0).map Peer.abandoned = some true :=
  ⟨reaches_of_run (eq_some_getD (by decide +kernel)) (by decide +kernel : AllAllowed step
    (fun g action => undisturbed (fun _ => true) 0 g action = true) start
      overlappingActions), by decide +kernel⟩

end MumbleRuntime
