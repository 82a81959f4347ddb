import MumbleRuntime.Audio
import MumbleRuntime.Base
import MumbleRuntime.Trail

/-!
# The voice gate

A packet of a sender goes to the receivers its table lists, as far as their
cursors have reached the version the sender appeared at. The table is published
before a turn pushes its first transition, so the gate is also read in the middle
of a turn. It is sound as long as a route opens only to connections of its own
shard that see the sender already or are behind it, every committed view holds
the senders routed to it, and nobody arrives who is still listed anywhere.
-/

namespace MumbleRuntime
open Library MumbleRuntime.Runtime Table AudioRouting ElementId Option List
open Shard hiding id
open AttachedConnection hiding id

structure Peer where
  session : SessionId
  cursor : ℕ
  queue : OutboundQueue

def AttachedConnection.peer (attached : AttachedConnection) : Peer :=
  ⟨attached.session, attached.sharedCursor, attached.queue⟩

def Flight.peer (flight : Flight) : Peer := ⟨flight.session, flight.cursor, flight.queue⟩

/-- The peers one packet of `sender` goes to. -/
def AudioRouting.speak (routing : AudioRouting) (bySession : SessionId → Option Peer)
    (sender : SessionId) : List Peer :=
  let since := (routing.since sender).getD 0
  (routing.receivers sender).filterMap fun receiver =>
    (bySession receiver).filter fun peer => !(decide (peer.cursor < since))

namespace Runtime

def peers (runtime : Runtime) : List Peer :=
  runtime.shards.rows.flatMap (fun shard => shard.connections.rows.map AttachedConnection.peer) ++
    runtime.flights.rows.map Flight.peer

def bySession (runtime : Runtime) (session : SessionId) : Option Peer :=
  runtime.peers.find? fun peer => peer.session = session

def GateSound (runtime : Runtime) : Prop :=
  ∀ id shard sender, runtime.shards.get? id = some shard →
    ∀ peer ∈ shard.routing.speak runtime.bySession sender,
      peer.queue.client.contains (.user sender) = true

/-- A turn whose table is published and whose transitions have reached the
connections below `bound`. -/
def midTurn (runtime : Runtime) (shard : Shard) (logic : ShardLogic) (rendered : Rendered)
    (bound : Option ConnectionId) : Runtime :=
  { runtime with
    shards := runtime.shards.insert
      ((shard.publish rendered).deliverBelow shard.view logic rendered bound) }

end Runtime

/-- Whatever the table routes to this peer and the gate lets through, its client
has been told of. -/
def AudioRouting.Audible (routing : AudioRouting) (peer : Peer) : Prop :=
  ∀ sender, peer.session ∈ routing.receivers sender →
    (routing.since sender).getD 0 ≤ peer.cursor →
    peer.queue.client.contains (.user sender) = true

variable {routing : AudioRouting} {sender : SessionId}

theorem AudioRouting.speak_audible {bySession : SessionId → Option Peer}
    {peer : Peer} (h : peer ∈ routing.speak bySession sender) :
    ∃ receiver, bySession receiver = some peer ∧ receiver ∈ routing.receivers sender ∧
      (routing.since sender).getD 0 ≤ peer.cursor := by
  obtain ⟨receiver, hrcvr, hpeer⟩ := mem_filterMap.mp h
  rw [filter_eq_some_iff] at hpeer
  exact ⟨receiver, hpeer.1, hrcvr, by simpa using hpeer.2⟩

theorem Runtime.gateSound_of_audible {runtime : Runtime}
    (hatt : ∀ {id shard id' shard' connection attached},
      runtime.shards.get? id = some shard → runtime.shards.get? id' = some shard' →
      shard'.connections.get? connection = some attached → shard.routing.Audible attached.peer)
    (hflying : ∀ {id shard connection flight}, runtime.shards.get? id = some shard →
      runtime.flights.get? connection = some flight → shard.routing.Audible flight.peer) :
    runtime.GateSound := by
  intro id shard sender hsh peer hpeer
  obtain ⟨receiver, hfnd, hrcvr, hsince⟩ := speak_audible hpeer
  have hses : peer.session = receiver := by simpa using find?_some hfnd
  have hmem := mem_of_find?_eq_some hfnd
  have haudible : shard.routing.Audible peer := by
    rcases mem_append.mp hmem with hin | hin
    · obtain ⟨shard', hsh', hrow⟩ := mem_flatMap.mp hin
      obtain ⟨attached, hrow', rfl⟩ := mem_map.mp hrow
      exact hatt hsh (get?_of_mem hsh') (get?_of_mem hrow')
    · obtain ⟨flight, hfl, rfl⟩ := mem_map.mp hin
      exact hflying hsh (get?_of_mem hfl)
  exact haudible sender (hses ▸ hrcvr) hsince

variable {rendered : Rendered}

namespace Shard

theorem dated_find {since : OrderedMap SessionId ℕ} {view : ShardView} {version : ℕ}
    {session : SessionId} {dated : ℕ} (h : since.find? session = some dated) :
    (Shard.dated since view version).find? session = some dated := by
  unfold Shard.dated
  induction view.users.rows generalizing since with
  | nil => exact h
  | cons user rest ih =>
    rw [foldl_cons]
    apply ih
    split_ifs with hctn
    · exact h
    · rw [OrderedMap.find?_set, if_neg, h]
      rintro rfl
      apply hctn
      obtain ⟨entry, hentry, -⟩ := map_eq_some_iff.mp h
      exact contains_iff.mpr ⟨entry, hentry⟩

theorem publish_since (shard : Shard) (rendered : Rendered) :
    (shard.publish rendered).since =
      dated shard.since rendered.view (shard.published rendered) := by
  unfold publish published
  dsimp only
  split_ifs <;> rfl

variable {shard : Shard}

theorem Compiled.since (h : shard.Compiled) (session : SessionId) :
    shard.routing.since session = shard.since.find? session := by
  rw [h]
  rfl

theorem publish_gate (h : shard.Compiled) {cursor : ℕ}
    (hgate : ((shard.publish rendered).routing.since sender).getD 0 ≤ cursor) :
    (shard.routing.since sender).getD 0 ≤ cursor := by
  rw [(publish_compiled h rendered).1.since, publish_since] at hgate
  rw [h.since]
  cases hsince : shard.since.find? sender with
  | none => exact Nat.zero_le _
  | some dated =>
    rw [dated_find hsince] at hgate
    exact hgate

def Opens (shard : Shard) (rendered : Rendered) (sender receiver : SessionId) : Prop :=
  receiver ∈ (shard.publish rendered).routing.receivers sender ∧
    receiver ∉ shard.routing.receivers sender

/-- The connection is behind the sender's appearance, or sees the sender where it
stands and is not owed it. -/
def Ready (shard : Shard) (rendered : Rendered) (sender : SessionId)
    (attached : AttachedConnection) : Prop :=
  attached.sharedCursor < ((shard.publish rendered).routing.since sender).getD 0 ∨
    ((attached.composed shard.view).contains (.user sender) = true ∧
      ¬shard.Owes attached (.user sender))

theorem audible_published {attached : AttachedConnection} {matters : ElementId → Prop}
    (htold : shard.Told matters attached) (hmatters : ∀ session, matters (.user session))
    (hcompiled : shard.Compiled) (h : shard.routing.Audible attached.peer)
    (hrdy : ∀ sender, shard.Opens rendered sender attached.session →
      shard.Ready rendered sender attached) :
    (shard.publish rendered).routing.Audible attached.peer := by
  intro sender hrte hgate
  by_cases hold : attached.session ∈ shard.routing.receivers sender
  · exact h sender hold (publish_gate hcompiled hgate)
  · rcases hrdy sender ⟨hrte, hold⟩ with hbehind | ⟨hseen, howes⟩
    · exact absurd hgate (Nat.not_le.mpr hbehind)
    · exact htold.composed (hmatters sender) hseen howes

/-- The view the turn commits the connection to holds every sender the new table
routes to it. -/
def CommitsSenders (shard : Shard) (logic : ShardLogic) (rendered : Rendered)
    (attached : AttachedConnection) : Prop :=
  shard.admitsTurn logic rendered attached = true →
    ∀ sender, attached.session ∈ (shard.publish rendered).routing.receivers sender →
      ((rendered.view.restrict (logic.observation attached.id)).compose
        (rendered.overlayOf attached.id)).contains (.user sender) = true

end Shard

theorem AudioRouting.Audible.of_client {peer peer' : Peer}
    (h : routing.Audible peer) (hses : peer'.session = peer.session)
    (hcursor : peer'.cursor = peer.cursor) (hclient : peer'.queue.client = peer.queue.client) :
    routing.Audible peer' := by
  intro sender hrte hgate
  rw [hclient]
  exact h sender (hses ▸ hrte) (hcursor ▸ hgate)

def ElementId.isUser : ElementId → Prop
  | .user _ => True
  | .channel _ => False

variable {logic : ShardLogic}

namespace Shard

variable {shard : Shard} {attached : AttachedConnection}

theorem Told.at_head (h : shard.Told isUser attached)
    (hcursor : attached.cursor = shard.journal.head)
    (hseen : (attached.composed shard.view).contains (.user sender) = true) :
    attached.queue.client.contains (.user sender) = true :=
  h.composed (e := .user sender) trivial hseen (not_owes_of_head hcursor _)

theorem audible_turned (htold : shard.Told isUser attached) (hstep : shard.InStep)
    {builder : ShardBuilder} {observations : Observations}
    (hok : builder.finish observations = .ok rendered)
    (hplans : shard.PlansFromTold isUser logic rendered attached)
    (hcommits : shard.CommitsSenders logic rendered attached)
    (h : (shard.publish rendered).routing.Audible attached.peer) (ids : IdAllocator) :
    (shard.publish rendered).routing.Audible (shard.turned logic rendered attached).peer := by
  have htold' := htold.turned hstep hok hplans ids
  rcases shard.turned_cases logic rendered attached with
    ⟨ops, -, hadm, -, queue, -, htrn⟩ | ⟨-, -, queue, hacc, htrn⟩
  · intro sender hrte _
    rw [htrn] at hrte htold' ⊢
    refine htold'.at_head (published_eq_head hstep rendered) ?_
    rw [show (shard.accept ids logic rendered).1.view = rendered.view from
      shard.publish_view rendered]
    exact hcommits hadm sender hrte
  · rw [htrn]
    exact h.of_client rfl rfl (OutboundQueue.Adds.client (.of_eq hacc))

theorem turned_session (shard : Shard) (logic : ShardLogic) (rendered : Rendered)
    (attached : AttachedConnection) :
    (shard.turned logic rendered attached).session = attached.session := by
  rcases shard.turned_cases logic rendered attached with
    ⟨ops, -, -, -, queue, -, htrn⟩ | ⟨-, -, queue, -, htrn⟩
  · rw [htrn]
    rfl
  · rw [htrn]

end Shard

variable {connection : ConnectionId}

namespace Runtime

variable {runtime : Runtime} {shard : Shard}

theorem Fate.session {event : Event} {shard' : Shard} {attached attached' : AttachedConnection}
    (h : runtime.Fate event shard shard' attached attached') :
    attached'.session = attached.session := by
  cases h with
  | rest _ => rfl
  | touched _ _ => rfl
  | offered _ _ => rw [sendAll_eq]
  | retried _ _ _ =>
    rcases attached.push_cases shard.journal with
      ⟨replayed, -, -, queue, -, hpush⟩ | ⟨queue, outcome, -, hpush⟩
    · rw [hpush]
      rfl
    · rw [hpush]
  | turned _ _ _ _ => exact shard.turned_session _ _ _

def Unlisted (runtime : Runtime) (session : SessionId) : Prop :=
  ∀ id shard sender, runtime.shards.get? id = some shard →
    session ∉ shard.routing.receivers sender

/-- Routes are opened to connections of this shard only, and only when they are
ready for the sender. -/
def OpensSafely (runtime : Runtime) (id : ShardId) (shard : Shard) (rendered : Rendered) : Prop :=
  ∀ sender receiver, shard.Opens rendered sender receiver →
    (∀ connection flight, runtime.flights.get? connection = some flight →
      flight.session ≠ receiver) ∧
    ∀ id' other connection attached, runtime.shards.get? id' = some other →
      other.connections.get? connection = some attached → attached.session = receiver →
      id' = id ∧ shard.Ready rendered sender attached

def RoutesSafely (runtime : Runtime) (event : Event) : Prop :=
  runtime.Settles ElementId.isUser event ∧
    match event with
    | .connect _ => ∀ session ids,
        runtime.ids.session (.connection runtime.nextConnection) = .ok (session, ids) →
        runtime.Unlisted session
    | .arrive connection _ => ∀ session ids,
        runtime.ids.session (.connection connection) = .ok (session, ids) →
        runtime.Unlisted session
    | .turn id logic => ∀ shard rendered, runtime.shards.get? id = some shard →
        (shard.rendering runtime.ids logic).finish (shard.observations logic) = .ok rendered →
        shard.unchanged logic rendered = false →
        runtime.OpensSafely id shard rendered ∧
          ∀ connection attached, shard.connections.get? connection = some attached →
            shard.CommitsSenders logic rendered attached
    | .command id _ (.drained connection) => ∀ shard attached,
        runtime.shards.get? id = some shard →
        shard.connections.get? connection = some attached → attached.held = none →
        attached.admitsRetry shard.journal = true →
        ∀ sender, attached.session ∈ shard.routing.receivers sender →
          (attached.composed shard.view).contains (.user sender) = true
    | _ => True

/-- Connections are told of whom they hear, and no table but their own shard's
lists them. -/
structure Gated (runtime : Runtime) : Prop where
  attached : ∀ {id shard connection attached}, runtime.shards.get? id = some shard →
    shard.connections.get? connection = some attached → shard.routing.Audible attached.peer
  elsewhere : ∀ {id shard connection attached id' other}, runtime.shards.get? id = some shard →
    shard.connections.get? connection = some attached →
    runtime.shards.get? id' = some other → id' ≠ id →
    ∀ sender, attached.session ∉ other.routing.receivers sender
  flying : ∀ {id shard connection flight}, runtime.shards.get? id = some shard →
    runtime.flights.get? connection = some flight → shard.routing.Audible flight.peer

theorem Gated.sound (h : runtime.Gated) : runtime.GateSound := by
  refine gateSound_of_audible ?_ h.flying
  intro id shard id' shard' connection attached hsh hsh' hatt
  by_cases heq : id = id'
  · subst heq
    obtain rfl : shard = shard' := some.inj (hsh.symm.trans hsh')
    exact h.attached hsh hatt
  · intro sender hrte
    exact absurd hrte (h.elsewhere hsh' hatt hsh heq sender)

variable {id : ShardId}

theorem table_cases {runtime' : Runtime} {event : Event}
    (hstep : runtime.step event = some runtime') {shard' : Shard}
    (hsh' : runtime'.shards.get? id = some shard') :
    (event = .create ∧ shard'.routing = empty) ∨
      ∃ shard, runtime.shards.get? id = some shard ∧
        (shard'.routing = shard.routing ∨ ∃ logic rendered, event = .turn id logic ∧
          (shard.rendering runtime.ids logic).finish (shard.observations logic) = .ok rendered ∧
          shard.unchanged logic rendered = false ∧
          shard'.routing = (shard.publish rendered).routing) := by
  rcases (step_stepped hstep).shards id shard' hsh' with ⟨hcreate, rfl⟩ | ⟨shard, hsh, hbecomes⟩
  · exact Or.inl ⟨hcreate, rfl⟩
  · refine Or.inr ⟨shard, hsh, ?_⟩
    obtain rfl : shard.id = id := key_of_get? hsh
    rcases hbecomes.recast_or_turned with hsame | ⟨logic, hev, rfl⟩
    · exact Or.inl (hsame.get routing rfl)
    · rcases shard.reconcile_cases runtime.ids logic with hsame | ⟨rendered, hok, hchg, htrn⟩
      · exact Or.inl (by rw [hsame])
      · exact Or.inr ⟨logic, rendered, hev, hok, hchg, by rw [htrn]; rfl⟩

theorem reached_told (h : Reaches step RoutesSafely start runtime) :
    (toldLocally isUser fun _ _ (hsafe : RoutesSafely _ _) => hsafe.1).Holds runtime :=
  (toldLocally isUser fun _ _ hsafe => hsafe.1).holds h

variable {rendered : Rendered}

theorem OpensSafely.unlisted (h : runtime.OpensSafely id shard rendered) {session : SessionId}
    (hold : ∀ sender, session ∉ shard.routing.receivers sender) {id' : ShardId} {other : Shard}
    {attached : AttachedConnection} (hoth : runtime.shards.get? id' = some other)
    (hatt : other.connections.get? connection = some attached)
    (hses : attached.session = session) (hne : id ≠ id') (sender : SessionId) :
    session ∉ (shard.publish rendered).routing.receivers sender := by
  intro hrte
  obtain ⟨-, hhere⟩ := h sender session ⟨hrte, hold sender⟩
  exact hne (hhere id' other connection attached hoth hatt hses).1.symm

theorem OpensSafely.flying (h : runtime.OpensSafely id shard rendered) (hcompiled : shard.Compiled)
    {flight : Flight} (hfl : runtime.flights.get? connection = some flight)
    (haudible : shard.routing.Audible flight.peer) :
    (shard.publish rendered).routing.Audible flight.peer := by
  intro sender hrte hgate
  by_cases hold : flight.session ∈ shard.routing.receivers sender
  · exact haudible sender hold (publish_gate hcompiled hgate)
  · exact absurd rfl ((h sender flight.session ⟨hrte, hold⟩).1 connection flight hfl)

section Step

variable {runtime runtime' : Runtime} {event : Event} (h : runtime.Gated)
  (hsafe : runtime.RoutesSafely event) (hstep : runtime.step event = some runtime')

include h hsafe hstep

variable {shard' : Shard}

theorem gated_attached (hreach : Reaches step RoutesSafely start runtime)
    {id : ShardId} {attached' : AttachedConnection} (hsh' : runtime'.shards.get? id = some shard')
    (hatt' : shard'.connections.get? connection = some attached') :
    shard'.routing.Audible attached'.peer := by
  have htold := reached_told hreach
  have htold' := reached_told (.step hreach hsafe hstep)
  rcases (step_stepped hstep).shards id shard' hsh' with ⟨-, rfl⟩ | ⟨shard, hsh, hbecomes⟩
  · cases hatt'
  · obtain rfl : shard.id = id := key_of_get? hsh
    rcases hbecomes.fate hatt' with ⟨attached, hatt, hfate⟩ | ⟨hsame, flight, session, hlands⟩
    · obtain rfl : attached.id = connection := key_of_get? hatt
      have haudible := h.attached hsh hatt
      cases hfate with
      | rest hsame => exact (hsame.get routing rfl).symm ▸ haudible
      | touched hsame htch =>
        rw [hsame.get routing rfl]
        exact haudible.of_client rfl rfl htch.client
      | offered _ hsame =>
        rw [hsame.get routing rfl, sendAll_eq]
        exact haudible.of_client rfl rfl
          (sendAll_client (runtime.offered_isAside event shard attached))
      | retried hev hsame hheld =>
        subst hev
        have htoldRow := htold'.attached hsh' hatt'
        rw [hsame.get routing rfl]
        rcases attached.push_cases shard.journal with
          ⟨replayed, -, hadm, queue, -, hpush⟩ | ⟨queue, outcome, hacc, hpush⟩
        · intro sender hrte _
          rw [hpush] at hrte htoldRow ⊢
          refine Shard.Told.at_head htoldRow (hsame.get journal rfl ▸ rfl) ?_
          have hseen := hsafe.2 shard attached hsh hatt hheld hadm sender hrte
          simp only [composed, hheld] at hseen
          rw [hsame.get view rfl]
          exact hseen
        · rw [hpush]
          exact haudible.of_client rfl rfl (OutboundQueue.Adds.client (.of_eq hacc))
      | turned hev hok hchg htrn =>
        rename_i logic rendered
        subst hev htrn
        obtain ⟨hopens, hcommits⟩ := hsafe.2 shard rendered hsh hok hchg
        have hpub := audible_published (htold.attached hsh hatt)
          (fun _ => trivial) (compiled_of_reaches hreach _ shard hsh) haudible
          fun sender hopen => ((hopens sender _ hopen).2 _ shard _ attached hsh hatt rfl).2
        exact audible_turned (htold.attached hsh hatt) (htold.shards hsh) hok
          (hsafe.1 shard rendered hsh hok hchg _ attached hatt)
          (hcommits _ attached hatt) hpub (shard.rendering runtime.ids logic).ids
    · obtain ⟨ids, hses⟩ := hlands.named
      obtain ⟨logic, hev⟩ := hlands.taken
      subst hev
      intro sender hrte
      rw [hsame.get routing rfl, hlands.row, sendAll_eq] at hrte
      exact absurd hrte (hsafe.2 session ids hses _ shard sender hsh)

theorem gated_elsewhere {id id' : ShardId} {other' : Shard}
    {attached' : AttachedConnection} (hsh' : runtime'.shards.get? id = some shard')
    (hatt' : shard'.connections.get? connection = some attached')
    (hoth' : runtime'.shards.get? id' = some other') (hne : id' ≠ id) (sender : SessionId) :
    attached'.session ∉ other'.routing.receivers sender := by
  rcases table_cases hstep hoth' with ⟨-, hemp⟩ | ⟨other, hoth, htable⟩
  · rw [hemp]
    exact not_mem_nil
  · rcases (step_stepped hstep).shards id shard' hsh' with ⟨-, rfl⟩ | ⟨shard, hsh, hbecomes⟩
    · cases hatt'
    · rcases hbecomes.fate hatt' with
        ⟨attached, hatt, hfate⟩ | ⟨-, flight, session, hlands⟩
      · have hold := h.elsewhere hsh hatt hoth hne
        rw [hfate.session]
        rcases htable with hsame | ⟨logic, rendered, hev, hok, hchg, htrn⟩
        · rw [hsame]
          exact hold sender
        · subst hev
          rw [htrn]
          exact (hsafe.2 other rendered hoth hok hchg).1.unlisted hold hsh hatt rfl hne sender
      · obtain ⟨ids, hses⟩ := hlands.named
        obtain ⟨logic, hev⟩ := hlands.taken
        subst hev
        rw [hlands.row, sendAll_eq]
        rcases htable with hsame | ⟨_, _, hev, -⟩
        · rw [hsame]
          exact hsafe.2 session ids hses id' other sender hoth
        · cases hev

theorem gated_flying (hreach : Reaches step RoutesSafely start runtime)
    {id : ShardId} {flight' : Flight} (hsh' : runtime'.shards.get? id = some shard')
    (hfl' : runtime'.flights.get? connection = some flight') :
    shard'.routing.Audible flight'.peer := by
  rcases table_cases hstep hsh' with ⟨-, hemp⟩ | ⟨shard, hsh, htable⟩
  · intro sender hrte
    rw [hemp] at hrte
    cases hrte
  · cases (step_stepped hstep).flights connection flight' hfl' with
    | still hfl hque =>
      rename_i flight queue
      have hclient : queue.client = flight.queue.client := by
        rcases hque with rfl | htch
        · rfl
        · exact htch.client
      have haudible : shard'.routing.Audible flight.peer := by
        rcases htable with hsame | ⟨logic, rendered, hev, hok, hchg, htrn⟩
        · rw [hsame]
          exact h.flying hsh hfl
        · subst hev
          rw [htrn]
          exact (hsafe.2 shard rendered hsh hok hchg).1.flying
            (compiled_of_reaches hreach id shard hsh) hfl (h.flying hsh hfl)
      exact haudible.of_client rfl rfl hclient
    | connected hses =>
      rcases htable with hsame | ⟨_, _, hev, -⟩
      · intro sender hrte
        rw [hsame] at hrte
        exact absurd hrte (hsafe.2 _ _ hses id shard sender hsh)
      · cases hev
    | departed hfrom hatt hne =>
      rename_i source logic leaving destination from' attached
      rcases htable with hsame | ⟨_, _, hev, -⟩
      · have hclient : (attached.send (Emit.actions attached.actionsSent
            empty)).queue.client = attached.queue.client :=
          (OutboundQueue.trySendAll_adds (Emit.actions_isAside _ _) attached.queue).client
        rw [hsame]
        by_cases heq : id = source
        · subst heq
          obtain rfl : shard = from' := some.inj (hsh.symm.trans hfrom)
          exact (h.attached hsh hatt).of_client rfl rfl hclient
        · intro sender hrte
          exact absurd hrte (h.elsewhere hfrom hatt hsh heq sender)
      · cases hev

end Step

theorem gated_of_reaches (h : Reaches step RoutesSafely start runtime) : runtime.Gated := by
  refine (h.invariant (P := fun runtime =>
    Reaches step RoutesSafely start runtime ∧ runtime.Gated) ?_ ?_).2
  · refine ⟨.start, ?_, ?_, ?_⟩
    · intro id shard connection attached hsh
      cases hsh
    · intro id shard connection attached id' other hsh
      cases hsh
    · intro id shard connection flight hsh
      cases hsh
  · rintro runtime event runtime' ⟨hreach, hgated⟩ hsafe hstep
    exact ⟨.step hreach hsafe hstep, gated_attached hgated hsafe hstep hreach,
      gated_elsewhere hgated hsafe hstep, gated_flying hgated hsafe hstep hreach⟩

theorem midTurn_sound (hreach : Reaches step RoutesSafely start runtime)
    (hsafe : runtime.RoutesSafely (.turn id logic)) (hsh : runtime.shards.get? id = some shard)
    (hok : (shard.rendering runtime.ids logic).finish (shard.observations logic) = .ok rendered)
    (hchg : shard.unchanged logic rendered = false) (bound : Option ConnectionId) :
    (runtime.midTurn shard logic rendered bound).GateSound := by
  have h := gated_of_reaches hreach
  have htold := reached_told hreach
  have hcompiled := compiled_of_reaches hreach id shard hsh
  obtain ⟨hopens, hcommits⟩ := hsafe.2 shard rendered hsh hok hchg
  obtain rfl : shard.id = id := key_of_get? hsh
  have hid : ((shard.publish rendered).deliverBelow shard.view logic rendered bound).id =
      shard.id := shard.publish_id rendered
  have hpub : ∀ {connection attached}, shard.connections.get? connection = some attached →
      (shard.publish rendered).routing.Audible attached.peer := by
    intro connection attached hatt
    exact audible_published (htold.attached hsh hatt) (fun _ => trivial) hcompiled
      (h.attached hsh hatt)
      fun sender hopen => ((hopens sender _ hopen).2 _ shard _ attached hsh hatt rfl).2
  have hrow : ∀ {connection attached'},
      ((shard.publish rendered).deliverBelow shard.view logic rendered bound).connections.get?
        connection = some attached' →
      ∃ attached, shard.connections.get? connection = some attached ∧
        attached'.session = attached.session ∧
        (shard.publish rendered).routing.Audible attached'.peer := by
    intro connection attached' hatt'
    unfold deliverBelow at hatt'
    rw [get?_mapRows, publish_connections] at hatt'
    obtain ⟨attached, hatt, rfl⟩ := map_eq_some_iff.mp hatt'
    refine ⟨attached, hatt, ?_⟩
    split_ifs
    · exact ⟨shard.turned_session logic rendered attached,
        audible_turned (htold.attached hsh hatt) (htold.shards hsh) hok
          (hsafe.1 shard rendered hsh hok hchg _ attached hatt)
          (hcommits _ attached hatt) (hpub hatt)
          (shard.rendering runtime.ids logic).ids⟩
    · exact ⟨rfl, hpub hatt⟩
  refine gateSound_of_audible ?_ ?_
  · intro table tabled place placed connection attached htable hplace hatt
    simp only [midTurn, get?_insert, hid] at htable hplace
    split_ifs at htable hplace with hthr hhere hhere
    · obtain rfl := some.inj htable
      obtain rfl := some.inj hplace
      exact (hrow hatt).choose_spec.2.2
    · obtain rfl := some.inj htable
      intro sender hrte
      exact absurd hrte (hopens.unlisted
        (h.elsewhere hplace hatt hsh (Ne.symm hhere)) hplace hatt rfl
        (Ne.symm hhere) sender)
    · obtain rfl := some.inj hplace
      obtain ⟨before, hbef, hses, -⟩ := hrow hatt
      intro sender hrte
      exact absurd (hses ▸ hrte) (h.elsewhere hsh hbef htable hthr sender)
    · by_cases heq : table = place
      · subst heq
        obtain rfl : tabled = placed := some.inj (htable.symm.trans hplace)
        exact h.attached htable hatt
      · intro sender hrte
        exact absurd hrte (h.elsewhere hplace hatt htable heq sender)
  · intro table tabled connection flight htable hfl
    simp only [midTurn, get?_insert, hid] at htable
    split_ifs at htable
    · obtain rfl := some.inj htable
      exact hopens.flying hcompiled hfl (h.flying hsh hfl)
    · exact h.flying htable hfl

end Runtime

section Duet

theorem AudioRouting.exists_route {sender receiver : SessionId}
    (h : receiver ∈ routing.receivers sender) :
    ∃ route ∈ routing.receiversOf.rows, route.1 = sender ∧ receiver ∈ route.2 := by
  unfold receivers at h
  cases hfind : routing.receiversOf.find? sender with
  | none =>
    rw [hfind] at h
    cases h
  | some receivers =>
    rw [hfind] at h
    obtain ⟨route, hrte, rfl⟩ := map_eq_some_iff.mp hfind
    exact ⟨route, mem_of_get? hrte, key_of_get? hrte, h⟩

def Event.isOpening : Event → Bool
  | .create | .connect _ | .arrive _ _ => true
  | _ => false

theorem Runtime.routesSafely_of_opening {runtime : Runtime}
    (h : Reaches step (fun _ event => event.isOpening = true) start runtime) :
    Reaches step Runtime.RoutesSafely start runtime ∧
      ∀ session, runtime.Unlisted session := by
  refine h.invariant (P := fun runtime =>
    Reaches step Runtime.RoutesSafely start runtime ∧
      ∀ session, runtime.Unlisted session) ⟨.start, fun session id shard sender hsh => ?_⟩ ?_
  · cases hsh
  · rintro runtime event runtime' ⟨hreach, hunlisted⟩ hopening hstep
    have hsafe : runtime.RoutesSafely event := by
      cases event with
      | create => exact ⟨trivial, trivial⟩
      | connect _
      | arrive _ _ => exact ⟨trivial, fun session _ _ => hunlisted session⟩
      | _ => cases hopening
    refine ⟨.step hreach hsafe hstep, fun session id shard' sender hsh' => ?_⟩
    rcases table_cases hstep hsh' with ⟨-, hemp⟩ | ⟨shard, hsh, htable⟩
    · rw [hemp]
      exact not_mem_nil
    · rcases htable with hsame | ⟨_, _, rfl, -⟩
      · rw [hsame]
        exact hunlisted session id shard sender hsh
      · cases hopening

theorem Runtime.routesSafely_first {runtime : Runtime} {id : ShardId}
    {shard : Shard} (hsh : runtime.shards.get? id = some shard)
    (hrendered : rendered = Rendered.ofBuilder (shard.rendering runtime.ids logic))
    (honly : runtime.shards.rows.all (fun other => other.id = id) = true)
    (hflights : runtime.flights.rows = [])
    (hfr : ∀ attached ∈ shard.connections.rows, attached.composed shard.view = ShardView.empty ∧
      ∀ route ∈ (shard.publish rendered).routing.receiversOf.rows, attached.session ∈ route.2 →
        attached.sharedCursor < ((shard.publish rendered).routing.since route.1).getD 0 ∧
        ((rendered.view.restrict (logic.observation attached.id)).compose
          (rendered.overlayOf attached.id)).contains (.user route.1) = true) :
    runtime.RoutesSafely (.turn id logic) := by
  subst hrendered
  refine ⟨?_, ?_⟩
  · exact settles_first hsh fun attached hmem => (hfr attached hmem).1
  · intro found rendered hfnd hok _
    obtain rfl : shard = found := some.inj (hsh.symm.trans hfnd)
    obtain rfl := ShardBuilder.finish_ofBuilder hok
    refine ⟨fun sender receiver hopens => ⟨?_, ?_⟩, fun connection attached hatt _ sender hrte => ?_⟩
    · intro connection flight hfl
      have hmem := mem_of_get? hfl
      rw [hflights] at hmem
      cases hmem
    · rintro id' other connection attached hoth hatt rfl
      obtain rfl : other.id = id := by
        simpa using all_eq_true.mp honly other (mem_of_get? hoth)
      obtain rfl : other.id = id' := key_of_get? hoth
      obtain rfl : shard = other := some.inj (hsh.symm.trans hoth)
      obtain ⟨route, hrte, rfl, hlst⟩ := exists_route hopens.1
      exact ⟨rfl, Or.inl ((hfr attached (mem_of_get? hatt)).2 route hrte hlst).1⟩
    · obtain ⟨route, hmem, rfl, hlst⟩ := exists_route hrte
      exact ((hfr attached (mem_of_get? hatt)).2 route hmem hlst).2

def guestsEvents : List Event := [.create, .connect 1, .arrive 1 {}, .connect 1, .arrive 2 {}]

def guestsRuntime : Runtime :=
  (runActions Runtime.step Runtime.start guestsEvents).getD Runtime.start

def guestsShard : Shard := (guestsRuntime.shards.get? 1).getD (Shard.new 1)

def duetLogic : ShardLogic :=
  lobbyLogic [.user ⟨rootChannel, Scope.root⟩ (.connection 1) "Alto" .same,
    .user ⟨rootChannel, Scope.root⟩ (.connection 2) "Bass" .same, .audioEdge 1 2]

def duetRuntime : Runtime := (guestsRuntime.step (.turn 1 duetLogic)).getD Runtime.start

def duetShard : Shard := (duetRuntime.shards.get? 1).getD (Shard.new 1)

theorem guestsRuntime_reached : Reaches step Runtime.RoutesSafely start guestsRuntime := by
  refine (routesSafely_of_opening (reaches_of_run (eq_some_getD (by decide +kernel))
    (allAllowed_of_forall ?_ _))).1
  intro _ event hev
  exact all_eq_true.mp (by decide : guestsEvents.all Event.isOpening = true) event hev

theorem duetRuntime_reached : Reaches step Runtime.RoutesSafely start duetRuntime :=
  .step guestsRuntime_reached
    (routesSafely_first (eq_some_getD (by decide +kernel) : _ = some guestsShard) rfl
      (by decide +kernel) (by decide +kernel) (by decide +kernel))
    (eq_some_getD (by decide +kernel))

end Duet

section Listener

/-- Both stand in a scope of their own that only the first observes; the second
listens to the first. -/
def listenerLogic : ShardLogic where
  render := [.root "Lobby",
    .user ⟨rootChannel, Scope.root⟩ (.connection 1) "Alto" (.into 1),
    .user ⟨rootChannel, Scope.root⟩ (.connection 2) "Bass" (.into 1),
    .audioDomain 7 [1], .audioListen 2 7]
  observation connection :=
    if connection = 1 then denSee
    else ⟨Table.ofList [⟨[2], by decide⟩], by decide⟩

def listenerRuntime : Runtime := (guestsRuntime.step (.turn 1 listenerLogic)).getD Runtime.start

def listenerShard : Shard := (listenerRuntime.shards.get? 1).getD (Shard.new 1)

end Listener

end MumbleRuntime
