import MumbleRuntime.Allocation
import MumbleRuntime.Commands

/-!
# What one step of the runtime does

One inversion lemma for each part of the state: where a shard, a connection in
flight or a connection that left comes from, and how the allocator moved. Every
invariant of a run is derived from these.
-/

namespace MumbleRuntime
open Library Table IdAllocator Option

inductive OutboundQueue.Touched (queue : OutboundQueue) : OutboundQueue → Prop
  | read (count : ℕ) : Touched queue (queue.drain count)
  | hungUp : Touched queue queue.hangUp
  | voiced : Touched queue queue.pushVoice.1

theorem OutboundQueue.Touched.adds {queue queue' : OutboundQueue} (h : Touched queue queue')
    {P : ControlMessage → Prop} (hvoice : P .udpTunnel) : Adds P queue queue' := by
  cases h with
  | read count => exact .of_eq rfl
  | hungUp => exact .of_eq rfl
  | voiced => exact pushVoice_adds hvoice queue

def Flight.landed (flight : Flight) (session : SessionId) (version : ℕ) : AttachedConnection where
  id := flight.connection
  session := session
  cursor := version
  see := ScopeSet.none
  overlaySent := Overlay.empty
  actionsSent := Table.empty
  held := some flight.held
  ready := flight.ready
  queue := flight.queue
  sharedCursor := version

namespace Shard

def withArrival (shard : Shard) (flight : Flight) (session : SessionId) : Shard :=
  { shard with
    connections := shard.connections.insert (flight.landed session shard.version) }

def mapQueue (shard : Shard) (connection : ConnectionId) (f : OutboundQueue → OutboundQueue) :
    Shard :=
  { shard with
    connections := shard.connections.modify connection (AttachedConnection.mapQueue f) }

end Shard

variable {id : ShardId} {connection : ConnectionId}

namespace Runtime

inductive Becomes (runtime : Runtime) : Event → Shard → Shard → Prop
  | rest {event : Event} {shard : Shard} : Becomes runtime event shard shard
  | touched {event : Event} {shard : Shard} {connection : ConnectionId}
      {f : OutboundQueue → OutboundQueue} : (∀ queue : OutboundQueue, queue.Touched (f queue)) →
      Becomes runtime event shard (shard.mapQueue connection f)
  | arrived {connection : ConnectionId} {logic : ShardLogic} {shard shard' : Shard}
      {flight : Flight} {session : SessionId} {ids : IdAllocator} {effects : List Effect} :
      runtime.flights.get? connection = some flight → flight.destination = shard.id →
      runtime.ids.session (.connection connection) = .ok (session, ids) →
      (shard.withArrival flight session).tell ids logic (.connected connection) =
        some (shard', effects) →
      Becomes runtime (.arrive connection logic) shard shard'
  | handled {logic : ShardLogic} {command : ShardCommand} {shard : Shard} {handled : Handled} :
      shard.Handling runtime.ids logic command handled →
      Becomes runtime (.command shard.id logic command) shard handled.shard
  | departed {logic : ShardLogic} {connection : ConnectionId} {destination : ShardId}
      {shard shard' : Shard} {attached : AttachedConnection} {effects : List Effect} :
      shard.connections.get? connection = some attached →
      { shard with connections := shard.connections.erase connection }.tell runtime.ids logic
        (.migrated connection destination) = some (shard', effects) →
      Becomes runtime (.depart shard.id logic connection destination) shard shard'
  | turned {logic : ShardLogic} {shard : Shard} :
      Becomes runtime (.turn shard.id logic) shard (shard.reconcile runtime.ids logic).1

inductive Flies (runtime : Runtime) : Event → Flight → Prop
  | still {event : Event} {flight : Flight} {queue : OutboundQueue} :
      runtime.flights.get? flight.connection = some flight →
      (queue = flight.queue ∨ flight.queue.Touched queue) →
      Flies runtime event { flight with queue }
  | connected {destination : ShardId} {session : SessionId} {ids : IdAllocator} :
      runtime.ids.session (.connection runtime.nextConnection) = .ok (session, ids) →
      Flies runtime (.connect destination)
        { connection := runtime.nextConnection, session, destination,
          queue := OutboundQueue.new, cursor := 0, held := ShardView.empty, ready := true }
  | departed {id : ShardId} {logic : ShardLogic} {connection : ConnectionId}
      {destination : ShardId} {shard : Shard} {attached : AttachedConnection} :
      runtime.shards.get? id = some shard →
      shard.connections.get? connection = some attached → destination ≠ id →
      Flies runtime (.depart id logic connection destination)
        { connection, session := attached.session, destination,
          queue := (attached.send (Emit.actions attached.actionsSent Table.empty)).queue,
          cursor := attached.sharedCursor, held := attached.composed shard.view, ready := false }

inductive Leaves (runtime : Runtime) : Event → OutboundQueue → Prop
  | refused {connection : ConnectionId} {logic : ShardLogic} {flight : Flight} :
      runtime.flights.get? connection = some flight →
      Leaves runtime (.arrive connection logic) flight.queue.markFatal
  | left {logic : ShardLogic} {connection : ConnectionId} {reason : String} {shard : Shard}
      {attached : AttachedConnection} : runtime.shards.get? shard.id = some shard →
      shard.connections.get? connection = some attached →
      Leaves runtime (.command shard.id logic (.detach connection reason none))
        (shard.tearDown attached).queue

structure Stepped (runtime : Runtime) (event : Event) (runtime' : Runtime) : Prop where
  shards : ∀ id shard', runtime'.shards.get? id = some shard' →
    (event = .create ∧ shard' = Shard.new id) ∨
      ∃ shard, runtime.shards.get? id = some shard ∧ runtime.Becomes event shard shard'
  flights : ∀ connection flight', runtime'.flights.get? connection = some flight' →
    runtime.Flies event flight'
  gone : ∀ queue ∈ runtime'.gone, queue ∈ runtime.gone ∨ runtime.Leaves event queue
  ids : ∀ shard, runtime.ids.Grows shard runtime'.ids

variable {runtime : Runtime} {event : Event}

theorem insert_shards {shard shard' : Shard} (hget : runtime.shards.get? shard.id = some shard)
    (hid : shard'.id = shard.id) (h : runtime.Becomes event shard shard')
    {found : Shard} (hfnd : (runtime.shards.insert shard').get? id = some found) :
    (event = .create ∧ found = Shard.new id) ∨
      ∃ shard, runtime.shards.get? id = some shard ∧ runtime.Becomes event shard found := by
  rw [get?_insert] at hfnd
  split_ifs at hfnd with heq
  · obtain rfl := some.inj hfnd
    rw [heq, hid]
    exact Or.inr ⟨shard, hget, h⟩
  · exact Or.inr ⟨found, hfnd, .rest⟩

theorem still_flights {flight : Flight}
    (h : runtime.flights.get? connection = some flight) : runtime.Flies event flight := by
  have hkey := key_of_get? h
  exact .still (hkey.symm ▸ h) (Or.inl rfl)

theorem rest_shards {shard : Shard} (h : runtime.shards.get? id = some shard) :
    (event = .create ∧ shard = Shard.new id) ∨
      ∃ shard₀, runtime.shards.get? id = some shard₀ ∧ runtime.Becomes event shard₀ shard :=
  Or.inr ⟨shard, h, .rest⟩

theorem create_stepped (runtime : Runtime) : runtime.Stepped .create runtime.create where
  shards id shard' h := by
    simp only [create, get?_insert] at h
    split_ifs at h with heq
    · obtain rfl := some.inj h
      exact Or.inl ⟨rfl, by rw [heq]; rfl⟩
    · exact rest_shards h
  flights _ _ h := still_flights h
  gone _ h := Or.inl h
  ids k := .refl k _

theorem connect_stepped (runtime : Runtime) (destination : ShardId) :
    runtime.Stepped (.connect destination) (runtime.connect destination) := by
  unfold connect
  dsimp only
  cases hses : runtime.ids.session (.connection runtime.nextConnection) with
  | error exhausted =>
    exact ⟨fun _ _ h => rest_shards h, fun _ _ h => still_flights h, fun _ h => Or.inl h,
      fun k => .refl k _⟩
  | ok result =>
    have hgrows := session_grows hses
    split_ifs
    · refine ⟨fun _ _ h => rest_shards h, fun connection flight' h => ?_, fun _ h => Or.inl h,
        hgrows⟩
      simp only [get?_insert] at h
      split_ifs at h
      · obtain rfl := some.inj h
        exact .connected hses
      · exact still_flights h
    · exact ⟨fun _ _ h => rest_shards h, fun _ _ h => still_flights h, fun _ h => Or.inl h, hgrows⟩

theorem mapQueue_stepped (runtime : Runtime) (event : Event) (connection : ConnectionId)
    {f : OutboundQueue → OutboundQueue} (hf : ∀ queue : OutboundQueue, queue.Touched (f queue)) :
    runtime.Stepped event (runtime.mapQueue connection f) where
  shards id shard' h := by
    simp only [mapQueue, get?_mapRows] at h
    obtain ⟨shard, hsh, rfl⟩ := map_eq_some_iff.mp h
    exact Or.inr ⟨shard, hsh, .touched hf⟩
  flights c flight' h := by
    have hmodify := get?_modify runtime.flights connection c
      (fun flight => { flight with queue := f flight.queue }) (fun _ => rfl)
    rw [show (runtime.mapQueue connection f).flights.get? c = _ from hmodify] at h
    split_ifs at h
    · obtain ⟨flight, hfl, rfl⟩ := map_eq_some_iff.mp h
      have hkey := key_of_get? hfl
      exact .still (hkey.symm ▸ hfl) (Or.inr (hf _))
    · exact still_flights h
  gone _ h := Or.inl h
  ids k := .refl k _

end Runtime

variable {command : ShardCommand}

namespace Shard

variable {shard : Shard} {ids : IdAllocator} {logic : ShardLogic}

theorem tell_id {shard' : Shard} {event : VoiceEvent} {effects : List Effect}
    (h : shard.tell ids logic event = some (shard', effects)) : shard'.id = shard.id :=
  (tell_requeued h).same.get id rfl

theorem retry_recast (shard : Shard) (ids : IdAllocator) (connection : ConnectionId) :
    Recast shard (shard.retry ids connection).1 := by
  unfold retry
  split
  · rfl
  · split_ifs
    · rfl
    · rfl

theorem retry_grows (shard : Shard) (ids : IdAllocator) (connection : ConnectionId) (k : ShardId) :
    ids.Grows k (shard.retry ids connection).2 := by
  unfold retry
  split
  · exact .refl k ids
  · split_ifs
    · exact .refl k ids
    · exact retain_grows _ _ k

theorem Handling.recast {handled : Handled}
    (h : shard.Handling ids logic command handled) : Recast shard handled.shard := by
  cases h with
  | idle => rfl
  | told _ htell => exact (tell_requeued htell).same
  | answered _ => rfl
  | retried => exact retry_recast shard ids _
  | left _ htell => exact Recast.of_connections _ (tell_requeued htell).same

theorem Handling.grows {handled : Handled}
    (h : shard.Handling ids logic command handled) (k : ShardId) : ids.Grows k handled.ids := by
  cases h with
  | retried => exact retry_grows shard ids _ k
  | _ => exact .refl k ids

theorem reconcile_grows (shard : Shard) (ids : IdAllocator) (logic : ShardLogic) (k : ShardId) :
    ids.Grows k (shard.reconcile ids logic).2.1 := by
  have hrender : ids.Grows k (shard.rendering ids logic).ids :=
    (ShardBuilder.render_keyed (ShardBuilder.new_keyed ids shard.id) logic.render).ids.grows k
  unfold reconcile
  dsimp only
  split
  · exact hrender
  · split_ifs
    · exact hrender
    · exact (hrender.trans (retain_grows _ _ k)).trans (retain_grows _ _ k)

theorem publish_id (shard : Shard) (rendered : Rendered) :
    (shard.publish rendered).id = shard.id := by
  unfold publish
  dsimp only
  split_ifs <;> rfl

theorem reconcile_id (shard : Shard) (ids : IdAllocator) (logic : ShardLogic) :
    (shard.reconcile ids logic).1.id = shard.id := by
  unfold reconcile
  dsimp only
  split
  · rfl
  · split_ifs
    · rfl
    · exact publish_id shard _

end Shard

namespace Runtime

variable {runtime : Runtime}

theorem Becomes.recast_or_turned {event : Event} {shard shard' : Shard}
    (h : runtime.Becomes event shard shard') :
    shard.Recast shard' ∨ ∃ logic, event = .turn shard.id logic ∧
      shard' = (shard.reconcile runtime.ids logic).1 := by
  cases h with
  | rest => exact Or.inl rfl
  | touched _ => exact Or.inl rfl
  | arrived _ _ _ htell
  | departed _ htell => exact Or.inl (Shard.Recast.of_connections _ (Shard.tell_requeued htell).same)
  | handled hhandled => exact Or.inl hhandled.recast
  | turned => exact Or.inr ⟨_, rfl, rfl⟩

variable {runtime' : Runtime} {logic : ShardLogic}

theorem arrive_stepped (h : runtime.arrive connection logic = some runtime') :
    runtime.Stepped (.arrive connection logic) runtime' := by
  unfold arrive at h
  cases hfl : runtime.flights.get? connection with
  | none => simp [hfl] at h
  | some flight =>
    cases hsh : runtime.shards.get? flight.destination with
    | none => simp [hfl, hsh] at h
    | some shard =>
      simp only [hfl, hsh] at h
      obtain ⟨handled, hattach, rfl⟩ := map_eq_some_iff.mp h
      have hid := key_of_get? hsh
      have hconn := key_of_get? hfl
      have hflights : ∀ c flight', (runtime.flights.erase connection).get? c = some flight' →
          runtime.Flies (.arrive connection logic) flight' := by
        intro c flight' hget
        rw [get?_erase] at hget
        split_ifs at hget
        exact still_flights hget
      unfold Shard.attach at hattach
      cases hses : runtime.ids.session (.connection connection) with
      | error exhausted =>
        simp only [hses] at hattach
        obtain rfl := some.inj hattach
        refine ⟨fun id found hfnd => insert_shards (hid ▸ hsh) rfl .rest hfnd, hflights, ?_,
          fun k => .refl k _⟩
        intro queue hque
        rcases List.mem_append.mp hque with hold | hnew
        · exact Or.inl hold
        · obtain rfl : queue = _ := by simpa using hnew
          exact Or.inr (.refused hfl)
      | ok result =>
        obtain ⟨session, ids⟩ := result
        simp only [hses] at hattach
        obtain ⟨⟨shard', effects⟩, htell, rfl⟩ := map_eq_some_iff.mp hattach
        have htell' : (shard.withArrival flight session).tell ids logic (.connected connection) =
            some (shard', effects) := by
          rw [Shard.withArrival, Flight.landed, hconn]
          exact htell
        have hsh' : runtime.shards.get? shard.id = some shard := by rw [hid]; exact hsh
        have hsame := Shard.tell_id htell'
        refine ⟨fun id found hfnd => insert_shards hsh' hsame
          (.arrived hfl hid.symm hses htell') hfnd, hflights, ?_,
          session_grows hses⟩
        intro queue hque
        exact Or.inl (by simpa using hque)

theorem command_stepped (h : runtime.command id logic command = some runtime') :
    runtime.Stepped (.command id logic command) runtime' := by
  unfold Runtime.command at h
  cases hsh : runtime.shards.get? id with
  | none => simp [hsh] at h
  | some shard =>
    simp only [hsh] at h
    split_ifs at h with hrequest
    obtain ⟨handled, hhdl, rfl⟩ := map_eq_some_iff.mp h
    obtain rfl : shard.id = id := key_of_get? hsh
    have hcases := Shard.handle_cases hrequest hhdl
    refine ⟨fun _ _ hfnd => insert_shards hsh (hcases.recast.get Shard.id rfl)
      (.handled hcases) hfnd, fun _ _ hget => still_flights hget, ?_, hcases.grows⟩
    intro queue hque
    rcases List.mem_append.mp hque with hold | hnew
    · exact Or.inl hold
    · cases hcases with
      | left hget _ =>
        obtain rfl : queue = _ := by simpa using hnew
        exact Or.inr (.left hsh hget)
      | _ => simp at hnew

theorem depart_stepped {destination : ShardId}
    (h : runtime.depart id logic connection destination = some runtime') :
    runtime.Stepped (.depart id logic connection destination) runtime' := by
  unfold depart at h
  cases hsh : runtime.shards.get? id with
  | none => simp [hsh] at h
  | some shard =>
    cases hget : shard.connections.get? connection with
    | none => simp [hsh, hget] at h
    | some attached =>
      simp only [hsh, hget] at h
      split_ifs at h with hdest
      obtain ⟨handled, hdetach, hdeparted⟩ := bind_eq_some_iff.mp h
      simp only [Shard.detach, hget] at hdetach
      obtain ⟨⟨shard', effects⟩, htell, rfl⟩ := map_eq_some_iff.mp hdetach
      obtain rfl := some.inj hdeparted
      obtain rfl : shard.id = id := key_of_get? hsh
      have hsame := Shard.tell_id htell
      refine ⟨fun _ _ hfnd => insert_shards hsh hsame
        (.departed hget htell) hfnd, fun c flight' hfl => ?_, fun _ hgone => Or.inl hgone,
        fun k => .refl k _⟩
      rw [get?_insert] at hfl
      split_ifs at hfl
      · obtain rfl := some.inj hfl
        exact .departed hsh hget hdest.1
      · exact still_flights hfl

theorem turn_stepped (h : runtime.turn id logic = some runtime') :
    runtime.Stepped (.turn id logic) runtime' := by
  obtain ⟨shard, hsh, rfl⟩ := map_eq_some_iff.mp h
  obtain rfl : shard.id = id := key_of_get? hsh
  exact ⟨fun _ _ hfnd => insert_shards hsh (shard.reconcile_id _ _) .turned hfnd,
    fun _ _ hget => still_flights hget, fun _ hgone => Or.inl hgone,
    shard.reconcile_grows _ _⟩

theorem step_stepped {event : Event} (h : runtime.step event = some runtime') :
    runtime.Stepped event runtime' := by
  cases event with
  | create =>
    obtain rfl := some.inj h
    exact runtime.create_stepped
  | connect destination =>
    obtain rfl := some.inj h
    exact runtime.connect_stepped destination
  | arrive connection logic => exact arrive_stepped h
  | command shard logic command => exact command_stepped h
  | depart shard logic connection destination => exact depart_stepped h
  | turn shard logic => exact turn_stepped h
  | read connection count =>
    obtain rfl := some.inj h
    exact runtime.mapQueue_stepped _ connection fun _ => .read count
  | hangUp connection =>
    obtain rfl := some.inj h
    exact runtime.mapQueue_stepped _ connection fun _ => .hungUp
  | voice connection =>
    obtain rfl := some.inj h
    exact runtime.mapQueue_stepped _ connection fun _ => .voiced

end Runtime

end MumbleRuntime
