import MumbleRuntime.Delivery

/-!
# What a step does to one connection

A connection of a shard after a step was there before it, or has just arrived.
What was there is left alone, touched from outside, offered batches of messages,
offered what the journal owes it, or taken through a turn.
-/

namespace MumbleRuntime
open Library Shard Table Option Journal Runtime

namespace Runtime

def concerned (runtime : Runtime) : Event → Option ShardId
  | .arrive connection _ => (runtime.flights.get? connection).map Flight.destination
  | .command shard _ _ => some shard
  | .depart shard _ _ _ => some shard
  | .turn shard _ => some shard
  | _ => none

/-- The batches a connection of the shard concerned is offered outside its
transitions. -/
def offered (runtime : Runtime) (event : Event) (shard : Shard) (attached : AttachedConnection) :
    List (List ControlMessage) :=
  match event with
  | .arrive connection logic =>
    match runtime.flights.get? connection, runtime.ids.session (.connection connection) with
    | some flight, .ok (session, ids) =>
      (shard.withArrival flight session).offers ids (logic.observe (.connected connection)) attached
    | _, _ => []
  | .command _ logic (.detach connection reason _) =>
    { shard with connections := shard.connections.erase connection }.offers runtime.ids
      (logic.observe (.disconnected connection reason)) attached
  | .command _ logic command =>
    match shard.reported command, shard.answered command with
    | some event, _ => shard.offers runtime.ids (logic.observe event) attached
    | none, some (asking, message) => if asking.id = attached.id then [[message]] else []
    | none, none => []
  | .depart _ logic connection destination =>
    { shard with connections := shard.connections.erase connection }.offers runtime.ids
      (logic.observe (.migrated connection destination)) attached
  | _ => []

theorem offered_isReply (runtime : Runtime) (event : Event) (shard : Shard)
    (attached : AttachedConnection) :
    ∀ batch ∈ runtime.offered event shard attached, ∀ message ∈ batch, message.isReply = true := by
  intro batch hbatch message hmsg
  unfold offered at hbatch
  split at hbatch
  · split at hbatch
    · exact offers_isReply _ _ _ _ batch hbatch message hmsg
    · cases hbatch
  · exact offers_isReply _ _ _ _ batch hbatch message hmsg
  · split at hbatch
    · exact offers_isReply _ _ _ _ batch hbatch message hmsg
    · rename_i asking answer _ hans
      split_ifs at hbatch
      · obtain rfl : batch = [answer] := List.mem_singleton.mp hbatch
        obtain rfl := List.mem_singleton.mp hmsg
        exact (answered_answers hans).2.2.isReply
      · cases hbatch
    · cases hbatch
  · exact offers_isReply _ _ _ _ batch hbatch message hmsg
  · cases hbatch

theorem offered_isAside (runtime : Runtime) (event : Event) (shard : Shard)
    (attached : AttachedConnection) :
    ∀ batch ∈ runtime.offered event shard attached, ∀ message ∈ batch, message.isAside = true :=
  fun batch hbatch message hmsg => ControlMessage.isAside_of_isReply
    (runtime.offered_isReply event shard attached batch hbatch message hmsg)

inductive Fate (runtime : Runtime) (event : Event) (shard shard' : Shard)
    (attached : AttachedConnection) : AttachedConnection → Prop
  | rest : shard.Recast shard' → Fate runtime event shard shard' attached attached
  | touched {queue : OutboundQueue} : shard.Recast shard' → attached.queue.Touched queue →
      Fate runtime event shard shard' attached { attached with queue }
  | offered : runtime.concerned event = some shard.id → shard.Recast shard' →
      Fate runtime event shard shard' attached
        (attached.sendAll (runtime.offered event shard attached))
  | retried {logic : ShardLogic} : event = .command shard.id logic (.drained attached.id) →
      shard.Recast shard' → attached.held = none →
      Fate runtime event shard shard' attached
        (attached.push shard.journal shard.journal.head attached.overlaySent
          attached.actionsSent).attached
  | turned {logic : ShardLogic} {rendered : Rendered} : event = .turn shard.id logic →
      (shard.rendering runtime.ids logic).finish (shard.observations logic) = .ok rendered →
      shard.unchanged logic rendered = false →
      shard' = (shard.accept (shard.rendering runtime.ids logic).ids logic rendered).1 →
      Fate runtime event shard shard' attached (shard.turned logic rendered attached)

structure Lands (runtime : Runtime) (event : Event) (shard : Shard) (flight : Flight)
    (session : SessionId) (attached : AttachedConnection) : Prop where
  flying : runtime.flights.get? flight.connection = some flight
  bound : flight.destination = shard.id
  named : ∃ ids, runtime.ids.session (.connection flight.connection) = .ok (session, ids)
  taken : ∃ logic, event = .arrive flight.connection logic
  row : attached = (flight.landed session shard.version).sendAll
    (runtime.offered event shard (flight.landed session shard.version))

end Runtime

namespace Shard

theorem reconcile_cases (shard : Shard) (ids : IdAllocator) (logic : ShardLogic) :
    (shard.reconcile ids logic).1 = shard ∨
      ∃ rendered, (shard.rendering ids logic).finish (shard.observations logic) = .ok rendered ∧
        shard.unchanged logic rendered = false ∧
        (shard.reconcile ids logic).1 =
          (shard.accept (shard.rendering ids logic).ids logic rendered).1 := by
  unfold reconcile
  dsimp only
  cases hfinish : (shard.rendering ids logic).finish (shard.observations logic) with
  | error refused => exact Or.inl rfl
  | ok rendered =>
    dsimp only
    cases hunchanged : shard.unchanged logic rendered with
    | true => exact Or.inl rfl
    | false => exact Or.inr ⟨rendered, rfl, hunchanged, rfl⟩

theorem answer_rows {shard : Shard} {attached : AttachedConnection}
    (h : shard.connections.get? attached.id = some attached) (message : ControlMessage)
    (connection : ConnectionId) :
    (shard.answer attached message).connections.get? connection =
      (shard.connections.get? connection).map fun other =>
        if attached.id = other.id then other.send [message] else other := by
  simp only [answer, get?_insert]
  by_cases heq : connection = attached.id
  · have hself : connection = (attached.send [message]).id := heq
    rw [if_pos hself, heq, h]
    simp
  · have hne : connection ≠ (attached.send [message]).id := heq
    rw [if_neg hne]
    cases hget : shard.connections.get? connection with
    | none => rfl
    | some other =>
      have hid := key_of_get? hget
      simp [hid, Ne.symm heq]

end Shard

namespace Runtime

variable {runtime : Runtime} {event : Event} {shard shard' : Shard}

theorem fate_of_handling {logic : ShardLogic} {command : ShardCommand} {handled : Handled}
    (h : shard.Handling runtime.ids logic command handled) {connection : ConnectionId}
    {attached' : AttachedConnection}
    (hget : handled.shard.connections.get? connection = some attached') :
    ∃ attached, shard.connections.get? connection = some attached ∧
      Fate runtime (.command shard.id logic command) shard handled.shard attached attached' := by
  have hrecast := h.recast
  cases h with
  | idle => exact ⟨attached', hget, .rest rfl⟩
  | told hreported htell =>
    rename_i reportedEvent _ _
    rw [(tell_requeued htell).rows] at hget
    obtain ⟨attached, hatt, rfl⟩ := map_eq_some_iff.mp hget
    refine ⟨attached, hatt, ?_⟩
    have hoffered : runtime.offered (.command shard.id logic command) shard attached =
        shard.offers runtime.ids (logic.observe reportedEvent) attached := by
      cases command with
      | detach => cases hreported
      | _ => simp only [offered, hreported]
    rw [← hoffered]
    exact .offered rfl hrecast
  | answered hans =>
    rename_i asking message
    rw [answer_rows (answered_answers hans).2.1] at hget
    obtain ⟨attached, hatt, rfl⟩ := map_eq_some_iff.mp hget
    refine ⟨attached, hatt, ?_⟩
    split_ifs with heq
    · have hoffered : runtime.offered (.command shard.id logic command) shard attached =
          [[message]] := by
        have hreported := reported_of_answered hans
        cases command with
        | detach => cases hans
        | _ => simp only [offered, hreported, hans, heq, if_true]
      have hfate : Fate runtime (.command shard.id logic command) shard
          (shard.answer asking message) attached
          (attached.sendAll (runtime.offered (.command shard.id logic command) shard attached)) :=
        .offered rfl hrecast
      rw [hoffered] at hfate
      exact hfate
    · exact .rest hrecast
  | retried =>
    rename_i drained
    unfold retry at hget hrecast ⊢
    cases hdrained : shard.connections.get? drained with
    | none =>
      simp only [hdrained] at hget hrecast ⊢
      exact ⟨attached', hget, .rest hrecast⟩
    | some attached =>
      have hid : attached.id = drained := key_of_get? hdrained
      simp only [hdrained] at hget hrecast ⊢
      split_ifs at hget hrecast ⊢ with hheld
      · exact ⟨attached', hget, .rest hrecast⟩
      · simp only [get?_insert, AttachedConnection.push_id] at hget
        split_ifs at hget with heq
        · obtain rfl := some.inj hget
          refine ⟨attached, by rw [heq, hid]; exact hdrained, ?_⟩
          exact .retried (by rw [hid]) hrecast (by simpa using hheld)
        · exact ⟨attached', hget, .rest hrecast⟩
  | left hleaving htell =>
    rename_i leaving _ _ _ _
    rw [(tell_requeued htell).rows, get?_erase] at hget
    obtain ⟨attached, hatt, rfl⟩ := map_eq_some_iff.mp hget
    split_ifs at hatt
    exact ⟨attached, hatt, .offered rfl hrecast⟩

theorem inStep_new (id : ShardId) : (Shard.new id).InStep := rfl

theorem inStep_becomes (hstep : shard.InStep) (h : runtime.Becomes event shard shard') :
    shard'.InStep := by
  rcases h.recast_or_turned with hsame | ⟨logic, -, rfl⟩
  · exact (hsame.get Shard.InStep rfl).symm ▸ hstep
  · rcases shard.reconcile_cases runtime.ids logic with hsame | ⟨rendered, -, -, htrn⟩
    · rw [hsame]
      exact hstep
    · rw [htrn]
      exact (shard.publish_version rendered).trans (published_eq_head hstep rendered)

theorem Becomes.fate (h : runtime.Becomes event shard shard') {connection : ConnectionId}
    {attached' : AttachedConnection} (hget : shard'.connections.get? connection = some attached') :
    (∃ attached, shard.connections.get? connection = some attached ∧
      Fate runtime event shard shard' attached attached') ∨
    (shard.Recast shard' ∧ ∃ flight session, Lands runtime event shard flight session attached') := by
  cases h with
  | rest => exact Or.inl ⟨attached', hget, .rest rfl⟩
  | touched hf =>
    rename_i touched f
    left
    have hmodify := get?_modify shard.connections touched connection
      (AttachedConnection.mapQueue f) fun _ => rfl
    rw [show (shard.mapQueue touched f).connections.get? connection = _ from hmodify] at hget
    split_ifs at hget
    · obtain ⟨attached, hatt, rfl⟩ := map_eq_some_iff.mp hget
      exact ⟨attached, hatt, .touched rfl (hf _)⟩
    · exact ⟨attached', hget, .rest rfl⟩
  | arrived hfl hbd hses htell =>
    rename_i arriving logic flight session ids effects
    have hrecast := Shard.Recast.of_connections _ (tell_requeued htell).same
    have hid : flight.connection = arriving := key_of_get? hfl
    subst hid
    have hoffered : ∀ attached, runtime.offered (.arrive flight.connection logic) shard attached =
        (shard.withArrival flight session).offers ids
          (logic.observe (.connected flight.connection)) attached := by
      intro attached
      simp only [offered, hfl, hses]
    rw [(tell_requeued htell).rows, withArrival, get?_insert] at hget
    obtain ⟨attached, hatt, rfl⟩ := map_eq_some_iff.mp hget
    have hconcerned : runtime.concerned (.arrive flight.connection logic) = some shard.id := by
      simp only [concerned, hfl, map_some, hbd]
    split_ifs at hatt
    · obtain rfl := some.inj hatt
      refine Or.inr ⟨hrecast, flight, session, hfl, hbd, ⟨ids, hses⟩, ⟨logic, rfl⟩, ?_⟩
      rw [hoffered]
      rfl
    · refine Or.inl ⟨attached, hatt, ?_⟩
      have hfate : Fate runtime (.arrive flight.connection logic) shard shard' attached
          (attached.sendAll (runtime.offered (.arrive flight.connection logic) shard attached)) :=
        .offered hconcerned hrecast
      rw [hoffered] at hfate
      exact hfate
  | handled hhandled => exact Or.inl (fate_of_handling hhandled hget)
  | departed hleaving htell =>
    left
    rw [(tell_requeued htell).rows, get?_erase] at hget
    obtain ⟨attached, hatt, rfl⟩ := map_eq_some_iff.mp hget
    split_ifs at hatt
    exact ⟨attached, hatt, .offered rfl (Shard.Recast.of_connections _ (tell_requeued htell).same)⟩
  | turned =>
    rename_i logic
    left
    rcases shard.reconcile_cases runtime.ids logic with hsame | ⟨rendered, hok, hchg, htrn⟩
    · rw [hsame] at hget ⊢
      exact ⟨attached', hget, .rest rfl⟩
    · rw [htrn] at hget ⊢
      rw [accept_rows] at hget
      obtain ⟨attached, hatt, rfl⟩ := map_eq_some_iff.mp hget
      exact ⟨attached, hatt, .turned rfl hok hchg rfl⟩

end Runtime

/-- An invariant that is said of each shard, each connection and each queue
left behind, with what keeps it when the steps are allowed. -/
structure Locally (allowed : Runtime → Event → Prop) where
  shard : Shard → Prop
  attached : IdAllocator → Shard → AttachedConnection → Prop
  flying : IdAllocator → Flight → Prop
  gone : OutboundQueue → Prop
  new : ∀ id, shard (Shard.new id)
  becomes : ∀ {runtime : Runtime} {event s s'}, shard s → runtime.Becomes event s s' → shard s'
  stays : ∀ {runtime event runtime'} {s s' : Shard} {a a' : AttachedConnection}, allowed runtime event →
    runtime.step event = some runtime' → runtime.shards.get? s.id = some s →
    s.connections.get? a.id = some a → shard s → attached runtime.ids s a →
    runtime.Fate event s s' a a' → attached runtime'.ids s' a'
  lands : ∀ {runtime event runtime'} {s s' : Shard} {flight session a}, allowed runtime event →
    runtime.step event = some runtime' → runtime.shards.get? s.id = some s → shard s →
    flying runtime.ids flight → s.Recast s' → runtime.Lands event s flight session a →
    attached runtime'.ids s' a
  touched : ∀ {ids ids'} {flight : Flight} {queue}, (∀ k, IdAllocator.Grows k ids ids') → flying ids flight →
    (queue = flight.queue ∨ flight.queue.Touched queue) → flying ids' { flight with queue }
  connected : ∀ {ids connection session destination},
    flying ids ⟨connection, session, destination, OutboundQueue.new, 0, ShardView.empty, true⟩
  departed : ∀ {runtime logic runtime'} {s : Shard} {a : AttachedConnection} {destination},
    allowed runtime (.depart s.id logic a.id destination) →
    runtime.step (.depart s.id logic a.id destination) = some runtime' →
    runtime.shards.get? s.id = some s → s.connections.get? a.id = some a → shard s →
    attached runtime.ids s a →
    flying runtime'.ids ⟨a.id, a.session, destination,
      (a.send (Emit.actions a.actionsSent Table.empty)).queue, a.sharedCursor,
      a.composed s.view, false⟩
  refused : ∀ {ids flight}, flying ids flight → gone flight.queue.markFatal
  left : ∀ {ids} {s : Shard} {a : AttachedConnection}, shard s → attached ids s a → gone (s.tearDown a).queue

namespace Locally

variable {allowed : Runtime → Event → Prop}

structure Holds (I : Locally allowed) (runtime : Runtime) : Prop where
  shards : ∀ {id s}, runtime.shards.get? id = some s → I.shard s
  attached : ∀ {id s connection a}, runtime.shards.get? id = some s →
    s.connections.get? connection = some a → I.attached runtime.ids s a
  flights : ∀ {connection flight}, runtime.flights.get? connection = some flight →
    I.flying runtime.ids flight
  gone : ∀ {queue}, queue ∈ runtime.gone → I.gone queue

theorem Holds.step {I : Locally allowed} {runtime runtime' : Runtime} {event : Event}
    (h : I.Holds runtime) (hallow : allowed runtime event)
    (hstep : runtime.step event = some runtime') : I.Holds runtime' := by
  have hstepped := step_stepped hstep
  refine ⟨?_, ?_, ?_, ?_⟩
  · intro id s' hs'
    rcases hstepped.shards id s' hs' with ⟨-, rfl⟩ | ⟨s, hs, hbecomes⟩
    · exact I.new id
    · exact I.becomes (h.shards hs) hbecomes
  · intro id s' connection a' hs' ha'
    rcases hstepped.shards id s' hs' with ⟨-, rfl⟩ | ⟨s, hs, hbecomes⟩
    · cases ha'
    · obtain rfl : s.id = id := key_of_get? hs
      rcases hbecomes.fate ha' with ⟨a, ha, hfate⟩ | ⟨hsame, flight, session, hlands⟩
      · obtain rfl : a.id = connection := key_of_get? ha
        exact I.stays hallow hstep hs ha (h.shards hs) (h.attached hs ha) hfate
      · exact I.lands hallow hstep hs (h.shards hs) (h.flights hlands.flying) hsame hlands
  · intro connection flight' hfl'
    cases hstepped.flights connection flight' hfl' with
    | still hfl hque => exact I.touched hstepped.ids (h.flights hfl) hque
    | connected hses => exact I.connected
    | departed hs ha hne =>
      rename_i id logic leaving destination s a
      obtain rfl : s.id = id := key_of_get? hs
      obtain rfl : a.id = leaving := key_of_get? ha
      exact I.departed hallow hstep hs ha (h.shards hs) (h.attached hs ha)
  · intro queue hque
    rcases hstepped.gone queue hque with hold | hleaves
    · exact h.gone hold
    · cases hleaves with
      | refused hfl => exact I.refused (h.flights hfl)
      | left hs ha => exact I.left (h.shards hs) (h.attached hs ha)

theorem holds (I : Locally allowed) {runtime : Runtime}
    (h : Reaches step allowed start runtime) : I.Holds runtime := by
  refine h.invariant (P := I.Holds) ?_ fun _ _ _ hinv hallow hstep => hinv.step hallow hstep
  refine ⟨?_, ?_, ?_, ?_⟩
  · intro id s hs
    cases hs
  · intro id s connection a hs
    cases hs
  · intro connection flight hfl
    cases hfl
  · intro queue hque
    cases hque

end Locally

theorem Shard.version_le_published (shard : Shard) (rendered : Rendered) :
    shard.version ≤ shard.published rendered := by
  rw [Shard.published]
  split_ifs
  · exact le_rfl
  · exact Nat.le_succ _

/-- No connection is ahead of its shard. -/
def pacedLocally : Locally (fun _ _ => True) where
  shard := Shard.InStep
  attached _ s a := a.cursor ≤ s.version
  flying _ _ := True
  gone _ := True
  new := Runtime.inStep_new
  becomes := @Runtime.inStep_becomes
  stays {runtime event runtime' s s' a a'} _ _ _ _ hstep hpaced hfate := by
    cases hfate with
    | rest hsame => exact hsame.get Shard.version rfl ▸ hpaced
    | touched hsame _ => exact hsame.get Shard.version rfl ▸ hpaced
    | offered _ hsame =>
      rw [AttachedConnection.sendAll_eq, hsame.get Shard.version rfl]
      exact hpaced
    | retried _ hsame _ =>
      rw [hsame.get Shard.version rfl]
      rcases a.push_cases s.journal with ⟨_, _, _, queue, _, hpushed⟩ | ⟨queue, _, _, hpushed⟩
      · rw [hpushed]
        exact hstep.ge
      · rw [hpushed]
        exact hpaced
    | @turned logic rendered _ _ _ hturned =>
      have hversion : s'.version = s.published rendered := by
        rw [hturned]
        exact s.publish_version rendered
      rw [hversion]
      rcases s.turned_cases logic rendered a with ⟨_, _, _, _, queue, _, hrow⟩ | ⟨_, _, queue, _, hrow⟩
      · rw [hrow]
        exact le_rfl
      · rw [hrow]
        exact hpaced.trans (s.version_le_published rendered)
  lands _ _ _ _ _ hsame hlands := by
    rw [hlands.row, AttachedConnection.sendAll_eq, hsame.get Shard.version rfl]
    exact le_rfl
  touched _ _ _ := trivial
  connected := trivial
  departed _ _ _ _ _ _ := trivial
  refused _ := trivial
  left _ _ := trivial

theorem journal_slices_compose :
    (∀ deltas : List (List PlannedOp),
      let journal := Journal.new.pushAll deltas
      journal.head = deltas.length ∧ journal.entries.length = journal.head - journal.tail ∧
      journal.entries.length ≤ 256 ∧
      ∀ a b c, a ≤ b → b ≤ c →
        (a < journal.tail → journal.replay a c = .error ⟨a, journal.tail⟩) ∧
        (journal.tail ≤ a → ∃ first second, journal.replay a b = .ok first ∧
          journal.replay b c = .ok second ∧ journal.replay a c = .ok (first ++ second) ∧
          first ++ second = ((deltas.take (min c journal.head)).drop a).flatten)) ∧
    ∀ runtime, Reaches Runtime.step (fun _ _ => True) Runtime.start runtime →
      ∀ id shard, runtime.shards.get? id = some shard →
        shard.version = shard.journal.head ∧
        ∀ connection attached, shard.connections.get? connection = some attached →
          attached.cursor ≤ shard.version := by
  refine ⟨fun deltas => ?_, fun runtime hreach id shard hsh => ?_⟩
  · have hspan := (Journal.new.pushAll deltas).span
    refine ⟨(Journal.new.pushAll_fields deltas).1.trans (Nat.zero_add _), by omega,
      (Journal.new.pushAll deltas).bounded, fun a b c hab hbc => ⟨fun hbehind => ?_, ?_⟩⟩
    · rw [Journal.replay_new_pushAll, if_pos hbehind]
    · exact Journal.replay_split deltas hab hbc
  · have hholds := pacedLocally.holds hreach
    exact ⟨hholds.shards hsh, fun connection attached hatt => hholds.attached hsh hatt⟩

end MumbleRuntime
