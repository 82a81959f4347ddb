import MumbleRuntime.Retirement
import MumbleRuntime.Base

/-!
# Removed channels are dead

Over a whole run, a client that was told of a channel's removal hears nothing of
its number again, as long as no connection arrives where such a number is still
in use, no client that lost the root observes anything again, and the overlay a
retry sends still fits the view.
-/

namespace MumbleRuntime
open Library ControlMessage OutboundQueue Runtime

namespace Shard

variable {attached : AttachedConnection}

theorem tearDown_final (shard : Shard) (h : attached.queue.Final) :
    (shard.tearDown attached).queue.Final := by
  let ops := AttachedConnection.replanOps (attached.composed shard.view) ShardView.empty
  have hemp : ∀ id, ∀ write ∈ ops.filterMap (PlanOp.channelWrite id), write.isDrop = true := by
    intro id write hwr
    by_contra hkept
    have hsome := ((channelCell id).mem_replan hwr).1 (by simpa using hkept)
    cases hsome
  have hsent : (attached.queue.trySendAll (Emit.emit ops attached.session)).1.Final := by
    rcases attached.queue.trySendAll_cases (Emit.emit ops attached.session) with
      ⟨-, -, hacc⟩ | ⟨-, -, hacc⟩
    · refine h.append (fun id => ?_) (fun id => (channelCell id).replan_dropsLast _ _)
        fun id _ => hemp id
      rw [news_append hacc, Emit.removes_emit]
    · exact h.congr (OutboundQueue.Adds.news (.of_eq hacc))
  unfold tearDown
  dsimp only
  split_ifs
  · exact h
  · split
    · rename_i queue hque
      rw [hque] at hsent
      exact hsent
    · rename_i queue refused hque
      rw [show AttachedConnection.replanOps _ _ = ops from rfl] at hque
      rw [hque] at hsent
      exact hsent

end Shard

namespace Runtime

variable {runtime runtime' : Runtime} {shard : Shard} {logic : ShardLogic}

theorem turn_ids (hstep : runtime.step (.turn shard.id logic) = some runtime')
    (hsh : runtime.shards.get? shard.id = some shard) {rendered : Rendered}
    (hok : (shard.rendering runtime.ids logic).finish (shard.observations logic) = .ok rendered)
    (hchg : shard.unchanged logic rendered = false) :
    runtime'.ids = (shard.accept (shard.rendering runtime.ids logic).ids logic rendered).2 := by
  simp only [step, turn, hsh, Option.map_some, Option.some.injEq] at hstep
  simp only [← hstep, Shard.reconcile, hok, hchg]
  rfl

theorem retry_ids {attached : AttachedConnection}
    (hstep : runtime.step (.command shard.id logic (.drained attached.id)) = some runtime')
    (hsh : runtime.shards.get? shard.id = some shard)
    (hget : shard.connections.get? attached.id = some attached) (hheld : attached.held = none) :
    runtime'.ids = runtime.ids.retireChannelIds shard.id (Table.ofList (attached.push shard.journal
      shard.journal.head attached.overlaySent attached.actionsSent).retired) := by
  simp only [step, command, hsh, ShardCommand.isRequest, if_true, Shard.handle, Option.map_some,
    Option.some.injEq] at hstep
  simp [← hstep, settle, Shard.retry, hget, hheld]

/-- The three ways a dead number comes back are avoided: no connection arrives
where a number it has had removed is in use, none that lost the root observes
anything again, and a drained queue is retried while the overlay last sent still
fits the view. -/
def LeavesDead (runtime : Runtime) : Event → Prop
  | .arrive connection _ => ∀ flight, runtime.flights.get? connection = some flight →
      ∀ id, flight.queue.Removed id → id ≠ rootChannel →
        ∀ key, runtime.ids.channels flight.destination key ≠ some id
  | .turn id logic => ∀ shard, runtime.shards.get? id = some shard →
      ∀ connection attached, shard.connections.get? connection = some attached →
        Shard.StaysBlind attached (logic.observation attached.id)
  | .command id _ (.drained connection) => ∀ shard attached, runtime.shards.get? id = some shard →
      shard.connections.get? connection = some attached → attached.held = none →
      attached.admitsRetry shard.journal = true →
      attached.overlaySent.Apart Shard.ofChannel attached.see shard.view
  | _ => True

end Runtime

structure Flight.Buries (ids : IdAllocator) (flight : Flight) : Prop where
  final : flight.queue.Final
  spent : ∀ id, flight.queue.Removed id → id < ceiling ids.nextChannel
  held : ids.Below flight.held.channels

def buriedLocally : Locally Runtime.LeavesDead where
  shard := Shard.InStep
  attached ids s a := s.Buries ids a
  flying ids flight := flight.Buries ids
  gone queue := queue.Final
  new := Runtime.inStep_new
  becomes := @Runtime.inStep_becomes
  stays {runtime event runtime' s s' a a'} hallowed hstep hs ha hinStep hburies hfate := by
    have hgrows := (Runtime.step_stepped hstep).ids s.id
    cases hfate with
    | rest hsame => exact hburies.requeue hsame hgrows fun _ => rfl
    | touched hsame htouched => exact hburies.requeue hsame hgrows htouched.news
    | offered _ hsame =>
      rw [AttachedConnection.sendAll_eq]
      exact hburies.requeue hsame hgrows (AttachedConnection.sendAll_adds
        (runtime.offered_isAside event s a) a).news
    | retried hevent hsame hheld =>
      subst hevent
      rw [Runtime.retry_ids hstep hs ha hheld]
      exact hburies.retried hsame hheld (hallowed s a hs ha hheld)
    | turned hevent hok hchanged hturned =>
      subst hevent hturned
      rw [Runtime.turn_ids hstep hs hok hchanged]
      exact hburies.turned hinStep ha hok (hallowed s hs a.id a ha)
  lands {runtime event runtime' s s' flight session a} hallowed hstep hs hinStep hburies hsame
      hlands := by
    obtain ⟨logic, rfl⟩ := hlands.taken
    have hgrows := (Runtime.step_stepped hstep).ids s.id
    have hlanded : s.Buries runtime.ids (flight.landed session s.version) := by
      refine ⟨hburies.final, ?_, fun _ hheld => (by cases hheld), ?_, fun hheld => (by cases hheld)⟩
      · intro id hremoved hroot
        have hfree := hallowed flight hlands.flying id hremoved hroot
        rw [hlands.bound] at hfree
        exact ⟨hburies.spent id hremoved, hfree⟩
      · intro held hheld
        obtain rfl := Option.some.inj hheld
        exact hburies.held
    rw [hlands.row, AttachedConnection.sendAll_eq]
    exact hlanded.requeue hsame hgrows (AttachedConnection.sendAll_adds
      (runtime.offered_isAside _ s _) _).news
  touched {ids ids' flight queue} hgrows hburies hqueue := by
    have hceiling := (hgrows flight.destination).1
    have hnews : ∀ id, queue.news id = flight.queue.news id := by
      rcases hqueue with rfl | htouched
      · exact fun _ => rfl
      · exact htouched.news
    refine ⟨hburies.final.congr hnews, fun id hremoved => ?_, hburies.held.mono hceiling⟩
    exact lt_of_lt_of_le (hburies.spent id ((OutboundQueue.removed_congr (hnews id)).mp hremoved))
      hceiling
  connected := by
    intro ids connection session destination
    refine ⟨fun id => List.Pairwise.nil, ?_, ?_⟩
    · intro id hremoved
      cases hremoved
    · intro id hid
      cases hid
  departed {runtime logic runtime' s a destination} _ hstep hs ha _ hburies := by
    have hceiling := ((Runtime.step_stepped hstep).ids s.id).1
    have hnews : ∀ id, (a.send (Emit.actions a.actionsSent Table.empty)).queue.news id =
        a.queue.news id :=
      (OutboundQueue.trySendAll_adds (Emit.actions_isAside _ _) a.queue).news
    refine ⟨hburies.final.congr hnews, fun id hremoved => ?_, hburies.composed_below.mono hceiling⟩
    have hold := (OutboundQueue.removed_congr (hnews id)).mp hremoved
    by_cases hroot : id = rootChannel
    · subst hroot
      exact runtime'.ids.root_lt_ceiling
    · exact lt_of_lt_of_le (hburies.spent id hold hroot).1 hceiling
  refused hburies := hburies.final
  left _ hburies := Shard.tearDown_final _ hburies.final

namespace OutboundQueue

def LeavesDead (queue : OutboundQueue) : Prop :=
  ∀ id, queue.accepted.Pairwise fun earlier later =>
    earlier = .channelRemove id → ∀ state, later = .channelState state → state.channelId ≠ some id

theorem leavesDead_iff_final (queue : OutboundQueue) : queue.LeavesDead ↔ queue.Final := by
  refine forall_congr' fun id => ?_
  rw [news, List.pairwise_filterMap]
  refine ⟨fun h => h.imp ?_, fun h => h.imp ?_⟩
  · rintro earlier later hpair _ hearlier dropped hlat rfl
    cases earlier with
    | channelRemove channel =>
      obtain rfl : channel = id := by simpa [removes] using hearlier
      cases later with
      | channelRemove channel' =>
        have hdrp : channel' = channel ∧ true = dropped := by
          simpa [removes] using hlat
        exact hdrp.2.symm
      | channelState state =>
        obtain ⟨hstated, -⟩ : state.channelId = some channel ∧ _ := by
          simpa [removes] using hlat
        exact absurd hstated (hpair rfl state rfl)
      | _ => cases hlat
    | channelState state => simp [removes] at hearlier
    | _ => cases hearlier
  · rintro earlier later hpair rfl state rfl hstated
    have hremoves : (channelRemove id).removes id = some true := if_pos rfl
    have hstates : (channelState state).removes id = some false := if_pos hstated
    exact absurd (hpair true hremoves false hstates rfl) Bool.false_ne_true

end OutboundQueue

/-- A removed channel is dead for its client, wherever its connection goes. -/
theorem removed_channel_stays_dead {runtime : Runtime}
    (hreach : Reaches Runtime.step Runtime.LeavesDead Runtime.start runtime) :
    (∀ id shard connection attached, runtime.shards.get? id = some shard →
        shard.connections.get? connection = some attached → attached.queue.LeavesDead) ∧
      (∀ connection flight, runtime.flights.get? connection = some flight →
        flight.queue.LeavesDead) ∧
      ∀ queue ∈ runtime.gone, queue.LeavesDead := by
  have hhd := buriedLocally.holds hreach
  refine ⟨?_, ?_, ?_⟩
  · intro id shard connection attached hsh hatt
    have hbur : shard.Buries runtime.ids attached := hhd.attached hsh hatt
    exact (leavesDead_iff_final _).mpr hbur.final
  · intro connection flight hfl
    have hbur : flight.Buries runtime.ids := hhd.flights hfl
    exact (leavesDead_iff_final _).mpr hbur.final
  · intro queue hque
    have hfinal : queue.Final := hhd.gone hque
    exact queue.leavesDead_iff_final.mpr hfinal

section Dens

/-- Only fresh clients arrive, no turn serves a client that lost the root, and
nothing is retried. -/
def Runtime.plainlyLeaves (runtime : Runtime) : Event → Bool
  | .arrive connection _ => (runtime.flights.get? connection).all (·.queue.accepted.isEmpty)
  | .turn id _ => (runtime.shards.get? id).all fun shard =>
      shard.connections.rows.all fun attached => !(attached.queue.news rootChannel).contains true
  | .command _ _ (.drained _) => false
  | _ => true

theorem Runtime.leavesDead_of_plainly (runtime : Runtime) (event : Event)
    (h : runtime.plainlyLeaves event = true) : runtime.LeavesDead event := by
  cases event with
  | arrive connection logic =>
    intro flight hfl id hrmv
    have hemp : flight.queue.accepted = [] := by
      simpa [plainlyLeaves, hfl] using h
    rw [OutboundQueue.Removed, news, hemp] at hrmv
    cases hrmv
  | turn id logic =>
    intro shard hsh connection attached hatt hrmv
    have hall : ∀ attached ∈ shard.connections.rows, true ∉ attached.queue.news rootChannel := by
      simpa [plainlyLeaves, hsh] using h
    exact absurd hrmv (hall attached (Table.mem_of_get? hatt))
  | command id logic command =>
    cases command with
    | drained connection => cases h
    | _ => trivial
  | _ => trivial

def denCall : BuildCall := .channel ⟨rootChannel, Scope.root⟩ 7 "Den" .same

def denEvents : List Event :=
  [.create, .connect 1, .arrive 1 {}, .turn 1 (lobbyLogic [denCall]), .turn 1 (lobbyLogic []),
    .turn 1 (lobbyLogic [denCall])]

def returnEvents : List Event :=
  [.create, .create, .connect 1, .arrive 1 {}, .turn 1 (lobbyLogic [denCall]), .depart 1 {} 1 2,
    .arrive 1 {}, .turn 2 (lobbyLogic []), .depart 2 {} 1 1, .arrive 1 {},
    .turn 1 (lobbyLogic [denCall])]

def runtimeAfter (events : List Event) : Runtime :=
  (runActions Runtime.step Runtime.start events).getD Runtime.start

def firstShard (events : List Event) : Shard :=
  ((runtimeAfter events).shards.get? 1).getD (Shard.new 1)

def firstClient (events : List Event) : AttachedConnection :=
  ((firstShard events).connections.get? 1).getD (Flight.landed ⟨1, 1, 1, .new, 0, .empty, true⟩ 1 0)

end Dens

/-- A den given back comes back under a fresh number. -/
theorem removed_channel_stays_dead_renewed :
    (firstClient denEvents).queue.news 1 = [false, true] ∧
      (firstClient denEvents).queue.news 2 = [false] ∧
      (firstClient denEvents).queue.LeavesDead := by
  have hplain : Reaches Runtime.step (fun runtime event => runtime.plainlyLeaves event = true)
      Runtime.start (runtimeAfter denEvents) :=
    reaches_getD (by decide +kernel)
  exact ⟨by decide +kernel, by decide +kernel,
    (removed_channel_stays_dead (hplain.mono Runtime.leavesDead_of_plainly)).1 1
      (firstShard denEvents) 1 (firstClient denEvents) (eq_some_getD (by decide +kernel))
      (eq_some_getD (by decide +kernel))⟩

/-- The shard that removes the den from the returning client has no number of it
to retire, so the client is told of the dead one again. -/
theorem den_survives_return :
    Reaches Runtime.step (fun _ _ => True) Runtime.start (runtimeAfter returnEvents) ∧
      (runtimeAfter returnEvents).shards.get? 1 = some (firstShard returnEvents) ∧
      (firstShard returnEvents).connections.get? 1 = some (firstClient returnEvents) ∧
      (firstClient returnEvents).queue.news 1 = [false, true, false] ∧
      ¬(firstClient returnEvents).queue.LeavesDead := by
  refine ⟨reaches_of_run (eq_some_getD (by decide +kernel)) (allAllowed_true _ _),
    eq_some_getD (by decide +kernel), eq_some_getD (by decide +kernel), by decide +kernel, ?_⟩
  intro hdead
  have hnews := (leavesDead_iff_final _).mp hdead 1
  revert hnews
  decide +kernel

end MumbleRuntime
