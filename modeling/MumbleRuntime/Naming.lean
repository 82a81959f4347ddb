import MumbleRuntime.Base
import MumbleRuntime.Trail

/-!
# Whom and what a message names

A text is delivered and a query answered by what the shard shows the recipient
in its newest view. A recipient that lags behind has not been told of all that,
and a text may be addressed to a recipient that is not shown itself. Where the
shard shows what it names and its journal does not still owe it, the recipient's
client holds it.
-/

namespace MumbleRuntime
open Library MumbleRuntime.Runtime Table ControlMessage Option

def ControlMessage.names : ControlMessage → List ElementId
  | .textMessage text =>
    text.actor.toList.map .user ++ text.session.map .user ++ text.channelId.map .channel ++
      text.treeId.map .channel
  | .permissionQuery query => query.channelId.toList.map .channel
  | .permissionDenied denied =>
    denied.session.toList.map .user ++ denied.channelId.toList.map .channel
  | .userStats session => session.toList.map .user
  | _ => []

def TextTarget.element : TextTarget → ElementId
  | .session id => .user id
  | .channel id => .channel id
  | .tree id => .channel id

theorem Emit.relayed_names (actor : Option SessionId) (target : TextTarget) (text : String) :
    (Emit.relayed actor target text).names = actor.toList.map .user ++ [target.element] := by
  cases target <;> simp [Emit.relayed, names, TextTarget.element]

def AttachedConnection.Fresh (attached : AttachedConnection) : Prop :=
  attached.held.isSome = true →
    attached.see = ScopeSet.none ∧ attached.overlaySent = Overlay.empty

variable {ids : IdAllocator} {spoken : Spoken}

namespace Shard

variable {shard : Shard} {attached : AttachedConnection}

theorem seen_composed (h : attached.Fresh) :
    (∀ session, (shard.seenUser attached session).isSome = true →
      (attached.composed shard.view).contains (.user session) = true) ∧
    ∀ channel, (shard.visibleChannel attached channel).isSome = true →
      (attached.composed shard.view).contains (.channel channel) = true := by
  unfold seenUser visibleChannel AttachedConnection.composed
  cases hheld : attached.held with
  | none =>
    simp only [ShardView.contains, contains, ShardView.compose, ShardView.restrict, get?_extend,
      get?_filter, bind_none, none_or]
    constructor <;> intro _ hseen <;> simpa [or_comm] using hseen
  | some held =>
    obtain ⟨hsee, hov⟩ := h (by rw [hheld]; rfl)
    simp only [hsee, hov, ScopeSet.none_sees, bind_some]
    constructor <;> intro _ hseen <;>
      simpa [ShardView.contains, contains, Overlay.empty] using hseen

theorem visibleChannel_id {channel : ChannelId} {rendered : Channel}
    (h : shard.visibleChannel attached channel = some rendered) : rendered.id = channel := by
  rcases or_eq_some_iff.mp h with hview | ⟨-, hrest⟩
  · exact key_of_get? (filter_eq_some_iff.mp hview).1
  · rcases or_eq_some_iff.mp hrest with hheld | ⟨-, hov⟩
    · obtain ⟨held, -, hget⟩ := bind_eq_some_iff.mp hheld
      exact key_of_get? hget
    · exact key_of_get? hov

def Shows (shard : Shard) (attached : AttachedConnection) (e : ElementId) : Prop :=
  (attached.composed shard.view).contains e = true ∧ ¬shard.Owes attached e

def RelaysShown (shard : Shard) (ids : IdAllocator) (spoken : Spoken)
    (attached : AttachedConnection) : Prop :=
  ∀ target, shard.resolve ids spoken.audience = some target →
    shard.receives attached spoken (shard.speakerOf spoken) target = some true →
    shard.Shows attached target.element ∧
      ∀ speaker, shard.speakerOf spoken = some speaker → ¬shard.Owes attached (.user speaker)

/-- Whoever is answered is not owed what it asked about, and is shown what a
denial names. -/
def AnswersShown (shard : Shard) : ShardCommand → Prop
  | .queriedPermissions connection channel => ∀ attached,
      shard.connections.get? connection = some attached →
      (shard.visibleChannel attached channel).isSome = true →
      ¬shard.Owes attached (.channel channel)
  | .queriedUserStats connection target => ∀ attached,
      shard.connections.get? connection = some attached →
      (shard.seenUser attached target).isSome = true → ¬shard.Owes attached (.user target)
  | .said connection target _ => ∀ attached audience channel,
      shard.connections.get? connection = some attached →
      shard.textAudience attached target = some (audience, channel) →
      (shard.visibleChannel attached channel).any Channel.canText = false →
      shard.Shows attached (.user attached.session) ∧ shard.Shows attached (.channel channel)
  | _ => True

theorem heardBy_eq_some {batch : List ControlMessage}
    (h : shard.heardBy ids attached spoken = some batch) :
    ∃ target, shard.resolve ids spoken.audience = some target ∧
      shard.receives attached spoken (shard.speakerOf spoken) target = some true ∧
      batch = [Emit.relayed (shard.speakerOf spoken) target spoken.text] := by
  unfold heardBy at h
  split_ifs at h
  obtain ⟨target, htgt, hsent⟩ := bind_eq_some_iff.mp h
  split_ifs at hsent with hreceives
  exact ⟨target, htgt, hreceives, (some.inj hsent).symm⟩

theorem seen_of_receives {speaker : SessionId} {target : TextTarget}
    (h : shard.receives attached spoken (some speaker) target = some true) :
    (shard.seenUser attached speaker).isSome = true := by
  unfold receives at h
  split_ifs at h
  · cases h
  · obtain ⟨addressed, -, hboth⟩ := map_eq_some_iff.mp h
    exact (Bool.and_eq_true_iff.mp hboth).2

end Shard

namespace Runtime

/-- What `tell` is called with in a step: the shard with the connections attached
then, the allocator, the flavor and the event reported to it. -/
inductive Tells (runtime : Runtime) : Event → Shard → IdAllocator → ShardLogic → VoiceEvent → Prop
  | arrived {connection : ConnectionId} {logic : ShardLogic} {shard : Shard} {flight : Flight}
      {session : SessionId} {ids : IdAllocator} :
      runtime.flights.get? connection = some flight →
      runtime.shards.get? flight.destination = some shard →
      runtime.ids.session (.connection connection) = .ok (session, ids) →
      Tells runtime (.arrive connection logic) (shard.withArrival flight session) ids logic
        (.connected connection)
  | reported {id : ShardId} {logic : ShardLogic} {shard : Shard} {command : ShardCommand}
      {event : VoiceEvent} :
      runtime.shards.get? id = some shard → shard.reported command = some event →
      Tells runtime (.command id logic command) shard runtime.ids logic event
  | left {id : ShardId} {logic : ShardLogic} {shard : Shard} {connection : ConnectionId}
      {reason : String} :
      runtime.shards.get? id = some shard → shard.connections.contains connection = true →
      Tells runtime (.command id logic (.detach connection reason none))
        { shard with connections := shard.connections.erase connection } runtime.ids logic
        (.disconnected connection reason)
  | departed {id : ShardId} {logic : ShardLogic} {shard : Shard} {connection : ConnectionId}
      {destination : ShardId} :
      runtime.shards.get? id = some shard → shard.connections.contains connection = true →
      destination ≠ id → runtime.shards.contains destination = true →
      Tells runtime (.depart id logic connection destination)
        { shard with connections := shard.connections.erase connection } runtime.ids logic
        (.migrated connection destination)

/-- A step calls `deliver` with this text while the shard is `middle`: the words
of the reply and the texts before it have been sent. -/
def Delivers (runtime : Runtime) (event : Event) (ids : IdAllocator) (middle : Shard)
    (spoken : Spoken) : Prop :=
  ∃ shard logic reported earlier later, runtime.Tells event shard ids logic reported ∧
    (logic.observe reported).spoken = earlier ++ spoken :: later ∧
    earlier.foldlM (fun shard spoken => Shard.deliver shard ids spoken)
      (shard.sayWords (logic.observe reported).words) = some middle

/-- A step settles what the clients are told, delivers texts to connections that
are shown what they name, and answers such connections. -/
structure NamesShown (runtime : Runtime) (event : Event) : Prop where
  settles : runtime.Settles (fun _ => True) event
  relays : ∀ {shard ids logic reported}, runtime.Tells event shard ids logic reported →
    ∀ spoken ∈ (logic.observe reported).spoken, ∀ connection attached,
      shard.connections.get? connection = some attached → shard.RelaysShown ids spoken attached
  answers : ∀ {id shard logic command}, event = .command id logic command →
    runtime.shards.get? id = some shard → shard.AnswersShown command

end Runtime

def freshLocally (allowed : Runtime → Event → Prop) : Locally allowed where
  shard _ := True
  attached _ _ a := a.Fresh
  flying _ _ := True
  gone _ := True
  new _ := trivial
  becomes _ _ := trivial
  stays {runtime event runtime' s s' a a'} _ _ _ _ _ hfresh hfate := by
    cases hfate with
    | rest _ => exact hfresh
    | touched _ _ => exact hfresh
    | offered _ _ =>
      rw [AttachedConnection.sendAll_eq]
      exact hfresh
    | retried _ _ _ =>
      rcases a.push_cases s.journal with
        ⟨replayed, -, -, queue, -, hpush⟩ | ⟨queue, outcome, -, hpush⟩
      · rw [hpush]
        exact fun hheld => (by cases hheld)
      · rw [hpush]
        exact hfresh
    | turned _ _ _ _ =>
      rename_i logic rendered _ _ _ _
      rcases s.turned_cases logic rendered a with
        ⟨ops, -, -, -, queue, -, hturned⟩ | ⟨-, -, queue, -, hturned⟩
      · rw [hturned]
        exact fun hheld => (by cases hheld)
      · rw [hturned]
        exact hfresh
  lands _ _ _ _ _ _ hlands := by
    rw [hlands.row, AttachedConnection.sendAll_eq]
    exact fun _ => ⟨rfl, rfl⟩
  touched _ _ _ := trivial
  connected := trivial
  departed _ _ _ _ _ _ := trivial
  refused _ := trivial
  left _ _ := trivial

variable {attached : AttachedConnection} {message : ControlMessage}

namespace Shard

theorem Told.shows {shard : Shard}
    (h : shard.Told (fun _ => True) attached) {e : ElementId} (hshows : shard.Shows attached e) :
    attached.queue.client.contains e = true :=
  h.composed trivial hshows.1 hshows.2

variable {shard : Shard} {attached : AttachedConnection}

theorem heardBy_named (htold : shard.Told (fun _ => True) attached) (hfr : attached.Fresh)
    (hrelays : shard.RelaysShown ids spoken attached)
    (hheard : shard.heardBy ids attached spoken = some [message]) :
    ∀ e ∈ message.names, attached.queue.client.contains e = true := by
  obtain ⟨target, htgt, hreceives, heq⟩ := heardBy_eq_some hheard
  obtain rfl : message = _ := List.singleton_inj.mp heq
  obtain ⟨hshows, hspeaker⟩ := hrelays target htgt hreceives
  rw [Emit.relayed_names]
  intro e he
  rcases List.mem_append.mp he with hact | hlast
  · obtain ⟨speaker, hmem, rfl⟩ := List.mem_map.mp hact
    have hsome : shard.speakerOf spoken = some speaker := by simpa using hmem
    rw [hsome] at hreceives
    exact htold.shows ⟨(seen_composed hfr).1 _ (seen_of_receives hreceives), hspeaker speaker hsome⟩
  · obtain rfl := List.mem_singleton.mp hlast
    exact htold.shows hshows

theorem answered_named {command : ShardCommand}
    (hans : shard.answered command = some (attached, message))
    (htold : shard.Told (fun _ => True) attached) (hfr : attached.Fresh)
    (hanswers : shard.AnswersShown command) :
    ∀ e ∈ message.names, attached.queue.client.contains e = true := by
  intro e he
  cases command with
  | queriedPermissions connection channel =>
    obtain ⟨found, hget, hfnd⟩ := bind_eq_some_iff.mp hans
    obtain ⟨rendered, hvisible, heq⟩ := map_eq_some_iff.mp hfnd
    obtain ⟨rfl, rfl⟩ := Prod.mk.inj heq
    have hsome : (shard.visibleChannel found channel).isSome = true := by rw [hvisible]; rfl
    obtain rfl : e = .channel channel := by
      simpa [Emit.permissionQuery, names, visibleChannel_id hvisible] using he
    exact htold.shows ⟨(seen_composed hfr).2 _ hsome, hanswers found hget hsome⟩
  | queriedUserStats connection target =>
    obtain ⟨found, hget, hfnd⟩ := bind_eq_some_iff.mp hans
    split_ifs at hfnd with hseen
    obtain ⟨rfl, rfl⟩ := Prod.mk.inj (some.inj hfnd)
    obtain rfl : e = .user target := by
      simpa [Emit.userStats, names] using he
    exact htold.shows ⟨(seen_composed hfr).1 _ hseen, hanswers found hget hseen⟩
  | said connection target text =>
    obtain ⟨found, hget, hfnd⟩ := bind_eq_some_iff.mp hans
    obtain ⟨⟨audience, writableIn⟩, haudience, hdenied⟩ := bind_eq_some_iff.mp hfnd
    dsimp only at hdenied
    split_ifs at hdenied with htext
    obtain ⟨rfl, rfl⟩ := Prod.mk.inj (some.inj hdenied)
    obtain ⟨hself, hch⟩ := hanswers found audience writableIn hget haudience (by simpa using htext)
    have hcases : e = .user found.session ∨ e = .channel writableIn := by
      simpa [Emit.deniedPermission, names] using he
    rcases hcases with rfl | rfl
    · exact htold.shows hself
    · exact htold.shows hch
  | _ => cases hans

end Shard

namespace Runtime

variable {runtime : Runtime} {event : Event}

theorem Tells.told {allowed : Runtime → Event → Prop}
    {hset : ∀ runtime event, allowed runtime event → runtime.Settles (fun _ => True) event}
    {shard : Shard} {logic : ShardLogic} {reported : VoiceEvent}
    (h : runtime.Tells event shard ids logic reported)
    (htold : (toldLocally (fun _ => True) hset).Holds runtime)
    (hfr : (freshLocally allowed).Holds runtime) {connection : ConnectionId}
    (hatt : shard.connections.get? connection = some attached) :
    shard.Told (fun _ => True) attached ∧ attached.Fresh := by
  have hrow : ∀ {id : ShardId} {here : Shard}, runtime.shards.get? id = some here →
      here.Recast shard → here.connections.get? connection = some attached →
      shard.Told (fun _ => True) attached ∧ attached.Fresh := by
    intro id here hhere hsame hget
    have hold : here.Told (fun _ => True) attached := htold.attached hhere hget
    exact ⟨hold.requeue hsame rfl, hfr.attached hhere hget⟩
  cases h with
  | arrived hfl hhere hses =>
    rename_i here flight session
    rw [Shard.withArrival, get?_insert] at hatt
    split_ifs at hatt with hlanded
    · obtain rfl := some.inj hatt
      refine ⟨⟨fun held hheld => ?_, fun hheld => (by cases hheld)⟩, fun _ => ⟨rfl, rfl⟩⟩
      obtain rfl := some.inj hheld
      exact htold.flights hfl
    · have hsame : here.Recast (here.withArrival flight session) := rfl
      exact hrow hhere hsame hatt
  | reported hhere _ => exact hrow hhere rfl hatt
  | left hhere _
  | departed hhere _ _ _ =>
    rw [get?_erase] at hatt
    split_ifs at hatt
    exact hrow hhere rfl hatt

theorem Delivers.requeued {middle : Shard} (h : runtime.Delivers event ids middle spoken) :
    ∃ shard logic reported batches, runtime.Tells event shard ids logic reported ∧
      spoken ∈ (logic.observe reported).spoken ∧ shard.Requeued middle batches ∧
      ∀ attached, ∀ batch ∈ batches attached, ∀ message ∈ batch, message.isAside = true := by
  obtain ⟨shard, logic, reported, earlier, later, htells, hspoken, hmiddle⟩ := h
  have hrequeued := Shard.deliverAll_requeued
    (shard.sayWords_requeued (logic.observe reported).words) hmiddle
  refine ⟨shard, logic, reported, _, htells, by simp [hspoken], hrequeued, ?_⟩
  intro attached batch hbatch message hmsg
  exact isAside_of_isReply (shard.offers_isReply ids
    ⟨(logic.observe reported).words, earlier, []⟩ attached batch hbatch message hmsg)

end Runtime

theorem Shard.deliver_rows {shard shard' : Shard}
    (h : shard.deliver ids spoken = some shard') (connection : ConnectionId) :
    shard'.connections.get? connection = (shard.connections.get? connection).map fun attached =>
      attached.sendAll (shard.heardBy ids attached spoken).toList := by
  have hrefl : shard.Requeued shard fun _ => [] := ⟨rfl, fun _ => map_id'.symm⟩
  exact (deliver_requeued hrefl h).rows connection

theorem AttachedConnection.heard_of_accepted {heard : Option (List ControlMessage)}
    (h : (attached.sendAll heard.toList).queue.accepted = attached.queue.accepted ++ [message]) :
    heard = some [message] := by
  have hgrown : attached.queue.accepted ≠ attached.queue.accepted ++ [message] := by
    simp
  cases heard with
  | none => exact absurd h hgrown
  | some batch =>
    rcases attached.queue.trySendAll_cases batch with ⟨-, -, hacc⟩ | ⟨-, -, hacc⟩
    · exact congrArg some (List.append_cancel_left (hacc.symm.trans h))
    · exact absurd (hacc.symm.trans h) hgrown

/-- In every run whose steps name only what they show, each text that is
delivered and each answer names only what the recipient's client holds. -/
theorem named_are_held {runtime : Runtime}
    (hreach : Reaches Runtime.step Runtime.NamesShown Runtime.start runtime) {event : Event}
    (hshown : runtime.NamesShown event) :
    (∀ {ids middle spoken after connection attached attached' message},
      runtime.Delivers event ids middle spoken → middle.deliver ids spoken = some after →
      middle.connections.get? connection = some attached →
      after.connections.get? connection = some attached' →
      attached'.queue.accepted = attached.queue.accepted ++ [message] →
      ∀ e ∈ message.names, attached.queue.client.contains e = true) ∧
    ∀ {id shard logic command attached message}, event = .command id logic command →
      runtime.shards.get? id = some shard →
      shard.answered command = some (attached, message) →
      ∀ e ∈ message.names, attached.queue.client.contains e = true := by
  have htold := (toldLocally (fun _ => True) fun _ _ (h : Runtime.NamesShown _ _) =>
    h.settles).holds hreach
  have hfr := (freshLocally Runtime.NamesShown).holds hreach
  constructor
  · intro ids middle spoken after connection attached attached' message hdelivers hdeliver hatt
      haft hacc
    obtain ⟨shard, logic, reported, batches, htells, hspoken, hrequeued, hasd⟩ :=
      hdelivers.requeued
    rw [Shard.deliver_rows hdeliver, hatt] at haft
    obtain rfl := Option.some.inj haft
    have hheard := AttachedConnection.heard_of_accepted hacc
    rw [hrequeued.rows] at hatt
    obtain ⟨before, hbef, rfl⟩ := Option.map_eq_some_iff.mp hatt
    rw [hrequeued.heardBy] at hheard
    rw [AttachedConnection.sendAll_client (hasd before)]
    obtain ⟨htoldRow, hfreshRow⟩ := htells.told htold hfr hbef
    exact Shard.heardBy_named htoldRow hfreshRow
      (hshown.relays htells spoken hspoken connection before hbef) hheard
  · intro id shard logic command attached message hev hsh hans
    have hatt := (Shard.answered_answers hans).2.1
    exact Shard.answered_named hans (htold.attached hsh hatt)
      (hfr.attached hsh hatt) (hshown.answers hev hsh)

section Den

theorem Runtime.namesShown_silent {runtime : Runtime} {event : Event}
    (hset : runtime.Settles (fun _ => True) event)
    (hsil : ∀ {shard ids logic reported}, runtime.Tells event shard ids logic reported →
      (logic.observe reported).spoken = [])
    (hanswers : ∀ {id shard logic command}, event = .command id logic command →
      runtime.shards.get? id = some shard → shard.AnswersShown command) :
    runtime.NamesShown event where
  settles := hset
  relays htells spoken hspoken := by
    rw [hsil htells] at hspoken
    cases hspoken
  answers := hanswers

def denRuntime : Runtime :=
  (landedRuntime.step
    (.turn 1 (lobbyLogic [.channel ⟨rootChannel, Scope.root⟩ 7 "Den" .same]))).getD Runtime.start

def denShard : Shard := (denRuntime.shards.get? 1).getD (Shard.new 1)

def denReader : AttachedConnection :=
  (denShard.connections.get? 1).getD (Flight.landed ⟨1, 1, 1, .new, 0, .empty, true⟩ 1 0)

theorem denRuntime_reached : Reaches step Runtime.NamesShown start denRuntime := by
  have hlanded : Reaches step Runtime.NamesShown start landedRuntime := by
    refine reaches_of_run (eq_some_getD (by decide +kernel)) (allAllowed_of_forall ?_ _)
    intro runtime event hev
    simp only [landedEvents, List.mem_cons, List.not_mem_nil, or_false] at hev
    rcases hev with rfl | rfl | rfl
    · exact namesShown_silent trivial (fun h => by cases h) (fun h => by cases h)
    · exact namesShown_silent trivial (fun h => by cases h) (fun h => by cases h)
    · refine namesShown_silent trivial (fun h => ?_) (fun h => by cases h)
      cases h
      rfl
  have hsh : landedRuntime.shards.get? 1 = some landedShard := eq_some_getD (by decide +kernel)
  refine .step hlanded ?_ (eq_some_getD (by decide +kernel))
  exact namesShown_silent (settles_first hsh (by decide +kernel))
    (fun h => by cases h) (fun h => by cases h)

theorem denRuntime_query : denRuntime.NamesShown (.command 1 {} (.queriedPermissions 1 1)) := by
  refine namesShown_silent trivial (fun htells => ?_) (fun hev hsh => ?_)
  · cases htells with
    | reported _ hreported => cases hreported
  · obtain ⟨rfl, -, rfl⟩ := Event.command.inj hev
    intro attached hatt _
    have hdecided : ∀ shard ∈ denRuntime.shards.rows, ∀ attached ∈ shard.connections.rows,
        attached.cursor = shard.journal.head := by decide +kernel
    exact Shard.not_owes_of_head (hdecided _ (mem_of_get? hsh) attached (mem_of_get? hatt)) _

end Den

theorem named_are_held_den :
    denShard.answered (.queriedPermissions 1 1) =
        some (denReader, .permissionQuery ⟨some 1, some Emit.Perm.default, some false⟩) ∧
      denReader.queue.client.contains (.channel 1) = true := by
  have hans : denShard.answered (.queriedPermissions 1 1) =
      some (denReader, .permissionQuery ⟨some 1, some Emit.Perm.default, some false⟩) := by
    decide +kernel
  exact ⟨hans, (named_are_held denRuntime_reached denRuntime_query).2 rfl
    (eq_some_getD (by decide +kernel)) hans _ List.mem_cons_self⟩

section Refused

def relievedRuntime : Runtime := (fullRuntime.step (.read 1 1)).getD Runtime.start

def relievedShard : Shard := (relievedRuntime.shards.get? 1).getD (Shard.new 1)

def relievedReader : AttachedConnection :=
  (relievedShard.connections.get? 1).getD (Flight.landed ⟨1, 1, 1, .new, 0, .empty, true⟩ 1 0)

def permissionAnswer : ControlMessage :=
  .permissionQuery ⟨some 1, some Emit.Perm.default, some false⟩

end Refused

/-- A channel is added while the queue is full, one message is then read, and the
client asks for its permissions on the channel: the answer is accepted although
the channel was never sent. -/
theorem refused_channel_named :
    Reaches Runtime.step (fun _ _ => True) Runtime.start relievedRuntime ∧
      relievedRuntime.shards.get? 1 = some relievedShard ∧
      relievedShard.connections.get? 1 = some relievedReader ∧
      relievedShard.answered (.queriedPermissions 1 1) = some (relievedReader, permissionAnswer) ∧
      ((relievedShard.queriedPermissions 1 1).connections.get? 1).map
          (fun attached => attached.queue.accepted) =
        some (relievedReader.queue.accepted ++ [permissionAnswer]) ∧
      permissionAnswer.names = [.channel 1] ∧
      relievedReader.queue.client.contains (.channel 1) = false := by
  refine ⟨.step (reaches_of_run (eq_some_getD (by decide +kernel) :
    runActions step start fullEvents = some fullRuntime) (allAllowed_true _ _))
    trivial (eq_some_getD (by decide +kernel)), eq_some_getD (by decide +kernel),
    eq_some_getD (by decide +kernel), ?_, ?_, ?_, ?_⟩
  all_goals decide +kernel

end MumbleRuntime
