import MumbleRuntime.ControllerActor

/-!
# The registries of the actor agree

An owned entity, a participant of the Spaces profile and a host binding are three
records of one thing; so are a core session, an actor session and a log of reliable
results, and a stream and the session it belongs to. Each change of the actor's
state keeps them in step.
-/

namespace MumbleRuntime.SpacesServer

open Library Controller Spaces Table SpacesState OrderedMap

structure EntitiesAgree (ownership : OwnershipRegistry) (spaces : SpacesState)
    (bindings : Bindings) : Prop where
  owned : ∀ id, (ownership.get id).isSome = spaces.containsParticipant id
  bound : ∀ id, bindings.contains id = spaces.containsParticipant id
  consistent : bindings.Consistent

variable {participant : ParticipantState} {state : OwnershipState}

namespace EntitiesAgree

variable {ownership ownership' : OwnershipRegistry} {spaces spaces' : SpacesState}
  {bindings bindings' : Bindings}

section

variable (h : EntitiesAgree ownership spaces bindings)

include h

theorem ownership_congr (hsame : ∀ id, (ownership'.get id).isSome = (ownership.get id).isSome) :
    EntitiesAgree ownership' spaces bindings :=
  ⟨fun id => (hsame id).trans (h.owned id), h.bound, h.consistent⟩

theorem spaces_congr
    (hsame : ∀ id, spaces'.containsParticipant id = spaces.containsParticipant id) :
    EntitiesAgree ownership spaces' bindings :=
  ⟨fun id => (h.owned id).trans (hsame id).symm, fun id => (h.bound id).trans (hsame id).symm,
    h.consistent⟩

theorem bindings_congr (hsame : ∀ id, bindings'.contains id = bindings.contains id)
    (hcons : bindings'.Consistent) :
    EntitiesAgree ownership spaces bindings' :=
  ⟨h.owned, fun id => (hsame id).trans (h.bound id), hcons⟩

theorem put (hheld : (ownership.get state.entityId).isSome = true) :
    EntitiesAgree (ownership.put state) spaces bindings := by
  refine h.ownership_congr fun id => ?_
  rw [OwnershipRegistry.get_put]
  split_ifs with hid
  · rw [hid]
    exact hheld.symm
  · rfl

theorem insertParticipant (hheld : spaces.containsParticipant participant.participantId = true) :
    EntitiesAgree ownership (spaces.insertParticipant participant) bindings := by
  refine h.spaces_congr fun id => ?_
  rw [containsParticipant_insertParticipant]
  by_cases hid : id = participant.participantId
  · simp [hid, hheld]
  · simp [hid]

theorem register {id credential : String} (hheld : bindings.contains id = true)
    (hok : (bindings.register id credential).1 = .ok ()) :
    EntitiesAgree ownership spaces (bindings.register id credential).2 := by
  refine h.bindings_congr (fun other => ?_) (h.consistent.register hok)
  rw [Bindings.contains_register hok]
  by_cases hoth : other = id
  · simp [hoth, hheld]
  · simp [hoth]

theorem enter {credential : String} (hid : state.entityId = participant.participantId)
    (hok : (bindings.register participant.participantId credential).1 = .ok ()) :
    EntitiesAgree (ownership.put state) (spaces.insertParticipant participant)
      (bindings.register participant.participantId credential).2 := by
  refine ⟨fun id => ?_, fun id => ?_, h.consistent.register hok⟩
  · rw [containsParticipant_insertParticipant, OwnershipRegistry.get_put, hid]
    split_ifs with heq
    · simp [heq]
    · simp [heq, h.owned]
  · rw [containsParticipant_insertParticipant, Bindings.contains_register hok, h.bound]

theorem leave (id : String) :
    EntitiesAgree { ownership with entries := ownership.entries.erase id }
      (spaces.removeParticipant id) (bindings.remove id).2 := by
  refine ⟨fun other => ?_, fun other => ?_, h.consistent.remove id⟩
  · rw [containsParticipant_removeParticipant, ← h.owned, OwnershipRegistry.get, get?_erase]
    split_ifs with heq
    · simp [heq]
    · simp [heq, OwnershipRegistry.get]
  · rw [containsParticipant_removeParticipant, Bindings.contains_remove, h.bound]

end

end EntitiesAgree

def streamOf (sessions : Table ControllerSession.id) (id : SessionId) : Option StreamId :=
  (sessions.get? id).bind ControllerSession.streamId

structure SessionsAgree (core : SessionRegistry) (reliable : ReliableCommands ServerFrame)
    (sessions : Table ControllerSession.id) (streams : OrderedMap StreamId SessionId) : Prop where
  hosted : ∀ id, sessions.contains id = core.contains id
  logged : ∀ id, reliable.contains id = core.contains id
  streams : Indexes (OrderedMap.find? streams) (streamOf sessions)
  issued : ∀ id, core.contains id = true → id < core.nextSessionId

variable {session : ControllerSession}

namespace SessionsAgree

variable {core core' : SessionRegistry} {reliable reliable' : ReliableCommands ServerFrame}
  {sessions : Table ControllerSession.id} {streams : OrderedMap StreamId SessionId}

section

variable (h : SessionsAgree core reliable sessions streams)

include h

theorem continues (hcore : core.Continues core') :
    SessionsAgree core' reliable sessions streams where
  hosted id := (h.hosted id).trans (hcore.contains_eq id).symm
  logged id := (h.logged id).trans (hcore.contains_eq id).symm
  streams := h.streams
  issued id hid := by
    rw [hcore.nextSessionId_eq]
    exact h.issued id ((hcore.contains_eq id).symm.trans hid)

theorem reliable_congr (hsame : ∀ id, reliable'.contains id = reliable.contains id) :
    SessionsAgree core reliable' sessions streams :=
  ⟨h.hosted, fun id => (hsame id).trans (h.logged id), h.streams, h.issued⟩

theorem restream
    {streams' : OrderedMap StreamId SessionId} (hheld : sessions.contains session.id = true)
    (hstreams : Indexes (find? streams') fun id =>
      if id = session.id then session.streamId else streamOf sessions id) :
    SessionsAgree core reliable (sessions.insert session) streams' where
  hosted id := by
    rw [← h.hosted]
    simp only [contains, get?_insert]
    split_ifs with hid
    · rw [hid]
      exact hheld.symm
    · rfl
  logged := h.logged
  streams := by
    have hstreamOf : streamOf (sessions.insert session) = fun id =>
        if id = session.id then session.streamId else streamOf sessions id := by
      funext id
      simp only [streamOf, get?_insert]
      split_ifs <;> rfl
    rwa [hstreamOf]
  issued := h.issued

theorem observe (hget : sessions.get? session.id = some session) (spaces : SessionState) :
    SessionsAgree core reliable (sessions.insert { session with spaces }) streams := by
  refine h.restream (by simp [contains, hget]) ?_
  have hsame : (fun id => if id = session.id then session.streamId else streamOf sessions id) =
      streamOf sessions := by
    funext id
    split_ifs with hid
    · simp [streamOf, hid, hget]
    · rfl
  simp only [hsame]
  exact h.streams

end

theorem find?_unstreamed (stream : Option StreamId) :
    find? (match stream with
      | some stream => streams.erase stream
      | none => streams) = fun other =>
      if stream = some other then none else find? streams other := by
  funext other
  cases stream with
  | none => simp
  | some stream => simp [eq_comm]

section

variable (h : SessionsAgree core reliable sessions streams)

include h

theorem hangUp (hget : sessions.get? session.id = some session) :
    SessionsAgree core reliable
      (sessions.insert { session with streamId := none, responses := none })
      (match session.streamId with
        | some stream => streams.erase stream
        | none => streams) := by
  refine h.restream (by simp [contains, hget]) ?_
  have hheld : streamOf sessions session.id = session.streamId := by simp [streamOf, hget]
  have hclear := h.streams.clear session.id
  rw [hheld] at hclear
  rwa [find?_unstreamed]

theorem attachStream (hget : sessions.get? session.id = some session) {stream : StreamId}
    (hfr : find? streams stream = none) :
    SessionsAgree core reliable
      (sessions.insert { session with streamId := some stream, responses := some stream })
      (set (match session.streamId with
        | some previous => streams.erase previous
        | none => streams) stream session.id) := by
  refine h.restream (by simp [contains, hget]) ?_
  have hheld : streamOf sessions session.id = session.streamId := by simp [streamOf, hget]
  have hassign := h.streams.assign (k := stream) (i := session.id) (by simp [hfr])
  rw [hheld] at hassign
  convert hassign using 1
  funext other
  rw [find?_set, find?_unstreamed]

theorem beginSession {id : SessionId}
    (hid : id = core.nextSessionId) (hnext : core'.nextSessionId = core.nextSessionId + 1)
    (hctn : ∀ other, core'.contains other = (decide (other = id) || core.contains other)) :
    SessionsAgree core' (reliable.attachSession id) (sessions.insert ⟨id, none, none, .empty⟩)
      streams where
  hosted other := by
    rw [hctn, ← h.hosted]
    simp only [contains, get?_insert]
    split_ifs with hoth <;> simp [hoth]
  logged other := by rw [hctn, ReliableCommands.contains_attachSession, h.logged]
  streams := by
    have hnone : sessions.get? id = none := by
      rw [← contains_eq_false_iff, h.hosted]
      by_contra hlive
      exact absurd (h.issued id (by simpa using hlive)) (hid ▸ lt_irrefl _)
    have hsame : streamOf (sessions.insert ⟨id, none, none, .empty⟩) = streamOf sessions := by
      funext other
      simp only [streamOf, get?_insert]
      split_ifs with hoth
      · simp [hoth, hnone]
      · rfl
    rw [hsame]
    exact h.streams
  issued other hoth := by
    rw [hctn, Bool.or_eq_true, decide_eq_true_eq] at hoth
    rw [hnext]
    rcases hoth with rfl | hoth
    · exact hid ▸ Nat.lt_succ_self _
    · exact Nat.lt_succ_of_lt (h.issued other hoth)

theorem endSession (id : SessionId) :
    SessionsAgree (core.remove id) (reliable.removeSession id) (sessions.erase id)
      (match (sessions.get? id).bind ControllerSession.streamId with
        | some stream => streams.erase stream
        | none => streams) where
  hosted other := by
    rw [SessionRegistry.contains_remove, ← h.hosted]
    simp only [contains, get?_erase]
    split_ifs with hoth <;> simp [hoth]
  logged other := by
    rw [SessionRegistry.contains_remove, ReliableCommands.contains_removeSession, h.logged]
  streams := by
    have hstreamOf : streamOf (sessions.erase id) = fun other =>
        if other = id then none else streamOf sessions other := by
      funext other
      simp only [streamOf, get?_erase]
      split_ifs <;> rfl
    rw [hstreamOf, find?_unstreamed]
    exact h.streams.clear id
  issued other hoth := by
    rw [SessionRegistry.contains_remove, Bool.and_eq_true] at hoth
    rw [SessionRegistry.nextSessionId_remove]
    exact h.issued other hoth.2

end

end SessionsAgree

structure Coherent (actor : ControllerActor) : Prop where
  entities : EntitiesAgree actor.ownership actor.spacesState actor.host.bindings
  sessions : SessionsAgree actor.coreSessions actor.reliable actor.sessions actor.streams
  live : ∀ id state, actor.ownership.get id = some state →
    actor.coreSessions.contains state.owner = true

variable {id : String}

namespace Coherent

theorem spawn (config : ControllerConfig) (controlEpoch : Bytes) :
    Coherent (.spawn config controlEpoch) where
  entities := ⟨fun _ => rfl, fun _ => rfl, Bindings.empty_consistent⟩
  sessions := {
    hosted := fun _ => rfl
    logged := fun _ => rfl
    streams := fun _ _ => by simp [ControllerActor.spawn, streamOf]
    issued := fun id hid => by simp [ControllerActor.spawn, SessionRegistry.new,
      SessionRegistry.contains, contains] at hid }
  live _ _ hget := by simp [ControllerActor.spawn, OwnershipRegistry.new, OwnershipRegistry.get] at hget

variable {actor : ControllerActor}

section

variable (h : Coherent actor)

include h

theorem core {coreSessions : SessionRegistry} (hcore : actor.coreSessions.Continues coreSessions) :
    Coherent { actor with coreSessions } where
  entities := h.entities
  sessions := h.sessions.continues hcore
  live id state hget := (hcore.contains_eq state.owner).trans (h.live id state hget)

theorem markResyncRequired (id : SessionId) :
    Coherent { actor with coreSessions := actor.coreSessions.markResyncRequired id } :=
  h.core (SessionRegistry.markResyncRequired_continues id)

theorem live_put
    (hlive : actor.coreSessions.contains state.owner = true) (id : String) (other : OwnershipState)
    (hget : (actor.ownership.put state).get id = some other) :
    actor.coreSessions.contains other.owner = true := by
  rw [OwnershipRegistry.get_put] at hget
  split_ifs at hget with hid
  · cases hget
    exact hlive
  · exact h.live id other hget

theorem get_eq_none
    (hnone : actor.spacesState.participant id = none) : actor.ownership.get id = none := by
  have hown := h.entities.owned id
  rw [containsParticipant, contains_eq_false_iff.mpr hnone] at hown
  simpa using hown

theorem participant_of_get (hget : actor.ownership.get id = some state) :
    ∃ participant, actor.spacesState.participant id = some participant := by
  rw [← containsParticipant_iff, ← h.entities.owned, hget]
  rfl

theorem get_of_participant (hget : actor.spacesState.participant id = some participant) :
    ∃ state, actor.ownership.get id = some state := by
  rw [← Option.isSome_iff_exists, h.entities.owned]
  exact containsParticipant_iff.mpr ⟨participant, hget⟩

theorem absent (hnone : actor.ownership.get id = none) :
    actor.spacesState.participant id = none ∧
      actor.host.bindings.participants.get? id = none := by
  have hown := h.entities.owned id
  have hbd := h.entities.bound id
  rw [hnone] at hown
  rw [← hown] at hbd
  exact ⟨contains_eq_false_iff.mp hown.symm, contains_eq_false_iff.mp hbd⟩

theorem credential_of_participant (hget : actor.spacesState.participant id = some participant) :
    ∃ credential, actor.host.bindings.credential id = some credential := by
  have hbd := h.entities.bound id
  rw [containsParticipant_iff.mpr ⟨participant, hget⟩] at hbd
  obtain ⟨binding, hbinding⟩ := contains_iff.mp hbd
  exact ⟨binding.credential, by simp [Bindings.credential, hbinding]⟩

end

end Coherent

def disagreements : List String :=
  ["the resumed Controller session has no Host state",
    "resumed ownership has no Host participant state",
    "Core ownership and Host participant state disagree",
    "replaced ownership has no Host participant state",
    "participant Host state has no ownership state",
    "participant Host state has no Mumble credential",
    "ownership has no Host participant state"]

def Effect.disagrees : Effect → Bool
  | .rejected _ message => disagreements.contains message
  | .routed _ (.error message) => message = HostError.inconsistentBinding.message
  | _ => false

end MumbleRuntime.SpacesServer
