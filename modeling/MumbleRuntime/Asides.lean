import MumbleRuntime.Coherence
import MumbleRuntime.Library.Transition

/-!
# What the actor does beside its entities

Draws, answers, and changes of sessions and streams: none of them touches an entity,
a Space or a binding, none breaks the agreement of the registries, and the log only
grows by effects that concern neither a shard nor a connection nor a participant.
-/

namespace MumbleRuntime.SpacesServer

open Library Controller Spaces SessionRegistry SpacesServer.Effect Table

def Effect.leads : Effect → Bool
  | .moved .. | .closedConnection _ | .routed _ (.ok _) => true
  | _ => false

/-- An effect that is about no shard, no connection and no participant, and not the mark of a
disagreement. -/
def Effect.plain : Effect → Bool
  | .created .. | .published .. | .destroyed .. => false
  | .claimed .. | .registered .. | .respecified .. | .released .. => false
  | effect => !effect.leads && !effect.disagrees

def Effect.quiet : Effect → Bool
  | .published .. => false
  | effect => !effect.disagrees

def Effect.sends : Effect → Bool
  | .sent .. => true
  | _ => false

def Effect.records : Effect → Bool
  | .recorded .. => true
  | _ => false

theorem Effect.quiet_of_plain {effect : Effect} (h : effect.plain = true) :
    effect.quiet = true := by
  cases effect <;> simp_all [plain, quiet]

def ServerFrame.snapshot? (frame : ServerFrame) : Option SpaceSnapshot :=
  match frame.payload with
  | .spaceSnapshot snapshot | .fetchSpaceResult (.snapshot snapshot) => some snapshot
  | _ => none

/-- A frame that carries a snapshot carries the one of the state it is sent in. -/
def ServerFrame.Honest (frame : ServerFrame) (actor : ControllerActor) : Prop :=
  ∀ snapshot, frame.snapshot? = some snapshot →
    actor.spaceSnapshot snapshot.spaceKey = some snapshot

theorem ServerFrame.honest_of_none {frame : ServerFrame} (actor : ControllerActor)
    (h : frame.snapshot? = none) : frame.Honest actor := by
  intro snapshot hsnap
  rw [h] at hsnap
  cases hsnap

inductive Aside : Turn → Turn → Prop
  | drew (turn : Turn) : Aside turn { turn with drawn := turn.drawn + 1 }
  | noted (turn : Turn) {effect : Effect} (hplain : effect.plain = true)
      (hsilent : effect.sends = false) (hunrecorded : effect.records = false) :
      Aside turn (turn.note effect)
  | sent (turn : Turn) (sessionId : SessionId) {frame : ServerFrame}
      (hhonest : frame.Honest turn.actor) : Aside turn (turn.sendSession sessionId frame)
  | replayed (turn : Turn) {sessionId : SessionId} {requestId : Bytes} {frame : ServerFrame}
      (hreplay : turn.actor.reliable.replay sessionId requestId = some frame) :
      Aside turn (turn.sendSessionUncached sessionId frame)
  | core (turn : Turn) {coreSessions : SessionRegistry}
      (hcore : turn.actor.coreSessions.Continues coreSessions) :
      Aside turn (turn.setCore coreSessions)
  | began (turn : Turn) {id : SessionId} {coreSessions : SessionRegistry}
      (hid : id = turn.actor.coreSessions.nextSessionId)
      (hnext : coreSessions.nextSessionId = turn.actor.coreSessions.nextSessionId + 1)
      (hcontains : ∀ other, coreSessions.contains other =
        (decide (other = id) || turn.actor.coreSessions.contains other)) :
      Aside turn ((turn.setCore coreSessions).beginSession id)
  | attached (turn : Turn) {id : SessionId} {stream : StreamId}
      (hlive : turn.actor.coreSessions.contains id = true)
      (hfresh : turn.actor.streams.find? stream = none) :
      Aside turn (turn.attachStream id stream)
  | streamClosed (turn : Turn) (stream : StreamId) : Aside turn (turn.streamClosed stream)
  | observed (turn : Turn) {session : ControllerSession} (spaces : SessionState)
      (hget : turn.actor.sessions.get? session.id = some session) :
      Aside turn (turn.setSession { session with spaces })
  | timed (turn : Turn) (renderStarted : OrderedMap (String ×ₗ Nat) Time) :
      Aside turn { turn with actor := { turn.actor with renderStarted } }

def Asides : Turn → Turn → Prop := Relation.ReflTransGen Aside

structure SameEntities (actor actor' : ControllerActor) : Prop where
  config : actor'.config = actor.config
  host : actor'.host = actor.host
  ownership : actor'.ownership = actor.ownership
  spacesState : actor'.spacesState = actor.spacesState

theorem SameEntities.refl (actor : ControllerActor) : SameEntities actor actor :=
  ⟨rfl, rfl, rfl, rfl⟩

theorem SameEntities.trans {a b c : ControllerActor} (hab : SameEntities a b)
    (hbc : SameEntities b c) : SameEntities a c :=
  ⟨hbc.config.trans hab.config, hbc.host.trans hab.host, hbc.ownership.trans hab.ownership,
    hbc.spacesState.trans hab.spacesState⟩

namespace Turn

inductive Uncached (turn : Turn) (sessionId : SessionId) (frame : ServerFrame) : Turn → Prop
  | silent : Uncached turn sessionId frame turn
  | sent (stream : StreamId) : Uncached turn sessionId frame
      ({ turn with attempts := turn.attempts + 1 }.note (.sent sessionId stream frame))
  | dropped (stream : StreamId) : Uncached turn sessionId frame
      (({ turn with attempts := turn.attempts + 1 }.note (.dropped sessionId stream frame)).setCore
        (turn.actor.coreSessions.markResyncRequired sessionId))
  | hungUp (session : ControllerSession)
      (hget : turn.actor.sessions.get? session.id = some session) :
      Uncached turn sessionId frame ({ turn with attempts := turn.attempts + 1 }.hangUp session)

theorem sendSessionUncached_uncached (turn : Turn) (sessionId : SessionId) (frame : ServerFrame) :
    turn.Uncached sessionId frame (turn.sendSessionUncached sessionId frame) := by
  unfold sendSessionUncached
  cases hget : turn.actor.sessions.get? sessionId with
  | none => exact .silent
  | some session =>
    have hid : session.id = sessionId := key_of_get? hget
    dsimp only
    cases session.responses with
    | none => exact .silent
    | some stream =>
      cases turn.moment.fates turn.attempts with
      | accepted => exact .sent stream
      | full => exact .dropped stream
      | closed => exact .hungUp session (hid ▸ hget)

inductive Spoken (turn : Turn) (sessionId : SessionId) (frame : ServerFrame) : Turn → Prop
  | unrecorded : Spoken turn sessionId frame ((turn.note (.unrecorded sessionId frame)).setCore
      (turn.actor.coreSessions.markResyncRequired sessionId))
  | unasked {turn' : Turn} (hunasked : frame.requestId.isEmpty = true)
      (huncached : turn.Uncached sessionId frame turn') : Spoken turn sessionId frame turn'
  | completed {turn' : Turn} {reliable : ReliableCommands ServerFrame}
      (hasked : frame.requestId.isEmpty = false)
      (hcomplete : turn.actor.reliable.complete sessionId frame.requestId frame = (.ok (), reliable))
      (huncached : ((turn.setReliable reliable).note (.recorded sessionId frame)).Uncached sessionId
        frame turn') : Spoken turn sessionId frame turn'

theorem sendSession_spoken (turn : Turn) (sessionId : SessionId) (frame : ServerFrame) :
    turn.Spoken sessionId frame (turn.sendSession sessionId frame) := by
  unfold sendSession
  split_ifs with hrequest
  · exact .unasked hrequest (turn.sendSessionUncached_uncached sessionId frame)
  · rcases hcmp : turn.actor.reliable.complete sessionId frame.requestId frame with
      ⟨result, reliable⟩
    cases result with
    | error error => exact .unrecorded
    | ok _ =>
      exact .completed (by simpa using hrequest) hcmp
        (sendSessionUncached_uncached _ sessionId frame)

theorem streamClosed_cases (turn : Turn) (stream : StreamId)
    (h : Coherent turn.actor) : turn.streamClosed stream = turn ∨
      ∃ session, turn.actor.sessions.get? session.id = some session ∧
        session.streamId = some stream ∧ turn.streamClosed stream = turn.hangUp session := by
  unfold streamClosed
  cases hfind : turn.actor.streams.find? stream with
  | none => exact .inl rfl
  | some sessionId =>
    obtain ⟨session, hget, hstream⟩ :=
      Option.bind_eq_some_iff.mp ((h.sessions.streams stream sessionId).mp hfind)
    have hid : session.id = sessionId := key_of_get? hget
    refine .inr ⟨session, hid ▸ hget, hstream, ?_⟩
    simp only [hget, hstream, if_true, hangUp]

def Logs (turn turn' : Turn) (p : Effect → Bool) : Prop :=
  ∃ effects, turn'.log = turn.log ++ effects ∧ ∀ effect ∈ effects, p effect = true

variable {turn : Turn} {p : Effect → Bool}

variable {turn' : Turn}

theorem Logs.of_eq (h : turn'.log = turn.log) : turn.Logs turn' p :=
  ⟨[], by simp [h], by simp⟩

theorem Logs.note {effect : Effect} (h : turn'.log = turn.log ++ [effect]) (hp : p effect = true) :
    turn.Logs turn' p :=
  ⟨[effect], h, by simpa using hp⟩

theorem Logs.trans {turn'' : Turn} (h : turn.Logs turn' p) (h' : turn'.Logs turn'' p) :
    turn.Logs turn'' p := by
  obtain ⟨effects, hlog, hall⟩ := h
  obtain ⟨effects', hlog', hall'⟩ := h'
  refine ⟨effects ++ effects', by rw [hlog', hlog, List.append_assoc], ?_⟩
  intro effect hmem
  rcases List.mem_append.mp hmem with hmem | hmem
  · exact hall effect hmem
  · exact hall' effect hmem

theorem Logs.mono {q : Effect → Bool} (h : turn.Logs turn' p)
    (hpq : ∀ effect, p effect = true → q effect = true) : turn.Logs turn' q := by
  obtain ⟨effects, hlog, hall⟩ := h
  exact ⟨effects, hlog, fun effect hmem => hpq effect (hall effect hmem)⟩

variable {turn' : Turn} {sessionId : SessionId} {frame : ServerFrame}

theorem Uncached.same (h : turn.Uncached sessionId frame turn') :
    SameEntities turn.actor turn'.actor := by
  cases h <;> exact ⟨rfl, rfl, rfl, rfl⟩

theorem Uncached.logs (h : turn.Uncached sessionId frame turn') : turn.Logs turn' plain := by
  cases h with
  | silent => exact .of_eq rfl
  | sent stream => exact .note rfl rfl
  | dropped stream => exact .note rfl rfl
  | hungUp session hget => exact .of_eq rfl

variable {id : SessionId}

theorem Uncached.live (h : turn.Uncached sessionId frame turn')
    (hlive : turn.actor.coreSessions.contains id = true) :
    turn'.actor.coreSessions.contains id = true := by
  cases h with
  | dropped stream =>
    exact ((markResyncRequired_continues sessionId).contains_eq id).trans hlive
  | _ => exact hlive

theorem Uncached.coherent (h : turn.Uncached sessionId frame turn') (hcoh : Coherent turn.actor) :
    Coherent turn'.actor := by
  cases h with
  | silent => exact hcoh
  | sent stream => exact hcoh
  | dropped stream => exact hcoh.markResyncRequired sessionId
  | hungUp session hget =>
    exact ⟨hcoh.entities, hcoh.sessions.hangUp hget, hcoh.live⟩

section

variable (h : turn.Spoken sessionId frame turn')

include h

theorem Spoken.same : SameEntities turn.actor turn'.actor := by
  cases h with
  | unrecorded => exact ⟨rfl, rfl, rfl, rfl⟩
  | unasked hunasked hunc => exact hunc.same
  | completed hask hcmp hunc =>
    have hsame := hunc.same
    exact ⟨hsame.config, hsame.host, hsame.ownership, hsame.spacesState⟩

theorem Spoken.logs : turn.Logs turn' plain := by
  cases h with
  | unrecorded => exact .note rfl rfl
  | unasked hunasked hunc => exact hunc.logs
  | @completed _ reliable hask hcmp hunc =>
    have hnoted : turn.Logs ((turn.setReliable reliable).note (.recorded sessionId frame))
        plain := .note rfl rfl
    exact hnoted.trans hunc.logs

theorem Spoken.live (hlive : turn.actor.coreSessions.contains id = true) :
    turn'.actor.coreSessions.contains id = true := by
  cases h with
  | unrecorded =>
    exact ((markResyncRequired_continues sessionId).contains_eq id).trans hlive
  | unasked hunasked hunc
  | completed hask hcmp hunc => exact hunc.live hlive

theorem Spoken.coherent (hcoh : Coherent turn.actor) : Coherent turn'.actor := by
  cases h with
  | unrecorded => exact hcoh.markResyncRequired sessionId
  | unasked hunasked hunc => exact hunc.coherent hcoh
  | completed hask hcmp hunc =>
    have hsame : ∀ id, (turn.actor.reliable.complete sessionId frame.requestId frame).2.contains id =
        turn.actor.reliable.contains id :=
      ReliableCommands.contains_complete sessionId frame.requestId frame
    rw [hcmp] at hsame
    exact hunc.coherent ⟨hcoh.entities, hcoh.sessions.reliable_congr hsame, hcoh.live⟩

end

theorem attachStream_eq {stream : StreamId} {session : ControllerSession}
    (hget : turn.actor.sessions.get? id = some session) :
    turn.attachStream id stream =
      { turn with
        actor := { turn.actor with
          streams := OrderedMap.set (match session.streamId with
            | some previous => turn.actor.streams.erase previous
            | none => turn.actor.streams) stream id
          sessions := turn.actor.sessions.insert
            { session with streamId := some stream, responses := some stream }
          coreSessions := turn.actor.coreSessions.refreshLease id turn.moment.now } } := by
  simp only [attachStream, hget, Option.bind_some] <;> rfl

end Turn

namespace Coherent

variable {turn : Turn}

variable {id : SessionId}

section

variable (h : Coherent turn.actor)

include h

theorem session_of_live (hlive : turn.actor.coreSessions.contains id = true) :
    ∃ session, turn.actor.sessions.get? id = some session := by
  rw [← h.sessions.hosted] at hlive
  exact contains_iff.mp hlive

theorem attachStream {stream : StreamId} (hlive : turn.actor.coreSessions.contains id = true)
    (hfr : turn.actor.streams.find? stream = none) :
    Coherent (turn.attachStream id stream).actor := by
  obtain ⟨session, hget⟩ := h.session_of_live hlive
  have hid : session.id = id := key_of_get? hget
  have hcont : turn.actor.coreSessions.Continues
      (turn.actor.coreSessions.refreshLease id turn.moment.now) :=
    refreshLease_continues id _
  have hsessions := (h.sessions.attachStream (hid ▸ hget) hfr).continues hcont
  rw [Turn.attachStream_eq hget, ← hid]
  rw [← hid] at hcont hsessions
  exact ⟨h.entities, hsessions,
    fun entity state hst => (hcont.contains_eq _).trans (h.live entity state hst)⟩

theorem streamClosed (stream : StreamId) : Coherent (turn.streamClosed stream).actor := by
  rcases turn.streamClosed_cases stream h with heq | ⟨session, hget, -, heq⟩
  · rwa [heq]
  · rw [heq]
    exact ⟨h.entities, h.sessions.hangUp hget, h.live⟩

theorem claim {state previous : OwnershipState}
    (hown : turn.actor.ownership.get state.entityId = some previous)
    (hlive : turn.actor.coreSessions.contains state.owner = true) :
    Coherent (turn.setOwnership (turn.actor.ownership.put state)).actor :=
  ⟨h.entities.put (by simp [hown]), h.sessions, h.live_put hlive⟩

theorem endSession (hnth : turn.actor.ownership.ownedEntities id = []) :
    Coherent (turn.endSession id).actor where
  entities := h.entities
  sessions := h.sessions.endSession id
  live entity state hget := by
    change turn.actor.ownership.get entity = some state at hget
    have howr : state.owner ≠ id := by
      intro heq
      have hmem := OwnershipRegistry.mem_ownedEntities.mpr ⟨state, hget, heq⟩
      rw [hnth] at hmem
      cases hmem
    have hlive := h.live entity state hget
    simp only [Turn.endSession, contains_remove, howr, hlive]
    rfl

end

end Coherent

namespace Aside

variable {turn turn' : Turn}

theorem same (h : Aside turn turn') (hcoh : Coherent turn.actor) :
    SameEntities turn.actor turn'.actor := by
  cases h with
  | sent sessionId hhonest => exact (turn.sendSession_spoken sessionId _).same
  | replayed hrpl => exact (turn.sendSessionUncached_uncached _ _).same
  | attached hlive hfr =>
    obtain ⟨session, hget⟩ := hcoh.session_of_live hlive
    rw [Turn.attachStream_eq hget]
    exact ⟨rfl, rfl, rfl, rfl⟩
  | streamClosed stream =>
    rcases turn.streamClosed_cases stream hcoh with heq | ⟨session, hget, -, heq⟩ <;>
      rw [heq] <;> exact ⟨rfl, rfl, rfl, rfl⟩
  | _ => exact ⟨rfl, rfl, rfl, rfl⟩

theorem logs (h : Aside turn turn') (hcoh : Coherent turn.actor) : turn.Logs turn' plain := by
  cases h with
  | noted hplain hsil hunrecorded => exact .note rfl hplain
  | sent sessionId hhonest => exact (turn.sendSession_spoken sessionId _).logs
  | replayed hrpl => exact (turn.sendSessionUncached_uncached _ _).logs
  | attached hlive hfr =>
    obtain ⟨session, hget⟩ := hcoh.session_of_live hlive
    rw [Turn.attachStream_eq hget]
    exact .of_eq rfl
  | streamClosed stream =>
    rcases turn.streamClosed_cases stream hcoh with heq | ⟨session, hget, -, heq⟩ <;>
      rw [heq] <;> exact .of_eq rfl
  | _ => exact .of_eq rfl

theorem coherent (h : Aside turn turn') (hcoh : Coherent turn.actor) : Coherent turn'.actor := by
  cases h with
  | sent sessionId hhonest => exact (turn.sendSession_spoken sessionId _).coherent hcoh
  | replayed hrpl => exact (turn.sendSessionUncached_uncached _ _).coherent hcoh
  | core hcore => exact hcoh.core hcore
  | began hid hnext hctn =>
    refine ⟨hcoh.entities, hcoh.sessions.beginSession hid hnext hctn, ?_⟩
    intro entity state hget
    have hlive := hcoh.live entity state hget
    exact (hctn state.owner).trans (by rw [hlive, Bool.or_true])
  | attached hlive hfr => exact hcoh.attachStream hlive hfr
  | streamClosed stream => exact hcoh.streamClosed stream
  | observed spaces hget =>
    exact ⟨hcoh.entities, hcoh.sessions.observe hget spaces, hcoh.live⟩
  | _ => exact ⟨hcoh.entities, hcoh.sessions, hcoh.live⟩

end Aside

theorem Aside.live {turn turn' : Turn} (h : Aside turn turn') (hcoh : Coherent turn.actor)
    {id : SessionId} (hlive : turn.actor.coreSessions.contains id = true) :
    turn'.actor.coreSessions.contains id = true := by
  cases h with
  | sent sessionId hhonest => exact (turn.sendSession_spoken sessionId _).live hlive
  | replayed hrpl => exact (turn.sendSessionUncached_uncached _ _).live hlive
  | core hcore => exact (hcore.contains_eq id).trans hlive
  | began hid hnext hctn => exact (hctn id).trans (by rw [hlive, Bool.or_true])
  | @attached session stream hatt hfr =>
    obtain ⟨session, hget⟩ := hcoh.session_of_live hatt
    rw [Turn.attachStream_eq hget]
    exact ((refreshLease_continues _ _).contains_eq id).trans hlive
  | streamClosed stream =>
    rcases turn.streamClosed_cases stream hcoh with heq | ⟨session, hget, -, heq⟩ <;>
      rw [heq] <;> exact hlive
  | _ => exact hlive

namespace Asides

variable {turn turn' : Turn}

variable (h : Asides turn turn') (hcoh : Coherent turn.actor)

include h hcoh in
theorem coherent : Coherent turn'.actor := by
  induction h with
  | refl => exact hcoh
  | tail _ hasd ih => exact hasd.coherent ih

include h hcoh in
theorem same : SameEntities turn.actor turn'.actor := by
  induction h with
  | refl => exact .refl _
  | tail hasides hasd ih => exact ih.trans (hasd.same (Asides.coherent hasides hcoh))

include h hcoh in
theorem logs : turn.Logs turn' plain := by
  induction h with
  | refl => exact .of_eq rfl
  | tail hasides hasd ih => exact ih.trans (hasd.logs (Asides.coherent hasides hcoh))

include h hcoh in
theorem live {id : SessionId} (hlive : turn.actor.coreSessions.contains id = true) :
    turn'.actor.coreSessions.contains id = true := by
  induction h with
  | refl => exact hlive
  | tail hasides hasd ih => exact hasd.live (Asides.coherent hasides hcoh) ih

end Asides

end MumbleRuntime.SpacesServer
