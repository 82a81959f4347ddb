import Mathlib.Algebra.Ring.Int.Defs
import MumbleRuntime.ActorMessages
import MumbleRuntime.Bindings
import MumbleRuntime.Library.Transition

/-!
# The controller actor

One task owns the sessions, the ownership registry, the participants, the Spaces
and the host bindings, and takes commands one at a time. The clock, the random
source and what becomes of each frame put into a response queue are inputs of a
turn; what the actor does to the runtime and to the streams is its log.
-/

namespace MumbleRuntime.SpacesServer

open Library Controller Spaces

structure ControllerConfig where
  leaseDuration : Time
  emptySpaceGrace : Time
  maxSessions : Nat
  maxParticipants : Nat
  maxParticipantsPerSession : Nat
  maxSpaces : Nat
  maxObservationsPerSession : Nat
  queueCapacity : Nat
  deriving DecidableEq, Repr

structure ControllerSession where
  id : SessionId
  streamId : Option StreamId
  responses : Option StreamId
  spaces : SessionState

structure MumbleHost where
  bindings : Bindings
  nextShard : ShardId

structure ControllerActor where
  config : ControllerConfig
  host : MumbleHost
  controlEpoch : Bytes
  coreSessions : SessionRegistry
  ownership : OwnershipRegistry
  reliable : ReliableCommands ServerFrame
  sessions : Table ControllerSession.id
  streams : OrderedMap StreamId SessionId
  spacesState : SpacesState
  renderStarted : OrderedMap (String ×ₗ Nat) Time

def ControllerActor.spawn (config : ControllerConfig) (controlEpoch : Bytes) : ControllerActor where
  config := config
  host := ⟨.empty, 0⟩
  controlEpoch := controlEpoch
  coreSessions := .new config.maxSessions config.leaseDuration
  ownership := .new config.maxParticipants config.maxParticipantsPerSession
  reliable := .new config.queueCapacity
  sessions := .empty
  streams := .empty
  spacesState := .new
  renderStarted := .empty

structure Moment where
  now : Time
  entropy : Nat → Nat → Option Bytes
  fates : Nat → Sending

structure Turn where
  actor : ControllerActor
  moment : Moment
  drawn : Nat
  attempts : Nat
  log : List Effect

def spacesProfile : ProtocolProfileRef where
  profileId := "mumble.controller.spaces"
  schemaVersion := 1
  descriptorDigest := "af70a24c5aeab6515d6209a3e74661afaab936e3ae43e1836b68e502e26b0c0b"

def negotiate (requested : ProtocolProfileRef) : Except ProfileError ProfileRef := do
  let supported ← ProfileRef.new spacesProfile.profileId spacesProfile.schemaVersion
    spacesProfile.descriptorDigest
  let requested ← ProfileRef.new requested.profileId requested.schemaVersion
    requested.descriptorDigest
  negotiateProfile requested supported

def toProtocol (profile : ProfileRef) : ProtocolProfileRef where
  profileId := profile.profileId
  schemaVersion := profile.schemaVersion
  descriptorDigest := profile.descriptorDigest

def durationToProto (duration : Time) : ProtoDuration where
  seconds := min (duration / 10 ^ 9) (2 ^ 63 - 1)
  nanos := duration % 10 ^ 9

def urlSafeAlphabet : List Char :=
  "ABCDEFGHIJKLMNOPQRSTUVWXYZabcdefghijklmnopqrstuvwxyz0123456789-_".toList

def urlSafeDigit (n : Nat) : Char := urlSafeAlphabet.getD (n % 64) 'A'

def urlSafe : Bytes → List Char
  | [] => []
  | [a] => [urlSafeDigit (a.toNat / 4), urlSafeDigit (a.toNat * 16)]
  | [a, b] =>
    [urlSafeDigit (a.toNat / 4), urlSafeDigit (a.toNat * 16 + b.toNat / 16),
      urlSafeDigit (b.toNat * 4)]
  | a :: b :: c :: rest =>
    urlSafeDigit (a.toNat / 4) :: urlSafeDigit (a.toNat * 16 + b.toNat / 16) ::
      urlSafeDigit (b.toNat * 4 + c.toNat / 64) :: urlSafeDigit c.toNat :: urlSafe rest

def decodeSpaceSpec (spec : ProtocolParticipantSpec) :
    Except SpacesValidationError ParticipantSpec :=
  ParticipantSpec.new spec.spaceKey spec.displayName spec.serverMute spec.serverDeaf

def ParticipantRegistration.decodeSpec (registration : ParticipantRegistration) :
    Except String ParticipantSpec :=
  match registration.spec with
  | none => .error "participant spec is missing"
  | some spec =>
    match decodeSpaceSpec spec with
    | .ok spec => .ok spec
    | .error error => .error error.message

def ParticipantRegistration.claim (registration : ParticipantRegistration) (owner : SessionId)
    (mode : ClaimMode) (newFencingToken : Bytes) : ClaimRequest where
  entityId := registration.participantId
  owner := owner
  registrationId := registration.registrationId
  presentedFencingToken := registration.ownershipToken
  clientRevision := registration.clientSpecRevision
  newFencingToken := newFencingToken
  mode := mode

def rejection (requestId : Bytes) (code : CommandErrorCode) (message : String) : ServerFrame where
  requestId := requestId
  payload := .commandRejected code message

def collect (keys : List String) : OrderedSet String :=
  keys.foldl (fun set key => set.insert key) .empty

namespace ControllerActor

variable (actor : ControllerActor)

def authorized (sessionId : SessionId) (token : Bytes) : Bool :=
  actor.coreSessions.authorize sessionId token

def validateRegistration (registration : ParticipantRegistration) : Except String Unit :=
  if registration.participantId.isEmpty || decide (128 < registration.participantId.utf8ByteSize) then
    .error "participant_id must contain between 1 and 128 bytes"
  else if registration.registrationId.isEmpty then .error "registration_id must not be empty"
  else match registration.decodeSpec with
    | .error error => .error error
    | .ok _ => .ok ()

def validateRegistrations (seen : OrderedSet String) :
    List ParticipantRegistration → Except String Unit
  | [] => .ok ()
  | registration :: rest =>
    match validateRegistration registration with
    | .error error => .error error
    | .ok _ =>
      if seen.contains registration.participantId then
        .error "desired snapshot contains a duplicate participant"
      else validateRegistrations (seen.insert registration.participantId) rest

def validateSpaceKeys : List String → Except String Unit
  | [] => .ok ()
  | key :: rest =>
    match SpaceKey.new key with
    | .error error => .error error.message
    | .ok _ => validateSpaceKeys rest

def validateSnapshot (snapshot : Option DesiredStateSnapshot) : Except String Unit :=
  match snapshot with
  | none => .error "desired state snapshot is missing"
  | some snapshot =>
    if actor.config.maxParticipantsPerSession < snapshot.participants.length then
      .error "participant limit per session is exceeded"
    else if actor.config.maxParticipants < snapshot.participants.length then
      .error "global participant limit is exceeded"
    else if actor.config.maxObservationsPerSession < snapshot.observedSpaceKeys.length then
      .error "observation limit per session is exceeded"
    else match validateRegistrations .empty snapshot.participants with
      | .error error => .error error
      | .ok _ =>
        let desiredSpaces := collect (snapshot.participants.filterMap fun registration =>
          registration.spec.map ProtocolParticipantSpec.spaceKey)
        let observations := collect snapshot.observedSpaceKeys
        if actor.config.maxSpaces < desiredSpaces.rows.length then
          .error "materialized Space limit is exceeded"
        else if observations.rows.length ≠ snapshot.observedSpaceKeys.length then
          .error "desired snapshot contains a duplicate observation"
        else validateSpaceKeys observations.rows

def renderParticipants (spaceKey : String) : List RenderParticipant :=
  (actor.spacesState.participants.rows.filter fun participant =>
    participant.space = spaceKey).filterMap fun participant =>
      (actor.ownership.get participant.participantId).map fun ownership =>
        { participantId := participant.participantId
          connection := actor.host.bindings.connection participant.participantId
          displayName := participant.spec.displayName
          serverMute := participant.spec.serverMute
          serverDeaf := participant.spec.serverDeaf
          selfMute := participant.selfMute
          selfDeaf := participant.selfDeaf
          acceptedRevision := ownership.clientRevision }

def spaceSnapshot (spaceKey : String) : Option SpaceSnapshot :=
  (actor.spacesState.space spaceKey).map fun space =>
    { spaceKey := spaceKey
      incarnationId := space.incarnationId
      spaceRevision := space.spaceRevision
      participants := (actor.spacesState.participants.rows.filter fun participant =>
        participant.space = spaceKey).map fun participant =>
          { participantId := participant.participantId
            displayName := participant.spec.displayName
            serverMute := participant.spec.serverMute
            serverDeaf := participant.spec.serverDeaf
            connected := (actor.host.bindings.connection participant.participantId).isSome }
      publishedGeneration := space.publishedGeneration }

def sessionObserves (sessionId : SessionId) (spaceKey : String) : Bool :=
  ((actor.sessions.get? sessionId).any fun session => session.spaces.observes spaceKey) ||
    actor.spacesState.participants.rows.any fun participant =>
      ((actor.ownership.get participant.participantId).any fun ownership =>
        ownership.owner = sessionId) && decide (participant.space = spaceKey)

def nextDeadline : Option Time :=
  (actor.coreSessions.nextDeadline.toList ++
    actor.spacesState.materialized.rows.filterMap MaterializedSpace.closeDeadline).min?

end ControllerActor

namespace Turn

variable (turn : Turn)

def note (effect : Effect) : Turn := { turn with log := turn.log ++ [effect] }

def setCore (coreSessions : SessionRegistry) : Turn :=
  { turn with actor := { turn.actor with coreSessions } }

def setOwnership (ownership : OwnershipRegistry) : Turn :=
  { turn with actor := { turn.actor with ownership } }

def setReliable (reliable : ReliableCommands ServerFrame) : Turn :=
  { turn with actor := { turn.actor with reliable } }

def setSpaces (spacesState : SpacesState) : Turn :=
  { turn with actor := { turn.actor with spacesState } }

def setBindings (bindings : Bindings) : Turn :=
  { turn with actor := { turn.actor with host := { turn.actor.host with bindings } } }

def setSession (session : ControllerSession) : Turn :=
  { turn with actor := { turn.actor with sessions := turn.actor.sessions.insert session } }

def randomBytes (length : Nat) : Except String Bytes × Turn :=
  (match turn.moment.entropy turn.drawn length with
    | some bytes => .ok bytes
    | none => .error "the operating system random source is unavailable",
    { turn with drawn := turn.drawn + 1 })

def randomJoinToken : Except String String × Turn :=
  let (drawn, turn) := turn.randomBytes 32
  (drawn.map fun bytes => String.ofList (urlSafe bytes), turn)

def hangUp (session : ControllerSession) : Turn :=
  { turn with
    actor := { turn.actor with
      sessions := turn.actor.sessions.insert { session with streamId := none, responses := none }
      streams := match session.streamId with
        | some stream => turn.actor.streams.erase stream
        | none => turn.actor.streams } }

def sendSessionUncached (sessionId : SessionId) (frame : ServerFrame) : Turn :=
  match turn.actor.sessions.get? sessionId with
  | none => turn
  | some session =>
    match session.responses with
    | none => turn
    | some stream =>
      let fate := turn.moment.fates turn.attempts
      let turn := { turn with attempts := turn.attempts + 1 }
      match fate with
      | .accepted => turn.note (.sent sessionId stream frame)
      | .full =>
        (turn.note (.dropped sessionId stream frame)).setCore
          (turn.actor.coreSessions.markResyncRequired sessionId)
      | .closed => turn.hangUp session

def sendSession (sessionId : SessionId) (frame : ServerFrame) : Turn :=
  if frame.requestId.isEmpty then turn.sendSessionUncached sessionId frame
  else match turn.actor.reliable.complete sessionId frame.requestId frame with
    | (.error _, _) =>
      (turn.note (.unrecorded sessionId frame)).setCore
        (turn.actor.coreSessions.markResyncRequired sessionId)
    | (.ok _, reliable) =>
      ((turn.setReliable reliable).note (.recorded sessionId frame)).sendSessionUncached sessionId
        frame

def rejectSession (sessionId : SessionId) (requestId : Bytes) (code : CommandErrorCode)
    (message : String) : Turn :=
  (turn.note (.rejected code message)).sendSession sessionId (rejection requestId code message)

def rejectStreamId (stream : StreamId) (requestId : Bytes) (code : CommandErrorCode)
    (message : String) : Turn :=
  match turn.actor.streams.find? stream with
  | some sessionId => turn.rejectSession sessionId requestId code message
  | none => turn

def rejectStream (stream : StreamId) (requestId : Bytes) (code : CommandErrorCode)
    (message : String) : Turn :=
  ((turn.note (.rejected code message)).note
    (.replied stream (.frame (rejection requestId code message)))).note
    (.replied stream (.failedPrecondition
      "OpenSession was rejected; this Controller stream carries no session"))

def sendRevocation (sessionId : SessionId) (participantId : String) (registrationId : Bytes)
    (reason : OwnershipRevocationReason) (requestId : Bytes) : Turn :=
  turn.sendSession sessionId
    ⟨requestId, .participantOwnershipRevoked participantId registrationId reason⟩

def sendGrant (sessionId : SessionId) (participant : ParticipantState) (requestId : Bytes) : Turn :=
  match turn.actor.ownership.get participant.participantId with
  | none =>
    turn.rejectSession sessionId requestId .internalError
      "participant Host state has no ownership state"
  | some ownership =>
    match turn.actor.host.bindings.credential participant.participantId with
    | none =>
      turn.rejectSession sessionId requestId .internalError
        "participant Host state has no Mumble credential"
    | some joinToken =>
      turn.sendSession sessionId
        ⟨requestId, .participantOwnershipGranted
          { participantId := participant.participantId
            registrationId := ownership.registrationId
            ownershipToken := ownership.fencingToken
            clientSpecRevision := ownership.clientRevision
            acceptedSpecRevision := ownership.clientRevision
            appliedSpecRevision := participant.appliedSpecRevision
            publishedGeneration := participant.publishedGeneration
            connectionCredential := joinToken }⟩

def sendStatus (participantId : String) : Turn :=
  match turn.actor.spacesState.participant participantId with
  | none => turn
  | some participant =>
    match turn.actor.ownership.get participantId with
    | none => turn
    | some ownership =>
      turn.sendSession ownership.owner
        ⟨[], .participantStatusChanged participant.participantId
          { connected := (turn.actor.host.bindings.connection participant.participantId).isSome
            appliedSpaceKey := participant.appliedSpaceKey.getD ""
            selfMute := participant.selfMute
            selfDeaf := participant.selfDeaf
            acceptedSpecRevision := ownership.clientRevision
            appliedSpecRevision := participant.appliedSpecRevision
            publishedGeneration := participant.publishedGeneration
            applicationError := participant.applicationError }⟩

def sendEffectiveSpaceSnapshots (sessionId : SessionId) : Turn :=
  let keys := (turn.actor.spacesState.materialized.rows.map MaterializedSpace.spaceKey).filter
    (turn.actor.sessionObserves sessionId)
  keys.foldl (fun turn key =>
    match turn.actor.spaceSnapshot key with
    | some snapshot => turn.sendSession sessionId ⟨[], .spaceSnapshot snapshot⟩
    | none => turn) turn

def broadcastSpaceSnapshot (spaceKey : String) : Turn :=
  match turn.actor.spaceSnapshot spaceKey with
  | none => turn
  | some snapshot =>
    let sessions := (turn.actor.sessions.rows.map ControllerSession.id).filter fun sessionId =>
      turn.actor.sessionObserves sessionId spaceKey
    sessions.foldl (fun turn sessionId =>
      turn.sendSession sessionId ⟨[], .spaceSnapshot snapshot⟩) turn

def broadcastSpaceClosed (spaceKey : String) (space : MaterializedSpace) : Turn :=
  let sessions := (turn.actor.sessions.rows.filter fun session =>
    session.spaces.observes spaceKey).map ControllerSession.id
  sessions.foldl (fun turn sessionId =>
    turn.sendSession sessionId
      ⟨[], .spaceClosed spaceKey space.incarnationId space.spaceRevision⟩) turn

def advanceDesiredRevision (sessionId : SessionId) : Turn :=
  turn.setCore (turn.actor.coreSessions.advanceDesiredRevision sessionId)

def publish (spaceKey : String) : Turn :=
  let participants := turn.actor.renderParticipants spaceKey
  let (applicationRevision, spacesState) := turn.actor.spacesState.takeApplicationRevision
  match spacesState.space spaceKey with
  | none => turn.setSpaces spacesState
  | some space =>
    let space := space.refresh applicationRevision participants turn.moment.now
      turn.actor.config.emptySpaceGrace
    let turn := { turn with
      actor := { turn.actor with
        spacesState := spacesState.insertSpace space
        renderStarted := turn.actor.renderStarted.set (toLex (spaceKey, applicationRevision))
          turn.moment.now } }
    turn.note (.published space.shard space.desired)

def refreshSpace (spaceKey : String) : Turn :=
  (turn.publish spaceKey).broadcastSpaceSnapshot spaceKey

def materialize (spaceKey : String) (incarnationId : Bytes) : Turn :=
  let shard := turn.actor.host.nextShard
  let turn := { turn with
    actor := { turn.actor with
      host := { turn.actor.host with nextShard := shard + 1 }
      spacesState := turn.actor.spacesState.insertSpace
        (.new spaceKey shard incarnationId ⟨0, spaceKey, []⟩) } }
  turn.note (.created shard spaceKey)

def ensureSpace (spaceKey : String) : Except String Unit × Turn :=
  if turn.actor.spacesState.containsSpace spaceKey then (.ok (), turn)
  else if turn.actor.config.maxSpaces ≤ turn.actor.spacesState.spaceCount then
    (.error "the materialized Space limit is reached", turn)
  else match turn.randomBytes 16 with
    | (.error error, turn) => (.error error, turn)
    | (.ok incarnationId, turn) => (.ok (), turn.materialize spaceKey incarnationId)

def followSpace (connection : Option ConnectionId) (spaceKey : String) : Turn :=
  match connection, turn.actor.spacesState.space spaceKey with
  | some connection, some space => turn.note (.moved connection space.shard)
  | _, _ => turn

def applySpec (participantId : String) (spec : ParticipantSpec) : Turn :=
  match turn.actor.spacesState.replaceParticipantSpec participantId spec with
  | none => turn
  | some (change, spacesState) =>
    let connection := turn.actor.host.bindings.connection participantId
    let turn := ((turn.setSpaces spacesState).note
      (.respecified participantId change.desiredSpaceKey)).refreshSpace change.previousSpaceKey
    if change.desiredSpaceKey ≠ change.previousSpaceKey then
      (turn.refreshSpace change.desiredSpaceKey).followSpace connection change.desiredSpaceKey
    else turn

def revoke (participantId : String) : Turn :=
  let (connection, bindings) := turn.actor.host.bindings.remove participantId
  let turn := turn.setBindings bindings
  match connection with
  | some connection => turn.note (.closedConnection connection)
  | none => turn

def rejectRequest (sessionId : SessionId) (requestId : Option Bytes) (code : CommandErrorCode)
    (message : String) : Turn :=
  match requestId with
  | some requestId => turn.rejectSession sessionId requestId code message
  | none => turn

def release (sessionId : SessionId) (participantId : String) (registrationId ownershipToken : Bytes)
    (reason : OwnershipRevocationReason) (requestId : Option Bytes) : Turn :=
  match turn.actor.spacesState.participant participantId with
  | none =>
    if (turn.actor.ownership.get participantId).isSome then
      turn.rejectRequest sessionId requestId .internalError
        "ownership has no Host participant state"
    else
      turn.rejectRequest sessionId requestId .ownershipLost "participant is no longer owned"
  | some current =>
    match turn.actor.ownership.release participantId sessionId registrationId ownershipToken with
    | (.error .ownershipLost, _) | (.error .notFound, _) =>
      turn.rejectRequest sessionId requestId .ownershipLost "participant ownership token is stale"
    | (.error error, _) => turn.rejectRequest sessionId requestId .internalError error.message
    | (.ok released, ownership) =>
      let turn := turn.setOwnership ownership
      let turn := turn.setSpaces (turn.actor.spacesState.removeParticipant participantId)
      let turn := ((turn.note (.released participantId)).revoke participantId).refreshSpace
        current.space
      turn.sendRevocation sessionId participantId released.registrationId reason
        (requestId.getD [])

def releaseAll (sessionId : SessionId) (participantIds : List String)
    (reason : OwnershipRevocationReason) : Turn :=
  participantIds.foldl (fun turn participantId =>
    match turn.actor.ownership.get participantId with
    | none => turn
    | some ownership =>
      turn.release sessionId participantId ownership.registrationId ownership.fencingToken reason
        none) turn

/-- `resume_registration` once the claim resumed. -/
def applyResumption (sessionId : SessionId) (participantId : String) (spec : ParticipantSpec)
    (revisionAdvanced : Bool) (requestId : Bytes) : Turn :=
  let turn := if revisionAdvanced then turn.applySpec participantId spec else turn
  match turn.actor.spacesState.participant participantId with
  | some participant => turn.sendGrant sessionId participant requestId
  | none => turn

def resumeRegistration (sessionId : SessionId) (registration : ParticipantRegistration)
    (requestId : Bytes) (mode : ClaimMode) : Turn :=
  match registration.decodeSpec with
  | .error message => turn.rejectSession sessionId requestId .invalidArgument message
  | .ok spec =>
    if turn.actor.spacesState.containsParticipant registration.participantId = false then
      turn.rejectSession sessionId requestId .internalError
        "resumed ownership has no Host participant state"
    else match turn.actor.ownership.claim (registration.claim sessionId mode []) with
      | (.error error, _) => turn.rejectSession sessionId requestId .internalError error.message
      | (.ok (.acquired ..), ownership) =>
        (turn.setOwnership ownership).rejectSession sessionId requestId .internalError
          "a resumed registration unexpectedly acquired ownership"
      | (.ok (.resumed _ revisionAdvanced), ownership) =>
        (turn.setOwnership ownership).applyResumption sessionId registration.participantId spec
          revisionAdvanced requestId

/-- Tell the owner a participant is taken from, and what it leaves to the next. -/
def replaceOwner (participant : ParticipantState) (previous : OwnershipState) : Turn :=
  (turn.advanceDesiredRevision previous.owner).sendRevocation previous.owner
    participant.participantId previous.registrationId .ownershipReplaced []

/-- The last part of `acquire`: the installed participant is shown. -/
def unveil (sessionId : SessionId) (requestId : Bytes) (participant : ParticipantState)
    (oldSpace : Option String) : Turn :=
  let turn := match oldSpace with
    | some oldSpace =>
      if oldSpace ≠ participant.space then
        let turn := (turn.refreshSpace oldSpace).refreshSpace participant.space
        turn.followSpace (turn.actor.host.bindings.connection participant.participantId)
          participant.space
      else turn.refreshSpace participant.space
    | none => turn.refreshSpace participant.space
  (turn.sendGrant sessionId participant requestId).sendStatus participant.participantId

def install (sessionId : SessionId) (requestId : Bytes) (participant : ParticipantState) : Turn :=
  let oldSpace := (turn.actor.spacesState.participant participant.participantId).map
    ParticipantState.space
  ((turn.setSpaces (turn.actor.spacesState.insertParticipant participant)).note
    (.registered participant.participantId)).unveil sessionId requestId participant oldSpace

def bind (sessionId : SessionId) (requestId : Bytes) (joinToken : String)
    (participant : ParticipantState) : Turn :=
  match turn.actor.host.bindings.register participant.participantId joinToken with
  | (.error error, _) => turn.rejectSession sessionId requestId .internalError error.message
  | (.ok _, bindings) => (turn.setBindings bindings).install sessionId requestId participant

def takeOver (sessionId : SessionId) (registration : ParticipantRegistration) (requestId : Bytes)
    (spec : ParticipantSpec) (joinToken : String) (previous : Option OwnershipState) : Turn :=
  match previous with
  | none =>
    turn.bind sessionId requestId joinToken (.registered registration.participantId spec none)
  | some ownership =>
    match turn.actor.spacesState.participant registration.participantId with
    | none =>
      turn.rejectSession sessionId requestId .internalError
        "replaced ownership has no Host participant state"
    | some participant =>
      (turn.replaceOwner participant ownership).bind sessionId requestId joinToken
        (.registered registration.participantId spec (some participant))

/-- `acquire` once the Space is there: the secrets are drawn and the claim is made. -/
def claimOwnership (sessionId : SessionId) (registration : ParticipantRegistration)
    (requestId : Bytes) (mode : ClaimMode) (spec : ParticipantSpec) : Turn :=
  match turn.randomBytes 32 with
  | (.error error, turn) => turn.rejectSession sessionId requestId .internalError error
  | (.ok ownershipToken, turn) =>
    match turn.randomJoinToken with
    | (.error error, turn) => turn.rejectSession sessionId requestId .internalError error
    | (.ok joinToken, turn) =>
      if turn.actor.host.bindings.credentialAvailable joinToken = false then
        turn.rejectSession sessionId requestId .internalError
          "generated Mumble credential collides with a live registration"
      else match turn.actor.ownership.claim
          (registration.claim sessionId mode ownershipToken) with
        | (.ok (.acquired _ previous), ownership) =>
          ((turn.setOwnership ownership).note (.claimed registration.participantId)).takeOver
            sessionId registration requestId spec joinToken previous
        | (.ok (.resumed ..), ownership) =>
          (turn.setOwnership ownership).rejectSession sessionId requestId .internalError
            "an ownership acquisition unexpectedly resumed a registration"
        | (.error .globalLimit, _) | (.error .ownerLimit, _) =>
          turn.rejectSession sessionId requestId .resourceExhausted "the ownership limit is reached"
        | (.error .snapshotConflict, _) =>
          turn.sendRevocation sessionId registration.participantId registration.registrationId
            .registrationRejected requestId
        | (.error error, _) => turn.rejectSession sessionId requestId .internalError error.message

def acquire (sessionId : SessionId) (registration : ParticipantRegistration) (requestId : Bytes)
    (mode : ClaimMode) : Turn :=
  match registration.decodeSpec with
  | .error message => turn.rejectSession sessionId requestId .invalidArgument message
  | .ok spec =>
    let existing := turn.actor.ownership.get registration.participantId
    if existing.isSome ≠ turn.actor.spacesState.containsParticipant registration.participantId ∨
        existing.isSome ≠ turn.actor.host.bindings.contains registration.participantId then
      turn.rejectSession sessionId requestId .internalError
        "Core ownership and Host participant state disagree"
    else if existing.isNone ∧
        turn.actor.config.maxParticipants ≤ turn.actor.spacesState.participantCount then
      turn.rejectSession sessionId requestId .resourceExhausted
        "the global participant limit is reached"
    else if existing.all (fun ownership => ownership.owner ≠ sessionId) ∧
        turn.actor.config.maxParticipantsPerSession ≤
          (turn.actor.ownership.ownedEntities sessionId).length then
      turn.rejectSession sessionId requestId .resourceExhausted
        "the participant limit per session is reached"
    else match turn.ensureSpace spec.spaceKey.value with
      | (.error error, turn) => turn.rejectSession sessionId requestId .resourceExhausted error
      | (.ok _, turn) => turn.claimOwnership sessionId registration requestId mode spec

def registerFromSnapshot (sessionId : SessionId) (registration : ParticipantRegistration)
    (requestId : Bytes) : Turn :=
  match turn.actor.ownership.get registration.participantId with
  | some current =>
    if current.owner = sessionId ∧ current.registrationId = registration.registrationId ∧
        current.fencingToken = registration.ownershipToken then
      turn.resumeRegistration sessionId registration requestId .snapshot
    else
      turn.sendRevocation sessionId registration.participantId registration.registrationId
        .registrationRejected requestId
  | none => turn.acquire sessionId registration requestId .snapshot

def registerExplicit (sessionId : SessionId) (registration : ParticipantRegistration)
    (requestId : Bytes) : Turn :=
  match turn.actor.ownership.get registration.participantId with
  | some current =>
    if current.owner = sessionId ∧ current.registrationId = registration.registrationId then
      turn.resumeRegistration sessionId registration requestId .explicit
    else turn.acquire sessionId registration requestId .explicit
  | none => turn.acquire sessionId registration requestId .explicit

/-- The part of `reconcile_snapshot` that makes the session as the snapshot wants it. -/
def adoptSnapshot (sessionId : SessionId) (snapshot : DesiredStateSnapshot) : Turn :=
  let desired := snapshot.participants.map ParticipantRegistration.participantId
  let turn := turn.releaseAll sessionId
    ((turn.actor.ownership.ownedEntities sessionId).filter fun id => !desired.contains id)
    .participantReleased
  let turn := turn.setCore
    (turn.actor.coreSessions.setDesiredRevision sessionId snapshot.desiredStateRevision)
  match turn.actor.sessions.get? sessionId with
  | some session =>
    turn.setSession
      { session with spaces := session.spaces.replaceSnapshotObservations snapshot.observedSpaceKeys }
  | none => turn

def reconcileSnapshot (sessionId : SessionId) (snapshot : Option DesiredStateSnapshot)
    (requestId : Bytes) : Turn :=
  match snapshot with
  | none => turn
  | some snapshot =>
    let turn := snapshot.participants.foldl (fun turn registration =>
      turn.registerFromSnapshot sessionId registration requestId)
      (turn.adoptSnapshot sessionId snapshot)
    (turn.sendSession sessionId
      ⟨requestId, .desiredStateReconciled snapshot.desiredStateRevision⟩).sendEffectiveSpaceSnapshots
      sessionId

/-- `set_spec` once the revision was accepted. -/
def answerSpec (sessionId : SessionId) (participantId : String) (requestId : Bytes) : Turn :=
  match turn.actor.spacesState.participant participantId, turn.actor.ownership.get participantId with
  | some participant, some ownership =>
    turn.sendSession sessionId
      ⟨requestId, .participantSpecAccepted
        { participantId := participantId
          clientSpecRevision := ownership.clientRevision
          acceptedSpecRevision := ownership.clientRevision
          appliedSpecRevision := participant.appliedSpecRevision
          publishedGeneration := participant.publishedGeneration }⟩
  | _, _ => turn

def acceptSpec (sessionId : SessionId) (participantId : String) (ownershipToken : Bytes)
    (clientRevision : Nat) (spec : ParticipantSpec) (current : ParticipantState)
    (requestId : Bytes) : Turn :=
  match turn.actor.ownership.acceptRevision participantId sessionId ownershipToken clientRevision
      (spec = current.spec) with
  | (.ok .advanced, ownership) =>
    ((turn.setOwnership ownership).applySpec participantId spec).answerSpec sessionId participantId
      requestId
  | (.ok .unchanged, ownership) =>
    (turn.setOwnership ownership).answerSpec sessionId participantId requestId
  | (.error .notFound, _) =>
    turn.rejectSession sessionId requestId .notFound "participant is not registered"
  | (.error .ownershipLost, _) =>
    turn.rejectSession sessionId requestId .ownershipLost "participant ownership token is stale"
  | (.error .staleRevision, _) =>
    turn.rejectSession sessionId requestId .staleRevision "participant spec revision is stale"
  | (.error error, _) => turn.rejectSession sessionId requestId .internalError error.message

def setSpec (sessionId : SessionId) (participantId : String) (ownershipToken : Bytes)
    (clientRevision : Nat) (spec : ParticipantSpec) (requestId : Bytes) : Turn :=
  match turn.actor.spacesState.participant participantId with
  | none => turn.rejectSession sessionId requestId .notFound "participant is not registered"
  | some current =>
    match turn.actor.ownership.get participantId with
    | none =>
      turn.rejectSession sessionId requestId .internalError
        "participant Host state has no ownership state"
    | some ownership =>
      if ownership.owner ≠ sessionId ∨ ownership.fencingToken ≠ ownershipToken then
        turn.rejectSession sessionId requestId .ownershipLost
          "participant ownership token is stale"
      else if clientRevision < ownership.clientRevision then
        turn.rejectSession sessionId requestId .staleRevision
          "participant spec revision moved backwards"
      else if clientRevision = ownership.clientRevision ∧ spec ≠ current.spec then
        turn.rejectSession sessionId requestId .staleRevision
          "a participant spec cannot change without advancing its revision"
      else match turn.ensureSpace spec.spaceKey.value with
        | (.error error, turn) => turn.rejectSession sessionId requestId .resourceExhausted error
        | (.ok _, turn) =>
          turn.acceptSpec sessionId participantId ownershipToken clientRevision spec current requestId

def replaceObservations (sessionId : SessionId) (revision : Nat) (keys : List String)
    (requestId : Bytes) : Turn :=
  if turn.actor.config.maxObservationsPerSession < keys.length ∨
      keys.any (fun key => (SpaceKey.new key).toOption.isNone) then
    turn.rejectSession sessionId requestId .invalidArgument "invalid explicit observation set"
  else
    let set := collect keys
    if set.rows.length ≠ keys.length then
      turn.rejectSession sessionId requestId .invalidArgument
        "explicit observation set contains a duplicate Space"
    else
      let accept := fun (turn : Turn) =>
        (turn.sendSession sessionId
          ⟨requestId, .observedSpacesAccepted revision⟩).sendEffectiveSpaceSnapshots sessionId
      match turn.actor.sessions.get? sessionId with
      | none => accept turn
      | some session =>
        match session.spaces.replaceObservations revision set with
        | none =>
          turn.rejectSession sessionId requestId .staleRevision
            "observation revision moved backwards"
        | some spaces => accept (turn.setSession { session with spaces })

def endSession (sessionId : SessionId) : Turn :=
  { turn with
    actor := { turn.actor with
      coreSessions := turn.actor.coreSessions.remove sessionId
      reliable := turn.actor.reliable.removeSession sessionId
      sessions := turn.actor.sessions.erase sessionId
      streams := match (turn.actor.sessions.get? sessionId).bind ControllerSession.streamId with
        | some stream => turn.actor.streams.erase stream
        | none => turn.actor.streams } }

def removeSession (sessionId : SessionId) (reason : OwnershipRevocationReason) : Turn :=
  (turn.releaseAll sessionId (turn.actor.ownership.ownedEntities sessionId) reason).endSession
    sessionId

def attachStream (sessionId : SessionId) (stream : StreamId) : Turn :=
  let actor := turn.actor
  let streams : OrderedMap StreamId SessionId :=
    match (actor.sessions.get? sessionId).bind ControllerSession.streamId with
    | some previous => actor.streams.erase previous
    | none => actor.streams
  let actor := { actor with streams := streams.set stream sessionId }
  match actor.sessions.get? sessionId with
  | some session =>
    { turn with
      actor := { actor with
        sessions := actor.sessions.insert
          { session with streamId := some stream, responses := some stream }
        coreSessions := actor.coreSessions.refreshLease sessionId turn.moment.now } }
  | none => { turn with actor }

def beginSession (sessionId : SessionId) : Turn :=
  (turn.setReliable (turn.actor.reliable.attachSession sessionId)).setSession
    ⟨sessionId, none, none, .empty⟩

/-- `open` once the request was checked and the secrets were drawn: the session, if one opens. -/
def enter (stream : StreamId) (requestId : Bytes) (command : OpenSession) (profile : ProfileRef)
    (credentials : SessionCredentials) : Option SessionOpened × Turn :=
  match turn.actor.coreSessions.openSession
      { controllerId := command.controllerId
        controllerInstanceId := command.controllerInstanceId
        resumeToken := command.resumeToken
        profile := profile
        credentials := credentials
        now := turn.moment.now } with
  | (.error .resourceExhausted, _) =>
    (none, turn.rejectStream stream requestId .resourceExhausted
      "the Controller session limit is reached")
  | (.error error, _) => (none, turn.rejectStream stream requestId .internalError error.message)
  | (.ok ready, coreSessions) =>
    let turn := turn.setCore coreSessions
    if ready.resumed = false then (some ready, turn.beginSession ready.sessionId)
    else if turn.actor.sessions.contains ready.sessionId = false then
      (none, turn.rejectStream stream requestId .internalError
        "the resumed Controller session has no Host state")
    else (some ready, turn)

/-- The checks of `open`, up to the session. -/
def checkOpen (stream : StreamId) (requestId : Bytes) (command : OpenSession) :
    Option SessionOpened × Turn :=
  if requestId.isEmpty || command.controllerId.isEmpty || command.controllerInstanceId.isEmpty then
    (none, turn.rejectStream stream requestId .invalidArgument
      "OpenSession requires request_id, controller_id and controller_instance_id")
  else match command.profile with
    | none =>
      (none, turn.rejectStream stream requestId .invalidArgument
        "OpenSession requires a negotiated profile")
    | some requested =>
      match negotiate requested with
      | .error error => (none, turn.rejectStream stream requestId .invalidArgument error.message)
      | .ok profile =>
        match turn.actor.validateSnapshot command.desiredState with
        | .error message => (none, turn.rejectStream stream requestId .invalidArgument message)
        | .ok _ =>
          match turn.randomBytes 32 with
          | (.error error, turn) => (none, turn.rejectStream stream requestId .internalError error)
          | (.ok sessionToken, turn) =>
            match turn.randomBytes 32 with
            | (.error error, turn) =>
              (none, turn.rejectStream stream requestId .internalError error)
            | (.ok resumeToken, turn) =>
              match SessionCredentials.new sessionToken resumeToken with
              | .error error =>
                (none, turn.rejectStream stream requestId .internalError error.message)
              | .ok credentials => turn.enter stream requestId command profile credentials

def greet (stream : StreamId) (requestId : Bytes) (ready : SessionOpened) : Turn :=
  let turn := turn.attachStream ready.sessionId stream
  turn.sendSession ready.sessionId
    ⟨requestId, .sessionReady
      { sessionToken := ready.sessionToken
        resumeToken := ready.resumeToken
        controlEpoch := turn.actor.controlEpoch
        leaseDuration := durationToProto turn.actor.config.leaseDuration
        profile := toProtocol ready.profile }⟩

def openSession (stream : StreamId) (requestId : Bytes) (command : OpenSession) : Turn :=
  match turn.checkOpen stream requestId command with
  | (none, turn) => turn
  | (some ready, turn) =>
    (turn.greet stream requestId ready).reconcileSnapshot ready.sessionId command.desiredState
      requestId

def openStream (stream : StreamId) (frame : ClientFrame) : Turn :=
  match frame.payload with
  | some (.openSession command) => turn.openSession stream frame.requestId command
  | _ =>
    turn.note (.replied stream (.invalidArgument "the first Controller frame must be OpenSession"))

def authorizing (sessionId : SessionId) (requestId token : Bytes) (command : Turn → Turn) : Turn :=
  if turn.actor.authorized sessionId token then command turn
  else turn.rejectSession sessionId requestId .sessionExpiredError "session token is not current"

def renewLease (sessionId : SessionId) (requestId token : Bytes) (desiredStateRevision : Nat) :
    Turn :=
  match turn.actor.coreSessions.renew sessionId token desiredStateRevision turn.moment.now with
  | (.error .invalidSessionToken, _) =>
    turn.rejectSession sessionId requestId .sessionExpiredError "session token is not current"
  | (.error error, _) => turn.rejectSession sessionId requestId .internalError error.message
  | (.ok .resyncRequired, coreSessions) =>
    (turn.setCore coreSessions).sendSession sessionId
      ⟨requestId, .resyncRequired "the server replica no longer matches this session"⟩
  | (.ok .current, coreSessions) => turn.setCore coreSessions

def execute (sessionId : SessionId) (requestId : Bytes) : ClientPayload → Turn
  | .openSession _ => turn
  | .renewLease token desiredStateRevision =>
    turn.renewLease sessionId requestId token desiredStateRevision
  | .syncDesiredState token desiredState =>
    turn.authorizing sessionId requestId token fun turn =>
      match turn.actor.validateSnapshot desiredState with
      | .error message => turn.rejectSession sessionId requestId .invalidArgument message
      | .ok _ => turn.reconcileSnapshot sessionId desiredState requestId
  | .registerParticipant token participant =>
    turn.authorizing sessionId requestId token fun turn =>
      match participant with
      | none =>
        turn.rejectSession sessionId requestId .invalidArgument
          "participant registration is missing"
      | some registration =>
        match ControllerActor.validateRegistration registration with
        | .error message => turn.rejectSession sessionId requestId .invalidArgument message
        | .ok _ =>
          (turn.advanceDesiredRevision sessionId).registerExplicit sessionId registration requestId
  | .setParticipantSpec token participantId ownershipToken clientSpecRevision spec =>
    turn.authorizing sessionId requestId token fun turn =>
      match spec with
      | none =>
        turn.rejectSession sessionId requestId .invalidArgument "participant spec is missing"
      | some spec =>
        match decodeSpaceSpec spec with
        | .error error => turn.rejectSession sessionId requestId .invalidArgument error.message
        | .ok spec =>
          (turn.advanceDesiredRevision sessionId).setSpec sessionId participantId ownershipToken
            clientSpecRevision spec requestId
  | .releaseParticipant token participantId registrationId ownershipToken =>
    turn.authorizing sessionId requestId token fun turn =>
      (turn.advanceDesiredRevision sessionId).release sessionId participantId registrationId
        ownershipToken .participantReleased (some requestId)
  | .replaceObservedSpaces token observedSpacesRevision spaceKeys =>
    turn.authorizing sessionId requestId token fun turn =>
      (turn.advanceDesiredRevision sessionId).replaceObservations sessionId observedSpacesRevision
        spaceKeys requestId
  | .fetchSpace token spaceKey =>
    turn.authorizing sessionId requestId token fun turn =>
      turn.sendSession sessionId
        ⟨requestId, .fetchSpaceResult (match turn.actor.spaceSnapshot spaceKey with
          | some snapshot => .snapshot snapshot
          | none => .absent spaceKey)⟩
  | .closeSession token =>
    turn.authorizing sessionId requestId token fun turn =>
      (turn.sendSession sessionId
        ⟨requestId, .sessionClosing "session closed by controller"⟩).removeSession sessionId
        .participantReleased

def frame (stream : StreamId) (frame : ClientFrame) : Turn :=
  if frame.requestId.isEmpty then
    turn.rejectStreamId stream frame.requestId .invalidArgument "request_id must not be empty"
  else match frame.payload with
    | none =>
      turn.rejectStreamId stream frame.requestId .invalidArgument "ClientFrame has no payload"
    | some (.openSession _) =>
      turn.rejectStreamId stream frame.requestId .invalidArgument
        "OpenSession is only valid as the first frame"
    | some payload =>
      match turn.actor.streams.find? stream with
      | none => turn
      | some sessionId =>
        match turn.actor.reliable.replay sessionId frame.requestId with
        | some cached => turn.sendSessionUncached sessionId cached
        | none => turn.execute sessionId frame.requestId payload

def streamClosed (stream : StreamId) : Turn :=
  match turn.actor.streams.find? stream with
  | none => turn
  | some sessionId =>
    let actor := { turn.actor with streams := turn.actor.streams.erase stream }
    match actor.sessions.get? sessionId with
    | some session =>
      if session.streamId = some stream then
        { turn with
          actor := { actor with
            sessions := actor.sessions.insert { session with streamId := none, responses := none } } }
      else { turn with actor }
    | none => { turn with actor }

def dropReplaced (attachment : Attachment) : Turn :=
  match attachment.replacedConnection with
  | some previous => turn.note (.closedConnection previous)
  | none => turn

/-- `route` once the credential was recognised. -/
def seat (connection : ConnectionId) (participantId : String) : Turn :=
  match turn.actor.spacesState.participant participantId with
  | none =>
    turn.note (.routed connection (.error "the Mumble join token is invalid or revoked"))
  | some current =>
    let turn := (turn.refreshSpace current.space).sendStatus participantId
    turn.note (.routed connection (match turn.actor.spacesState.space current.space with
      | some space => .ok space.shard
      | none => .error "the participant Space is not materialized"))

def route (connection : ConnectionId) (credential : Option String) : Turn :=
  match credential with
  | none => turn.note (.routed connection (.error "a Mumble join token is required"))
  | some credential =>
    match turn.actor.host.bindings.attach credential connection with
    | (.error .unknownCredential, _) =>
      turn.note (.routed connection (.error "the Mumble join token is invalid or revoked"))
    | (.error error, _) => turn.note (.routed connection (.error error.message))
    | (.ok attachment, bindings) =>
      ((turn.setBindings bindings).dropReplaced attachment).seat connection attachment.participantId

def spaceEvent (spaceKey : String) (event : SpaceEvent) : Turn :=
  match turn.actor.host.bindings.participant event.connection with
  | none => turn
  | some participantId =>
    match turn.actor.spacesState.applyParticipantEvent participantId spaceKey event.kind with
    | (.wrongSpace, _) => turn
    | (.participantMissing, _) => turn.sendStatus participantId
    | (.applied disconnect refresh, spacesState) =>
      let turn := turn.setSpaces spacesState
      let turn := if disconnect then
          turn.setBindings (turn.actor.host.bindings.disconnect event.connection)
        else turn
      let turn := if refresh then turn.refreshSpace spaceKey else turn
      turn.sendStatus participantId

def reconciled (spaceKey : String) (applicationRevision : Nat) (report : Spaces.ReconcileReport) : Turn :=
  let turn := { turn with
    actor := { turn.actor with
      renderStarted := turn.actor.renderStarted.erase (toLex (spaceKey, applicationRevision)) } }
  match turn.actor.spacesState.reconcile spaceKey applicationRevision report with
  | none => turn
  | some (participantIds, spacesState) =>
    (participantIds.foldl (fun turn participantId => turn.sendStatus participantId)
      (turn.setSpaces spacesState)).broadcastSpaceSnapshot spaceKey

def closeSpace (spaceKey : String) : Turn :=
  if turn.actor.spacesState.wanted spaceKey then turn
  else match turn.actor.spacesState.space spaceKey with
    | none => turn
    | some space =>
      let turn := turn.setSpaces (turn.actor.spacesState.removeSpace spaceKey)
      (turn.note (.destroyed space.shard "empty Space grace elapsed")).broadcastSpaceClosed spaceKey
        space

def expireDue : Turn :=
  let turn := (turn.actor.coreSessions.expiredSessions turn.moment.now).foldl
    (fun turn sessionId => turn.removeSession sessionId .sessionExpired) turn
  let closed := (turn.actor.spacesState.materialized.rows.filter fun space =>
    space.closeDeadline.any fun deadline => deadline ≤ turn.moment.now).map MaterializedSpace.spaceKey
  closed.foldl (fun turn spaceKey => turn.closeSpace spaceKey) turn

def handle : ActorCommand → Turn
  | .openStream stream frame => turn.openStream stream frame
  | .frame stream frame => turn.frame stream frame
  | .streamClosed stream => turn.streamClosed stream
  | .route connection credential => turn.route connection credential
  | .spaceEvent report => turn.spaceEvent report.spaceKey report.event
  | .reconciled spaceKey applicationRevision report =>
    turn.reconciled spaceKey applicationRevision report
  | .expire => turn.expireDue

end Turn

structure Input where
  moment : Moment
  command : ActorCommand

namespace ControllerActor

def turn (actor : ControllerActor) (input : Input) : Turn :=
  Turn.handle ⟨actor, input.moment, 0, 0, []⟩ input.command

def step (actor : ControllerActor) (input : Input) : Option ControllerActor :=
  some (actor.turn input).actor

end ControllerActor

end MumbleRuntime.SpacesServer
