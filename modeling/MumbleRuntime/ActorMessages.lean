import MumbleRuntime.SpacesState

/-!
# The messages of the controller actor

Client frames, the answers to them, and the commands of the actor's mailbox.
-/

namespace MumbleRuntime.SpacesServer

open Controller Spaces

abbrev StreamId := Nat

structure ProtocolProfileRef where
  profileId : String
  schemaVersion : Nat
  descriptorDigest : String
  deriving DecidableEq, Repr

structure ProtocolParticipantSpec where
  spaceKey : String
  displayName : String
  serverMute : Bool
  serverDeaf : Bool
  deriving DecidableEq, Repr

structure ParticipantRegistration where
  participantId : String
  registrationId : Bytes
  ownershipToken : Bytes
  clientSpecRevision : Nat
  spec : Option ProtocolParticipantSpec
  deriving DecidableEq, Repr

structure DesiredStateSnapshot where
  desiredStateRevision : Nat
  participants : List ParticipantRegistration
  observedSpaceKeys : List String
  deriving DecidableEq, Repr

structure OpenSession where
  controllerId : String
  controllerInstanceId : Bytes
  resumeToken : Bytes
  desiredState : Option DesiredStateSnapshot
  profile : Option ProtocolProfileRef
  deriving DecidableEq, Repr

inductive ClientPayload
  | openSession (command : OpenSession)
  | renewLease (sessionToken : Bytes) (desiredStateRevision : Nat)
  | syncDesiredState (sessionToken : Bytes) (desiredState : Option DesiredStateSnapshot)
  | registerParticipant (sessionToken : Bytes) (participant : Option ParticipantRegistration)
  | setParticipantSpec (sessionToken : Bytes) (participantId : String) (ownershipToken : Bytes)
      (clientSpecRevision : Nat) (spec : Option ProtocolParticipantSpec)
  | releaseParticipant (sessionToken : Bytes) (participantId : String) (registrationId : Bytes)
      (ownershipToken : Bytes)
  | replaceObservedSpaces (sessionToken : Bytes) (observedSpacesRevision : Nat)
      (spaceKeys : List String)
  | fetchSpace (sessionToken : Bytes) (spaceKey : String)
  | closeSession (sessionToken : Bytes)
  deriving DecidableEq, Repr

structure ClientFrame where
  requestId : Bytes
  payload : Option ClientPayload
  deriving DecidableEq, Repr

inductive CommandErrorCode
  | invalidArgument
  | notFound
  | ownershipLost
  | staleRevision
  | sessionExpiredError
  | resourceExhausted
  | internalError
  deriving DecidableEq, Repr

inductive OwnershipRevocationReason
  | ownershipReplaced
  | sessionExpired
  | participantReleased
  | registrationRejected
  deriving DecidableEq, Repr

structure ProtoDuration where
  seconds : Int
  nanos : Int
  deriving DecidableEq, Repr

structure SessionReady where
  sessionToken : Bytes
  resumeToken : Bytes
  controlEpoch : Bytes
  leaseDuration : ProtoDuration
  profile : ProtocolProfileRef
  deriving DecidableEq, Repr

structure ParticipantOwnershipGranted where
  participantId : String
  registrationId : Bytes
  ownershipToken : Bytes
  clientSpecRevision : Nat
  acceptedSpecRevision : Nat
  appliedSpecRevision : Nat
  publishedGeneration : Nat
  connectionCredential : String
  deriving DecidableEq, Repr

structure ParticipantSpecAccepted where
  participantId : String
  clientSpecRevision : Nat
  acceptedSpecRevision : Nat
  appliedSpecRevision : Nat
  publishedGeneration : Nat
  deriving DecidableEq, Repr

structure ParticipantStatus where
  connected : Bool
  appliedSpaceKey : String
  selfMute : Bool
  selfDeaf : Bool
  acceptedSpecRevision : Nat
  appliedSpecRevision : Nat
  publishedGeneration : Nat
  applicationError : String
  deriving DecidableEq, Repr

structure SpaceParticipant where
  participantId : String
  displayName : String
  serverMute : Bool
  serverDeaf : Bool
  connected : Bool
  deriving DecidableEq, Repr

structure SpaceSnapshot where
  spaceKey : String
  incarnationId : Bytes
  spaceRevision : Nat
  participants : List SpaceParticipant
  publishedGeneration : Nat
  deriving DecidableEq, Repr

inductive FetchResult
  | snapshot (snapshot : SpaceSnapshot)
  | absent (spaceKey : String)
  deriving DecidableEq, Repr

inductive ServerPayload
  | sessionReady (ready : SessionReady)
  | desiredStateReconciled (desiredStateRevision : Nat)
  | participantOwnershipGranted (granted : ParticipantOwnershipGranted)
  | participantOwnershipRevoked (participantId : String) (registrationId : Bytes)
      (reason : OwnershipRevocationReason)
  | participantSpecAccepted (accepted : ParticipantSpecAccepted)
  | participantStatusChanged (participantId : String) (status : ParticipantStatus)
  | observedSpacesAccepted (observedSpacesRevision : Nat)
  | spaceSnapshot (snapshot : SpaceSnapshot)
  | spaceClosed (spaceKey : String) (incarnationId : Bytes) (finalSpaceRevision : Nat)
  | fetchSpaceResult (result : FetchResult)
  | resyncRequired (reason : String)
  | commandRejected (code : CommandErrorCode) (message : String)
  | sessionClosing (reason : String)
  deriving DecidableEq, Repr

structure ServerFrame where
  requestId : Bytes
  payload : ServerPayload
  deriving DecidableEq, Repr

inductive StreamReply
  | frame (frame : ServerFrame)
  | invalidArgument (message : String)
  | failedPrecondition (message : String)
  deriving DecidableEq, Repr

inductive ActorCommand
  | openStream (stream : StreamId) (frame : ClientFrame)
  | frame (stream : StreamId) (frame : ClientFrame)
  | streamClosed (stream : StreamId)
  | route (connection : ConnectionId) (credential : Option String)
  | spaceEvent (report : SpaceReport)
  | reconciled (spaceKey : String) (applicationRevision : Nat) (report : Spaces.ReconcileReport)
  | expire
  deriving DecidableEq, Repr

inductive Sending
  | accepted
  | full
  | closed
  deriving DecidableEq, Repr

inductive Effect
  | sent (session : SessionId) (stream : StreamId) (frame : ServerFrame)
  | dropped (session : SessionId) (stream : StreamId) (frame : ServerFrame)
  | recorded (session : SessionId) (frame : ServerFrame)
  | unrecorded (session : SessionId) (frame : ServerFrame)
  | replied (stream : StreamId) (reply : StreamReply)
  | rejected (code : CommandErrorCode) (message : String)
  | created (shard : ShardId) (spaceKey : String)
  | published (shard : ShardId) (state : RenderState)
  | destroyed (shard : ShardId) (reason : String)
  | moved (connection : ConnectionId) (shard : ShardId)
  | closedConnection (connection : ConnectionId)
  | routed (connection : ConnectionId) (decision : Except String ShardId)
  | claimed (participantId : String)
  | registered (participantId : String)
  | respecified (participantId spaceKey : String)
  | released (participantId : String)
  deriving DecidableEq

end MumbleRuntime.SpacesServer
