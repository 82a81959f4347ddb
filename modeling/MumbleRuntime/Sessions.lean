import Mathlib.Data.List.Lex
import MumbleRuntime.Ownership

/-!
# Controller sessions

A controller opens a session under two secrets: the session token authorises its
commands and changes with every resumption, the resume token names the session
for its whole life. A session lives as long as its lease is renewed. The results
of reliable commands are kept per session, the oldest first to go.
-/

namespace MumbleRuntime.Controller

open Library

instance linearOrderUInt8 : LinearOrder UInt8 where
  le_refl := UInt8.le_refl
  le_trans _ _ _ := UInt8.le_trans
  le_antisymm _ _ := UInt8.le_antisymm
  le_total := UInt8.le_total
  lt_iff_le_not_ge a b := by
    rw [UInt8.not_le]
    exact ⟨fun h => ⟨UInt8.le_of_lt h, h⟩, And.right⟩
  toDecidableLE := inferInstance

abbrev Time := Nat

def u64Max : Nat := 2 ^ 64 - 1

def saturatingSucc (n : Nat) : Nat := min (n + 1) u64Max

inductive ProfileError
  | invalidReference
  | unknownProfile
  | unknownSchemaVersion
  | descriptorMismatch
  deriving DecidableEq, Repr

def ProfileError.message : ProfileError → String
  | .invalidReference => "profile_id, schema_version and descriptor_digest must be present"
  | .unknownProfile => "the requested Controller profile is not compiled into this server"
  | .unknownSchemaVersion => "the requested Controller profile schema version is not supported"
  | .descriptorMismatch => "the requested Controller profile descriptor digest does not match"

structure ProfileRef where
  profileId : String
  schemaVersion : Nat
  descriptorDigest : String
  present : profileId ≠ "" ∧ schemaVersion ≠ 0 ∧ descriptorDigest ≠ ""
  deriving DecidableEq

def ProfileRef.new (profileId : String) (schemaVersion : Nat) (descriptorDigest : String) :
    Except ProfileError ProfileRef :=
  if h : profileId ≠ "" ∧ schemaVersion ≠ 0 ∧ descriptorDigest ≠ "" then
    .ok ⟨profileId, schemaVersion, descriptorDigest, h⟩
  else .error .invalidReference

def negotiateProfile (requested supported : ProfileRef) : Except ProfileError ProfileRef :=
  if requested.profileId ≠ supported.profileId then .error .unknownProfile
  else if requested.schemaVersion ≠ supported.schemaVersion then .error .unknownSchemaVersion
  else if requested.descriptorDigest ≠ supported.descriptorDigest then .error .descriptorMismatch
  else .ok supported

inductive SessionError
  | invalidIdentity
  | emptyCredential
  | resourceExhausted
  | credentialCollision
  | sessionIdExhausted
  | missingSession (id : SessionId)
  | invalidSessionToken
  deriving DecidableEq, Repr

def SessionError.message : SessionError → String
  | .invalidIdentity => "controller_id and controller_instance_id must not be empty"
  | .emptyCredential => "session and resume credentials must not be empty"
  | .resourceExhausted => "the Controller session limit is reached"
  | .credentialCollision => "a generated Controller credential collides with live state"
  | .sessionIdExhausted => "the Controller session identifier space is exhausted"
  | .missingSession id => "Controller session " ++ toString id ++ " is missing"
  | .invalidSessionToken => "session token is not current"

structure SessionCredentials where
  sessionToken : Bytes
  resumeToken : Bytes
  present : sessionToken ≠ [] ∧ resumeToken ≠ []
  deriving DecidableEq

def SessionCredentials.new (sessionToken resumeToken : Bytes) :
    Except SessionError SessionCredentials :=
  if h : sessionToken ≠ [] ∧ resumeToken ≠ [] then .ok ⟨sessionToken, resumeToken, h⟩
  else .error .emptyCredential

/-- What `SessionRegistry::open` is asked. -/
structure OpenRequest where
  controllerId : String
  controllerInstanceId : Bytes
  resumeToken : Bytes
  profile : ProfileRef
  credentials : SessionCredentials
  now : Time
  deriving DecidableEq

/-- What `SessionRegistry::open` answers. -/
structure SessionOpened where
  sessionId : SessionId
  sessionToken : Bytes
  resumeToken : Bytes
  profile : ProfileRef
  resumed : Bool
  deriving DecidableEq

inductive RenewOutcome
  | current
  | resyncRequired
  deriving DecidableEq, Repr

structure Session where
  id : SessionId
  controllerId : String
  controllerInstanceId : Bytes
  sessionToken : Bytes
  resumeToken : Bytes
  profile : ProfileRef
  expiresAt : Time
  desiredRevision : Nat
  needsResync : Bool
  deriving DecidableEq

structure SessionRegistry where
  maximumSessions : Nat
  leaseDuration : Time
  sessions : Table Session.id
  resumeTokens : OrderedMap Bytes SessionId
  nextSessionId : SessionId

namespace SessionRegistry

def new (maximumSessions : Nat) (leaseDuration : Time) : SessionRegistry where
  maximumSessions := maximumSessions
  leaseDuration := leaseDuration
  sessions := .empty
  resumeTokens := .empty
  nextSessionId := 1

variable (registry : SessionRegistry)

def contains (id : SessionId) : Bool := registry.sessions.contains id

def isEmpty : Bool := registry.sessions.isEmpty

def sessionTokenExists (token : Bytes) : Bool :=
  registry.sessions.rows.any fun session => session.sessionToken = token

def put (session : Session) : SessionRegistry :=
  { registry with sessions := registry.sessions.insert session }

def modify (id : SessionId) (change : Session → Session) : SessionRegistry :=
  match registry.sessions.get? id with
  | some session => registry.put (change session)
  | none => registry

def resumable (request : OpenRequest) : Option SessionId :=
  (registry.resumeTokens.find? request.resumeToken).filter fun id =>
    (registry.sessions.get? id).any fun session =>
      session.controllerId = request.controllerId &&
        session.controllerInstanceId = request.controllerInstanceId &&
        session.profile = request.profile && decide (session.expiresAt > request.now)

def resume (id : SessionId) (request : OpenRequest) :
    Except SessionError SessionOpened × SessionRegistry :=
  if registry.sessionTokenExists request.credentials.sessionToken then
    (.error .credentialCollision, registry)
  else match registry.sessions.get? id with
    | none => (.error (.missingSession id), registry)
    | some session =>
      (.ok ⟨id, request.credentials.sessionToken, session.resumeToken, session.profile, true⟩,
        registry.put { session with
          sessionToken := request.credentials.sessionToken
          expiresAt := request.now + registry.leaseDuration })

def create (request : OpenRequest) : Except SessionError SessionOpened × SessionRegistry :=
  if registry.maximumSessions ≤ registry.sessions.rows.length then
    (.error .resourceExhausted, registry)
  else if registry.resumeTokens.contains request.credentials.resumeToken ||
      registry.sessionTokenExists request.credentials.sessionToken then
    (.error .credentialCollision, registry)
  else if u64Max ≤ registry.nextSessionId then
    (.error .sessionIdExhausted, registry)
  else
    let session : Session :=
      { id := registry.nextSessionId
        controllerId := request.controllerId
        controllerInstanceId := request.controllerInstanceId
        sessionToken := request.credentials.sessionToken
        resumeToken := request.credentials.resumeToken
        profile := request.profile
        expiresAt := request.now + registry.leaseDuration
        desiredRevision := 0
        needsResync := false }
    (.ok ⟨registry.nextSessionId, request.credentials.sessionToken,
        request.credentials.resumeToken, request.profile, false⟩,
      { registry with
        sessions := registry.sessions.insert session
        resumeTokens := registry.resumeTokens.set session.resumeToken session.id
        nextSessionId := registry.nextSessionId + 1 })

def openSession (request : OpenRequest) : Except SessionError SessionOpened × SessionRegistry :=
  if request.controllerId.isEmpty || request.controllerInstanceId.isEmpty then
    (.error .invalidIdentity, registry)
  else match registry.resumable request with
    | some id => registry.resume id request
    | none => registry.create request

def authorize (id : SessionId) (sessionToken : Bytes) : Bool :=
  (registry.sessions.get? id).any fun session => session.sessionToken = sessionToken

def renew (id : SessionId) (sessionToken : Bytes) (desiredRevision : Nat) (now : Time) :
    Except SessionError RenewOutcome × SessionRegistry :=
  if registry.authorize id sessionToken = false then (.error .invalidSessionToken, registry)
  else match registry.sessions.get? id with
    | none => (.error (.missingSession id), registry)
    | some session =>
      (.ok (if session.needsResync || decide (session.desiredRevision ≠ desiredRevision) then
          .resyncRequired else .current),
        registry.put { session with
          expiresAt := now + registry.leaseDuration
          needsResync := false })

def advanceDesiredRevision (id : SessionId) : SessionRegistry :=
  registry.modify id fun session =>
    { session with desiredRevision := saturatingSucc session.desiredRevision }

def setDesiredRevision (id : SessionId) (desiredRevision : Nat) : SessionRegistry :=
  registry.modify id fun session => { session with desiredRevision }

def markResyncRequired (id : SessionId) : SessionRegistry :=
  registry.modify id fun session => { session with needsResync := true }

def refreshLease (id : SessionId) (now : Time) : SessionRegistry :=
  registry.modify id fun session => { session with expiresAt := now + registry.leaseDuration }

def nextDeadline : Option Time := (registry.sessions.rows.map Session.expiresAt).min?

def expiredSessions (now : Time) : List SessionId :=
  (registry.sessions.rows.filter fun session => session.expiresAt ≤ now).map Session.id

def remove (id : SessionId) : SessionRegistry :=
  match registry.sessions.get? id with
  | none => registry
  | some session =>
    { registry with
      sessions := registry.sessions.erase id
      resumeTokens := registry.resumeTokens.erase session.resumeToken }

structure Continues (registry registry' : SessionRegistry) : Prop where
  contains_eq : ∀ id, registry'.contains id = registry.contains id
  nextSessionId_eq : registry'.nextSessionId = registry.nextSessionId

variable {registry}

theorem Continues.refl : registry.Continues registry := ⟨fun _ => rfl, rfl⟩

theorem Continues.put {session : Session} (h : registry.contains session.id = true) :
    registry.Continues (registry.put session) := by
  refine ⟨fun id => ?_, rfl⟩
  simp only [contains, Table.contains, SessionRegistry.put, Table.get?_insert]
  split_ifs with hid
  · rw [hid]
    exact h.symm
  · rfl

theorem Continues.modify (id : SessionId) {change : Session → Session}
    (hchange : ∀ session, (change session).id = session.id) :
    registry.Continues (registry.modify id change) := by
  unfold SessionRegistry.modify
  cases hget : registry.sessions.get? id with
  | none => exact .refl
  | some session =>
    refine .put ?_
    rw [hchange, Table.key_of_get? hget]
    simp [contains, Table.contains, hget]

theorem advanceDesiredRevision_continues (id : SessionId) :
    registry.Continues (registry.advanceDesiredRevision id) := .modify id fun _ => rfl

theorem setDesiredRevision_continues (id : SessionId) (desiredRevision : Nat) :
    registry.Continues (registry.setDesiredRevision id desiredRevision) := .modify id fun _ => rfl

theorem markResyncRequired_continues (id : SessionId) :
    registry.Continues (registry.markResyncRequired id) := .modify id fun _ => rfl

theorem markResyncRequired_lease (id other : SessionId) :
    ((registry.markResyncRequired id).sessions.get? other).map
        (fun session => (session.desiredRevision, session.expiresAt)) =
      (registry.sessions.get? other).map
        fun session => (session.desiredRevision, session.expiresAt) := by
  unfold markResyncRequired modify
  cases hget : registry.sessions.get? id with
  | none => rfl
  | some session =>
    have hid : session.id = id := Table.key_of_get? hget
    simp only [put, Table.get?_insert, hid]
    split_ifs with hoth
    · rw [hoth, hget]
      rfl
    · rfl

theorem refreshLease_continues (id : SessionId) (now : Time) :
    registry.Continues (registry.refreshLease id now) := .modify id fun _ => rfl

theorem renew_continues (id : SessionId) (sessionToken : Bytes) (desiredRevision : Nat)
    (now : Time) : registry.Continues (registry.renew id sessionToken desiredRevision now).2 := by
  unfold renew
  split_ifs with hauth
  · exact .refl
  cases hget : registry.sessions.get? id with
  | none => exact .refl
  | some session =>
    refine .put ?_
    rw [Table.key_of_get? hget]
    simp [contains, Table.contains, hget]

theorem contains_of_authorize {id : SessionId} {sessionToken : Bytes}
    (h : registry.authorize id sessionToken = true) : registry.contains id = true := by
  unfold authorize at h
  cases hget : registry.sessions.get? id with
  | none => simp [hget] at h
  | some session => simp [contains, Table.contains, hget]

theorem renew_error {id : SessionId} {sessionToken : Bytes} {desiredRevision : Nat} {now : Time}
    {error : SessionError}
    (h : (registry.renew id sessionToken desiredRevision now).1 = .error error) :
    error = .invalidSessionToken := by
  unfold renew at h
  split_ifs at h with hauth
  · exact (Except.error.inj h).symm
  · obtain ⟨session, hget⟩ :=
      Table.contains_iff.mp (contains_of_authorize (Bool.eq_true_of_not_eq_false hauth))
    simp [hget] at h

/-- What `openSession` can do. -/
inductive Opened (registry : SessionRegistry) :
    Except SessionError SessionOpened × SessionRegistry → Prop
  | refused (error : SessionError) (h : ∀ id, error ≠ .missingSession id) :
      Opened registry (.error error, registry)
  | resumed (ready : SessionOpened) (registry' : SessionRegistry) (hresumed : ready.resumed = true)
      (hlive : registry.contains ready.sessionId = true) (h : registry.Continues registry') :
      Opened registry (.ok ready, registry')
  | created (ready : SessionOpened) (registry' : SessionRegistry) (hresumed : ready.resumed = false)
      (hid : ready.sessionId = registry.nextSessionId)
      (hnext : registry'.nextSessionId = registry.nextSessionId + 1)
      (hcontains : ∀ id, registry'.contains id =
        (decide (id = ready.sessionId) || registry.contains id)) :
      Opened registry (.ok ready, registry')

theorem create_opened (request : OpenRequest) : Opened registry (registry.create request) := by
  unfold create
  split_ifs with hlimit hcollision hids
  · exact .refused _ (by simp)
  · exact .refused _ (by simp)
  · exact .refused _ (by simp)
  · refine .created _ _ rfl rfl rfl fun id => ?_
    simp only [contains, Table.contains, Table.get?_insert]
    split_ifs with hid <;> simp [hid]

theorem openSession_opened (request : OpenRequest) :
    Opened registry (registry.openSession request) := by
  unfold openSession
  split_ifs with hidentity
  · exact .refused _ (by simp)
  cases hresumable : registry.resumable request with
  | none => exact create_opened request
  | some id =>
    obtain ⟨-, hany⟩ := Option.filter_eq_some_iff.mp hresumable
    cases hget : registry.sessions.get? id with
    | none => simp [hget] at hany
    | some session =>
      have hlive : registry.contains id = true := by simp [contains, Table.contains, hget]
      simp only [resume, hget]
      split_ifs with hcollision
      · exact .refused _ (by simp)
      · refine .resumed _ _ rfl hlive (.put ?_)
        rwa [Table.key_of_get? hget]

theorem contains_remove (id other : SessionId) :
    (registry.remove id).contains other = (!decide (other = id) && registry.contains other) := by
  unfold remove
  cases hget : registry.sessions.get? id with
  | none =>
    by_cases hoth : other = id
    · simp [hoth, contains, Table.contains, hget]
    · simp [hoth]
  | some session =>
    simp only [contains, Table.contains, Table.get?_erase]
    split_ifs with hoth <;> simp [hoth]

theorem nextSessionId_remove (id : SessionId) :
    (registry.remove id).nextSessionId = registry.nextSessionId := by
  unfold remove
  cases registry.sessions.get? id <;> rfl

end SessionRegistry

inductive ReliableError
  | missingSession (id : SessionId)
  | emptyRequestId
  deriving DecidableEq, Repr

structure SessionLog (Output : Type*) where
  id : SessionId
  completed : OrderedMap Bytes Output
  order : List Bytes

structure ReliableCommands (Output : Type*) where
  maximumCompletedPerSession : Nat
  sessions : Table (SessionLog.id : SessionLog Output → SessionId)

namespace SessionLog

variable {Output : Type*}

def trim (maximum : Nat) (completed : OrderedMap Bytes Output) :
    List Bytes → OrderedMap Bytes Output × List Bytes
  | [] => (completed, [])
  | expired :: order =>
    if maximum < (expired :: order).length then trim maximum (completed.erase expired) order
    else (completed, expired :: order)

def complete (log : SessionLog Output) (maximum : Nat) (requestId : Bytes) (result : Output) :
    SessionLog Output :=
  let order := if log.completed.contains requestId then log.order else log.order ++ [requestId]
  let (completed, order) := trim maximum (log.completed.set requestId result) order
  { log with completed, order }

theorem find?_of_trim {maximum : Nat} {completed : OrderedMap Bytes Output} {order : List Bytes}
    {requestId : Bytes} {result : Output}
    (h : (trim maximum completed order).1.find? requestId = some result) :
    completed.find? requestId = some result := by
  induction order generalizing completed with
  | nil => exact h
  | cons expired order ih =>
    unfold trim at h
    split_ifs at h with hfull
    · have herased := ih h
      rw [OrderedMap.find?_erase] at herased
      split_ifs at herased
      exact herased
    · exact h

theorem find?_of_complete {log : SessionLog Output} {maximum : Nat} {requestId other : Bytes}
    {result cached : Output}
    (h : (log.complete maximum requestId result).completed.find? other = some cached) :
    log.completed.find? other = some cached ∨ (other = requestId ∧ cached = result) := by
  have hset := find?_of_trim h
  rw [OrderedMap.find?_set] at hset
  split_ifs at hset with hoth
  · cases hset
    exact .inr ⟨hoth, rfl⟩
  · exact .inl hset

end SessionLog

namespace ReliableCommands

variable {Output : Type*}

def new (maximumCompletedPerSession : Nat) : ReliableCommands Output where
  maximumCompletedPerSession := maximumCompletedPerSession
  sessions := .empty

variable (commands : ReliableCommands Output)

def contains (id : SessionId) : Bool := commands.sessions.contains id

def attachSession (id : SessionId) : ReliableCommands Output :=
  if commands.sessions.contains id then commands
  else { commands with sessions := commands.sessions.insert ⟨id, .empty, []⟩ }

def replay (id : SessionId) (requestId : Bytes) : Option Output :=
  (commands.sessions.get? id).bind fun log => log.completed.find? requestId

def complete (id : SessionId) (requestId : Bytes) (result : Output) :
    Except ReliableError Unit × ReliableCommands Output :=
  match commands.sessions.get? id with
  | none => (.error (.missingSession id), commands)
  | some log =>
    if requestId.isEmpty then (.error .emptyRequestId, commands)
    else
      (.ok (), { commands with
        sessions := commands.sessions.insert
          (log.complete commands.maximumCompletedPerSession requestId result) })

def removeSession (id : SessionId) : ReliableCommands Output :=
  { commands with sessions := commands.sessions.erase id }

variable {commands}

theorem contains_attachSession (id other : SessionId) :
    (commands.attachSession id).contains other =
      (decide (other = id) || commands.contains other) := by
  unfold attachSession
  split_ifs with hctn
  · by_cases hoth : other = id
    · simpa [hoth, contains] using hctn
    · simp [hoth]
  · simp only [contains, Table.contains, Table.get?_insert]
    split_ifs with hoth <;> simp [hoth]

theorem contains_complete (id : SessionId) (requestId : Bytes) (result : Output)
    (other : SessionId) :
    (commands.complete id requestId result).2.contains other = commands.contains other := by
  unfold complete
  cases hget : commands.sessions.get? id with
  | none => rfl
  | some log =>
    split_ifs
    · rfl
    · have hlog : log.id = id := Table.key_of_get? hget
      have hid : (log.complete commands.maximumCompletedPerSession requestId result).id = id := hlog
      simp only [contains, Table.contains, Table.get?_insert, hid]
      split_ifs with hoth
      · simp [hoth, hget]
      · rfl

variable {id other : SessionId} {requestId : Bytes} {cached : Output}

theorem replay_of_complete {asked : Bytes} {result : Output}
    (h : (commands.complete id requestId result).2.replay other asked = some cached) :
    commands.replay other asked = some cached ∨
      (requestId.isEmpty = false ∧ asked = requestId ∧ cached = result) := by
  unfold complete at h
  cases hget : commands.sessions.get? id with
  | none =>
    rw [hget] at h
    exact .inl h
  | some log =>
    rw [hget] at h
    split_ifs at h with hemp
    · exact .inl h
    · have hlog : log.id = id := Table.key_of_get? hget
      have hid : (log.complete commands.maximumCompletedPerSession requestId result).id = id := hlog
      simp only [replay, Table.get?_insert, hid] at h ⊢
      split_ifs at h with hoth
      · rcases SessionLog.find?_of_complete h with hbef | ⟨hask, hcached⟩
        · exact .inl (by rw [hoth, hget]; exact hbef)
        · exact .inr ⟨by simpa using hemp, hask, hcached⟩
      · exact .inl h

theorem replay_of_attachSession
    (h : (commands.attachSession id).replay other requestId = some cached) :
    commands.replay other requestId = some cached := by
  unfold attachSession at h
  split_ifs at h with hctn
  · exact h
  · simp only [replay, Table.get?_insert] at h
    split_ifs at h
    · simp at h
    · exact h

theorem replay_of_removeSession
    (h : (commands.removeSession id).replay other requestId = some cached) :
    commands.replay other requestId = some cached := by
  simp only [replay, removeSession, Table.get?_erase] at h
  split_ifs at h
  · simp at h
  · exact h

theorem contains_removeSession (id other : SessionId) :
    (commands.removeSession id).contains other =
      (!decide (other = id) && commands.contains other) := by
  simp only [contains, Table.contains, removeSession, Table.get?_erase]
  split_ifs with hoth <;> simp [hoth]

end ReliableCommands

end MumbleRuntime.Controller
