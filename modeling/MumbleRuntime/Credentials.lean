import Mathlib.Data.List.Nodup
import MumbleRuntime.Library.Index
import MumbleRuntime.Sessions

/-!
# Session credentials over whole histories

The resume tokens index the live sessions, and no two live sessions share a session
token. A resumption replaces the session token of the session it resumes, so the
token it replaced authorises nothing until somebody brings it again.
-/

namespace MumbleRuntime.Controller

open Library Option List

inductive SessionCall
  | openSession (request : OpenRequest)
  | authorize (id : SessionId) (sessionToken : Bytes)
  | renew (id : SessionId) (sessionToken : Bytes) (desiredRevision : Nat) (now : Time)
  | advanceDesiredRevision (id : SessionId)
  | setDesiredRevision (id : SessionId) (desiredRevision : Nat)
  | markResyncRequired (id : SessionId)
  | refreshLease (id : SessionId) (now : Time)
  | remove (id : SessionId)

inductive SessionReply
  | opened (result : Except SessionError SessionOpened)
  | authorized (answer : Bool)
  | renewed (result : Except SessionError RenewOutcome)
  | done

def SessionReply.refused : SessionReply → Bool
  | .opened (.error _) | .renewed (.error _) => true
  | _ => false

def SessionCall.brings : SessionCall → Option Bytes
  | .openSession request => some request.credentials.sessionToken
  | _ => none

variable {session : Session} {request : OpenRequest} {ready : SessionOpened}

namespace SessionRegistry

def call (registry : SessionRegistry) : SessionCall → SessionReply × SessionRegistry
  | .openSession request => (registry.openSession request).map .opened id
  | .authorize id sessionToken => (.authorized (registry.authorize id sessionToken), registry)
  | .renew id sessionToken desiredRevision now =>
    (registry.renew id sessionToken desiredRevision now).map .renewed (fun registry => registry)
  | .advanceDesiredRevision id => (.done, registry.advanceDesiredRevision id)
  | .setDesiredRevision id desiredRevision => (.done, registry.setDesiredRevision id desiredRevision)
  | .markResyncRequired id => (.done, registry.markResyncRequired id)
  | .refreshLease id now => (.done, registry.refreshLease id now)
  | .remove id => (.done, registry.remove id)

def after (registry : SessionRegistry) (calls : List SessionCall) : SessionRegistry :=
  calls.foldl (fun registry call => (registry.call call).2) registry

def creation (registry : SessionRegistry) : SessionCall → Option SessionId
  | .openSession request =>
    match (registry.openSession request).1 with
    | .ok ready => if ready.resumed then none else some ready.sessionId
    | .error _ => none
  | _ => none

def creations (registry : SessionRegistry) : List SessionCall → List SessionId
  | [] => []
  | call :: rest => (registry.creation call).toList ++ (registry.call call).2.creations rest

structure Sealed (registry : SessionRegistry) : Prop where
  indexed : Indexes registry.resumeTokens.find? fun id =>
    (registry.sessions.get? id).map Session.resumeToken
  distinct : ∀ session ∈ registry.sessions.rows, ∀ other ∈ registry.sessions.rows,
    session.sessionToken = other.sessionToken → session = other
  within : registry.sessions.rows.length ≤ registry.maximumSessions
  numbered : ∀ id, registry.contains id = true → id < registry.nextSessionId

/-- A live session is written over by one with the same id and resume token, under its own session
token or one that is not in use. -/
inductive Rewritten (registry : SessionRegistry) : SessionRegistry → Prop
  | kept : Rewritten registry registry
  | put {former session : Session} (hget : registry.sessions.get? session.id = some former)
      (hresume : session.resumeToken = former.resumeToken)
      (htoken : session.sessionToken = former.sessionToken ∨
        registry.sessionTokenExists session.sessionToken = false) :
      Rewritten registry (registry.put session)

variable {registry registry' : SessionRegistry}

theorem Rewritten.modify (id : SessionId) {change : Session → Session}
    (hid : ∀ session, (change session).id = session.id)
    (hresume : ∀ session, (change session).resumeToken = session.resumeToken)
    (htoken : ∀ session, (change session).sessionToken = session.sessionToken) :
    Rewritten registry (registry.modify id change) := by
  unfold SessionRegistry.modify
  cases hget : registry.sessions.get? id with
  | none => exact .kept
  | some session =>
    have hkey : (change session).id = id := (hid session).trans (Table.key_of_get? hget)
    exact .put (hkey.symm ▸ hget) (hresume session) (.inl (htoken session))

theorem renew_rewritten (id : SessionId) (sessionToken : Bytes) (desiredRevision : Nat)
    (now : Time) :
    Rewritten registry (registry.renew id sessionToken desiredRevision now).2 := by
  unfold renew
  split_ifs
  · exact .kept
  cases hget : registry.sessions.get? id with
  | none => exact .kept
  | some session =>
    have hself : registry.sessions.get? session.id = some session :=
      (congrArg _ (Table.key_of_get? hget)).trans hget
    exact .put hself rfl (.inl rfl)

theorem ne_of_sessionTokenExists {token : Bytes} (h : registry.sessionTokenExists token = false)
    (hmem : session ∈ registry.sessions.rows) : session.sessionToken ≠ token := by
  have hnone := any_eq_false.mp h session hmem
  simpa using hnone

/-- What a resumption did: the session the token names, for the controller that opened it and before
it expired, has a new session token and a new lease. -/
structure Resumed (registry : SessionRegistry) (request : OpenRequest) (ready : SessionOpened)
    (session : Session) (registry' : SessionRegistry) : Prop where
  get_eq : registry.sessions.get? ready.sessionId = some session
  controllerId_eq : session.controllerId = request.controllerId
  controllerInstanceId_eq : session.controllerInstanceId = request.controllerInstanceId
  profile_eq : session.profile = request.profile
  unexpired : request.now < session.expiresAt
  named : registry.resumeTokens.find? request.resumeToken = some ready.sessionId
  resumeToken_eq : ready.resumeToken = session.resumeToken
  sessionToken_eq : ready.sessionToken = request.credentials.sessionToken
  unused : registry.sessionTokenExists request.credentials.sessionToken = false
  registry_eq : registry' = registry.put { session with
    sessionToken := request.credentials.sessionToken
    expiresAt := request.now + registry.leaseDuration }

structure Created (registry : SessionRegistry) (request : OpenRequest) (ready : SessionOpened)
    (registry' : SessionRegistry) : Prop where
  sessionId_eq : ready.sessionId = registry.nextSessionId
  room : registry.sessions.rows.length < registry.maximumSessions
  resumeToken_unused : registry.resumeTokens.find? request.credentials.resumeToken = none
  sessionToken_unused : registry.sessionTokenExists request.credentials.sessionToken = false
  registry_eq : registry' = { registry with
    sessions := registry.sessions.insert
      { id := registry.nextSessionId
        controllerId := request.controllerId
        controllerInstanceId := request.controllerInstanceId
        sessionToken := request.credentials.sessionToken
        resumeToken := request.credentials.resumeToken
        profile := request.profile
        expiresAt := request.now + registry.leaseDuration
        desiredRevision := 0
        needsResync := false }
    resumeTokens := registry.resumeTokens.set request.credentials.resumeToken
      registry.nextSessionId
    nextSessionId := registry.nextSessionId + 1 }

inductive OpenEnd (registry : SessionRegistry) (request : OpenRequest) :
    Except SessionError SessionOpened × SessionRegistry → Prop
  | refused (error : SessionError) : OpenEnd registry request (.error error, registry)
  | resumed (ready : SessionOpened) (session : Session) {registry' : SessionRegistry}
      (hflag : ready.resumed = true) (h : Resumed registry request ready session registry') :
      OpenEnd registry request (.ok ready, registry')
  | created (ready : SessionOpened) {registry' : SessionRegistry} (hflag : ready.resumed = false)
      (h : Created registry request ready registry') : OpenEnd registry request (.ok ready, registry')

theorem create_end (request : OpenRequest) : OpenEnd registry request
    (registry.create request) := by
  unfold create
  split_ifs with hlimit hcollision hids
  · exact .refused _
  · exact .refused _
  · exact .refused _
  · rw [Bool.or_eq_true, not_or] at hcollision
    refine .created _ rfl ⟨rfl, not_le.mp hlimit, ?_, by simpa using hcollision.2, rfl⟩
    have hnone := Table.contains_eq_false_iff.mp (by simpa using hcollision.1)
    rw [OrderedMap.find?, hnone]
    rfl

theorem openSession_end (request : OpenRequest) :
    OpenEnd registry request (registry.openSession request) := by
  unfold openSession
  split_ifs
  · exact .refused _
  cases hresumable : registry.resumable request with
  | none => exact create_end request
  | some id =>
    obtain ⟨hnamed, hany⟩ := filter_eq_some_iff.mp hresumable
    cases hget : registry.sessions.get? id with
    | none => simp [hget] at hany
    | some session =>
      simp only [resume, hget]
      split_ifs with hcollision
      · exact .refused _
      · simp only [hget, any_some, Bool.and_eq_true, decide_eq_true_eq] at hany
        obtain ⟨⟨⟨hcontroller, hinstance⟩, hprofile⟩, hunexpired⟩ := hany
        exact .resumed _ session rfl ⟨hget, hcontroller, hinstance, hprofile, hunexpired, hnamed, rfl,
          rfl, by simpa using hcollision, rfl⟩

theorem Resumed.rewritten
    (h : Resumed registry request ready session registry') : Rewritten registry registry' := by
  have hself : registry.sessions.get? session.id = some session :=
    (congrArg _ (Table.key_of_get? h.get_eq)).trans h.get_eq
  rw [h.registry_eq]
  exact .put hself rfl (.inr h.unused)

inductive Called (registry : SessionRegistry) : SessionRegistry → Prop
  | rewritten {registry' : SessionRegistry} (h : Rewritten registry registry') :
      Called registry registry'
  | created {request : OpenRequest} {ready : SessionOpened} {registry' : SessionRegistry}
      (h : Created registry request ready registry') : Called registry registry'
  | removed (id : SessionId) : Called registry (registry.remove id)

theorem call_called (call : SessionCall) : Called registry (registry.call call).2 := by
  cases call with
  | openSession request =>
    have hend : OpenEnd registry request (registry.openSession request) := openSession_end request
    simp only [SessionRegistry.call, Prod.map_snd]
    generalize registry.openSession request = result at hend
    cases hend with
    | refused error => exact .rewritten .kept
    | resumed ready session hflag h => exact .rewritten h.rewritten
    | created ready hflag h => exact .created h
  | authorize id sessionToken => exact .rewritten .kept
  | renew id sessionToken desiredRevision now =>
    exact .rewritten (renew_rewritten id sessionToken desiredRevision now)
  | advanceDesiredRevision id
  | setDesiredRevision id desiredRevision
  | markResyncRequired id
  | refreshLease id now =>
    exact .rewritten (.modify id (fun _ => rfl) (fun _ => rfl) fun _ => rfl)
  | remove id => exact .removed id

namespace Sealed

theorem start (maximumSessions : Nat) (leaseDuration : Time) :
    Sealed (new maximumSessions leaseDuration) where
  indexed token id := by simp [new]
  distinct _ hmem := absurd hmem not_mem_nil
  within := Nat.zero_le _
  numbered _ hctn := by cases hctn

theorem rewritten (h : Sealed registry) (hrewritten : Rewritten registry registry') :
    Sealed registry' := by
  cases hrewritten with
  | kept => exact h
  | @put former session hget hresume htoken =>
    have hlive : registry.contains session.id = true := by
      simp [SessionRegistry.contains, Table.contains, hget]
    have hformer : former ∈ registry.sessions.rows := Table.mem_of_get? hget
    have hown : ∀ other ∈ registry.sessions.rows, other.sessionToken = session.sessionToken →
        other = former := by
      intro other hoth heq
      rcases htoken with hsame | hunused
      · exact h.distinct other hoth former hformer (heq.trans hsame)
      · exact absurd heq (ne_of_sessionTokenExists hunused hoth)
    refine ⟨fun token id => ?_, fun first hfst second hsec heq => ?_, ?_, fun id hid => ?_⟩
    · refine (h.indexed token id).trans ?_
      dsimp only [SessionRegistry.put]
      rw [Table.get?_insert]
      split_ifs with hid
      · rw [hid, hget, map_some, map_some, hresume]
      · rfl
    · rcases Table.mem_insert_cases hfst with rfl | ⟨hold, hne⟩ <;>
        rcases Table.mem_insert_cases hsec with rfl | ⟨hold', hne'⟩
      · rfl
      · exact absurd (congrArg Session.id (hown second hold' heq.symm))
          (fun hid => hne' (hid.trans (Table.key_of_get? hget)))
      · exact absurd (congrArg Session.id (hown first hold heq))
          (fun hid => hne (hid.trans (Table.key_of_get? hget)))
      · exact h.distinct first hold second hold' heq
    · exact (Table.length_insert_of_get? hget).trans_le h.within
    · exact h.numbered id (((Continues.put hlive).contains_eq id).symm.trans hid)

theorem created (h : Sealed registry)
    (hcre : Created registry request ready registry') : Sealed registry' := by
  have hnew : registry.sessions.get? registry.nextSessionId = none := by
    rw [← Table.contains_eq_false_iff, Bool.eq_false_iff]
    exact fun hctn => absurd (h.numbered _ hctn) (lt_irrefl _)
  have hindexed := h.indexed.assign (k := request.credentials.resumeToken)
    (i := registry.nextSessionId) fun j hj => by simp [hcre.resumeToken_unused] at hj
  rw [hcre.registry_eq]
  refine ⟨fun token id => ?_, fun first hfst second hsec heq => ?_, ?_, fun id hid => ?_⟩
  · have hpair := hindexed token id
    simp only [hnew, map_none, reduceCtorEq, if_false] at hpair
    dsimp only
    rw [OrderedMap.find?_set, Table.get?_insert]
    by_cases htoken : token = request.credentials.resumeToken <;>
      by_cases hid : id = registry.nextSessionId <;>
      simp only [htoken, hid, if_true, if_false, map_some] at hpair ⊢ <;> exact hpair
  · rcases Table.mem_insert_cases hfst with rfl | ⟨hold, -⟩ <;>
      rcases Table.mem_insert_cases hsec with rfl | ⟨hold', -⟩
    · rfl
    · exact absurd heq.symm (ne_of_sessionTokenExists hcre.sessionToken_unused hold')
    · exact absurd heq (ne_of_sessionTokenExists hcre.sessionToken_unused hold)
    · exact h.distinct first hold second hold' heq
  · have hroom := hcre.room
    rw [Table.length_insert_of_none hnew]
    exact hroom
  · simp only [SessionRegistry.contains, Table.contains, Table.get?_insert] at hid
    split_ifs at hid with hsame
    · exact hsame.trans_lt (Nat.lt_succ_self _)
    · exact (h.numbered id hid).trans (Nat.lt_succ_self _)

theorem remove (h : Sealed registry) (id : SessionId) : Sealed (registry.remove id) := by
  have hnumbered : ∀ other, (registry.remove id).contains other = true →
      other < (registry.remove id).nextSessionId := by
    intro other hoth
    rw [contains_remove, Bool.and_eq_true] at hoth
    rw [nextSessionId_remove]
    exact h.numbered other hoth.2
  unfold SessionRegistry.remove at hnumbered ⊢
  cases hget : registry.sessions.get? id with
  | none => exact h
  | some session =>
    rw [hget] at hnumbered
    have hindexed := h.indexed.clear id
    refine ⟨fun token other => ?_, fun first hfst second hsec heq => ?_, ?_, hnumbered⟩
    · have hpair := hindexed token other
      simp only [hget, map_some, some.injEq, eq_comm (a := session.resumeToken)] at hpair
      dsimp only
      rw [OrderedMap.find?_erase, Table.get?_erase]
      by_cases htoken : token = session.resumeToken <;> by_cases hoth : other = id <;>
        simp only [htoken, hoth, if_true, if_false, map_none] at hpair ⊢ <;> exact hpair
    · exact h.distinct first (mem_filter.mp hfst).1 second (mem_filter.mp hsec).1 heq
    · exact (length_filter_le _ _).trans h.within

theorem called (h : Sealed registry) (hcalled : Called registry registry') : Sealed registry' := by
  cases hcalled with
  | rewritten hrewritten => exact h.rewritten hrewritten
  | created hcre => exact h.created hcre
  | removed id => exact h.remove id

end Sealed

theorem Sealed.after (h : Sealed registry) (calls : List SessionCall) :
    Sealed (registry.after calls) := by
  induction calls generalizing registry with
  | nil => exact h
  | cons call rest ih => exact ih (h.called (call_called call))

theorem Rewritten.bounds (h : Rewritten registry registry') :
    registry'.maximumSessions = registry.maximumSessions ∧
      registry'.nextSessionId = registry.nextSessionId := by
  cases h <;> exact ⟨rfl, rfl⟩

theorem Called.maximumSessions_eq (h : Called registry registry') :
    registry'.maximumSessions = registry.maximumSessions := by
  cases h with
  | rewritten hrewritten => exact hrewritten.bounds.1
  | created hcre => rw [hcre.registry_eq]
  | removed id =>
    unfold SessionRegistry.remove
    cases registry.sessions.get? id <;> rfl

theorem after_maximumSessions (calls : List SessionCall) :
    (registry.after calls).maximumSessions = registry.maximumSessions := by
  induction calls generalizing registry with
  | nil => rfl
  | cons call rest ih => exact ih.trans (call_called call).maximumSessions_eq

theorem creation_cases (call : SessionCall) :
    registry.creation call = none ∧ (registry.call call).2.nextSessionId = registry.nextSessionId ∨
      registry.creation call = some registry.nextSessionId ∧
        (registry.call call).2.nextSessionId = registry.nextSessionId + 1 := by
  have hmodify : ∀ id change, (registry.modify id change).nextSessionId = registry.nextSessionId := by
    intro id change
    unfold SessionRegistry.modify
    cases registry.sessions.get? id <;> rfl
  cases call with
  | openSession request =>
    have hend : OpenEnd registry request (registry.openSession request) := openSession_end request
    simp only [SessionRegistry.creation, SessionRegistry.call, Prod.map_snd]
    generalize registry.openSession request = result at hend
    cases hend with
    | refused error => exact .inl ⟨rfl, rfl⟩
    | resumed ready session hflag h =>
      refine .inl ⟨by simp [hflag], h.rewritten.bounds.2⟩
    | created ready hflag h =>
      refine .inr ⟨by simp [hflag, h.sessionId_eq], ?_⟩
      rw [h.registry_eq]
      rfl
  | authorize id sessionToken => exact .inl ⟨rfl, rfl⟩
  | renew id sessionToken desiredRevision now =>
    exact .inl ⟨rfl, (renew_rewritten id sessionToken desiredRevision now).bounds.2⟩
  | remove id => exact .inl ⟨rfl, nextSessionId_remove id⟩
  | _ => exact .inl ⟨rfl, hmodify _ _⟩

theorem creations_increase (calls : List SessionCall) :
    (registry.creations calls).Pairwise (· < ·) ∧
      ∀ id ∈ registry.creations calls, registry.nextSessionId ≤ id := by
  induction calls generalizing registry with
  | nil => exact ⟨.nil, fun _ hmem => absurd hmem not_mem_nil⟩
  | cons call rest ih =>
    obtain ⟨hsorted, hlat⟩ : ((registry.call call).2.creations rest).Pairwise (· < ·) ∧
        ∀ id ∈ (registry.call call).2.creations rest, (registry.call call).2.nextSessionId ≤ id := ih
    rw [creations]
    rcases registry.creation_cases call with ⟨hnone, hnext⟩ | ⟨hsome, hnext⟩
    · rw [hnone]
      exact ⟨hsorted, fun id hmem => hnext.symm.trans_le (hlat id hmem)⟩
    · rw [hsome]
      have haft : ∀ id ∈ (registry.call call).2.creations rest, registry.nextSessionId < id :=
        fun id hmem => hnext.symm.trans_le (hlat id hmem)
      refine ⟨pairwise_cons.mpr ⟨haft, hsorted⟩, fun id hmem => ?_⟩
      rcases mem_cons.mp hmem with rfl | hmem
      · exact le_rfl
      · exact (haft id hmem).le

def Untaken (registry : SessionRegistry) (token : Bytes) : Prop :=
  ∀ session ∈ registry.sessions.rows, session.sessionToken ≠ token

namespace Untaken

variable {token : Bytes}

section

variable (h : Untaken registry token)

include h

theorem put (hne : session.sessionToken ≠ token) : Untaken (registry.put session) token := by
  intro other hoth
  rcases Table.mem_insert_cases hoth with rfl | ⟨hoth, -⟩
  · exact hne
  · exact h other hoth

theorem modify (id : SessionId) {change : Session → Session}
    (htoken : ∀ session, (change session).sessionToken = session.sessionToken) :
    Untaken (registry.modify id change) token := by
  unfold SessionRegistry.modify
  cases hget : registry.sessions.get? id with
  | none => exact h
  | some session => exact h.put ((htoken session).trans_ne (h session (Table.mem_of_get? hget)))

theorem call {call : SessionCall} (hbrings : call.brings ≠ some token) :
    Untaken (registry.call call).2 token := by
  cases call with
  | openSession request =>
    have hne : request.credentials.sessionToken ≠ token := fun heq => hbrings (congrArg some heq)
    have hend : OpenEnd registry request (registry.openSession request) := openSession_end request
    simp only [SessionRegistry.call, Prod.map_snd]
    generalize registry.openSession request = result at hend
    cases hend with
    | refused error => exact h
    | resumed ready session hflag hresumed =>
      rw [hresumed.registry_eq]
      exact h.put hne
    | created ready hflag hcre =>
      rw [hcre.registry_eq]
      intro other hoth
      rcases Table.mem_insert_cases hoth with rfl | ⟨hoth, -⟩
      · exact hne
      · exact h other hoth
  | authorize id sessionToken => exact h
  | renew id sessionToken desiredRevision now =>
    simp only [SessionRegistry.call, renew, Prod.map_snd]
    split_ifs
    · exact h
    cases hget : registry.sessions.get? id with
    | none => exact h
    | some session =>
      have hne := h session (Table.mem_of_get? hget)
      exact h.put hne
  | advanceDesiredRevision id
  | setDesiredRevision id desiredRevision
  | markResyncRequired id
  | refreshLease id now => exact h.modify id fun _ => rfl
  | remove id =>
    simp only [SessionRegistry.call, SessionRegistry.remove]
    cases registry.sessions.get? id with
    | none => exact h
    | some session => exact fun other hoth => h other (mem_filter.mp hoth).1

theorem after {calls : List SessionCall}
    (hbrings : ∀ call ∈ calls, call.brings ≠ some token) : Untaken
    (registry.after calls) token := by
  induction calls generalizing registry with
  | nil => exact h
  | cons call rest ih =>
    exact ih (h.call (hbrings call mem_cons_self))
      fun later hmem => hbrings later (mem_cons_of_mem _ hmem)

theorem authorize_eq_false (id : SessionId) : registry.authorize id token = false := by
  unfold SessionRegistry.authorize
  cases hget : registry.sessions.get? id with
  | none => rfl
  | some session => simpa using h session (Table.mem_of_get? hget)

end

end Untaken

theorem Resumed.untaken
    (h : Resumed registry request ready session registry') (hsealed : Sealed registry) :
    Untaken registry' session.sessionToken := by
  have hses : session ∈ registry.sessions.rows := Table.mem_of_get? h.get_eq
  rw [h.registry_eq]
  intro other hoth
  rcases Table.mem_insert_cases hoth with rfl | ⟨hoth, hne⟩
  · exact (ne_of_sessionTokenExists h.unused hses).symm
  · intro heq
    have hsame := hsealed.distinct other hoth session hses heq
    have hid : other.id = session.id := congrArg Session.id hsame
    exact hne hid

theorem call_refused {call : SessionCall} (h : (registry.call call).1.refused = true) :
    (registry.call call).2 = registry := by
  cases call with
  | openSession request =>
    have hend : OpenEnd registry request (registry.openSession request) := openSession_end request
    simp only [SessionRegistry.call, Prod.map_fst, Prod.map_snd] at h ⊢
    generalize registry.openSession request = result at hend h
    cases hend with
    | refused error => rfl
    | resumed ready session hflag hresumed => cases h
    | created ready hflag hcre => cases h
  | renew id sessionToken desiredRevision now =>
    simp only [SessionRegistry.call, renew, Prod.map_fst, Prod.map_snd] at h ⊢
    split_ifs at h ⊢
    · rfl
    · cases hget : registry.sessions.get? id with
      | none => rfl
      | some session =>
        rw [hget] at h
        cases h
  | _ => cases h

end SessionRegistry

open SessionRegistry in
/-- What holds of the sessions after any calls. The token a resumption replaced authorises nothing
in any later state, until an open brings it again. -/
theorem session_credentials (maximumSessions : Nat) (leaseDuration : Time)
    (calls : List SessionCall) :
    let start := SessionRegistry.new maximumSessions leaseDuration
    let registry := start.after calls
    (∀ token id, registry.resumeTokens.find? token = some id ↔
      ∃ session, registry.sessions.get? id = some session ∧ session.resumeToken = token) ∧
    (∀ session ∈ registry.sessions.rows, ∀ other ∈ registry.sessions.rows,
      session.sessionToken = other.sessionToken → session = other) ∧
    registry.sessions.rows.length ≤ maximumSessions ∧
    (start.creations calls).Nodup ∧
    (∀ request ready registry', registry.openSession request = (.ok ready, registry') →
      ready.resumed = true → ∃ session, Resumed registry request ready session registry' ∧
        ∀ later, (∀ call ∈ later, call.brings ≠ some session.sessionToken) →
          ∀ id, (registry'.after later).authorize id session.sessionToken = false) ∧
    ∀ call, (registry.call call).1.refused = true → (registry.call call).2 = registry := by
  intro start registry
  have hsealed : Sealed registry := (Sealed.start maximumSessions leaseDuration).after calls
  refine ⟨fun token id => ?_, hsealed.distinct, ?_, ?_, ?_, fun call hrefused => call_refused hrefused⟩
  · exact (hsealed.indexed token id).trans Option.map_eq_some_iff
  · exact hsealed.within.trans_eq (after_maximumSessions calls)
  · exact (creations_increase calls).1.imp fun hlt => hlt.ne
  · intro request ready registry' hopen hflag
    have hend : OpenEnd registry request (registry.openSession request) := openSession_end request
    rw [hopen] at hend
    cases hend with
    | resumed _ session _ hresumed =>
      refine ⟨session, hresumed, fun later hlat id => ?_⟩
      exact ((hresumed.untaken hsealed).after hlat).authorize_eq_false id
    | created _ hcre _ =>
      rw [hflag] at hcre
      cases hcre

def sampleProfile : ProfileRef := ⟨"spaces", 1, "digest", by decide⟩

/-- An open by one controller, under the resume token and with the secrets given. -/
def sampleOpen (resumeToken : Bytes) (sessionToken newResumeToken : UInt8) : SessionCall :=
  .openSession ⟨"game", [9], resumeToken, sampleProfile,
    ⟨[sessionToken], [newResumeToken], by simp⟩, 0⟩

def rotated : List SessionCall := [sampleOpen [] 1 11, sampleOpen [11] 2 12]

theorem session_credentials_rotated :
    ((SessionRegistry.new 4 30).after rotated).resumeTokens.find? [11] = some 1 ∧
    ∃ session, ((SessionRegistry.new 4 30).after rotated).sessions.get? 1 = some session ∧
      session.resumeToken = [11] := by
  have hfind : ((SessionRegistry.new 4 30).after rotated).resumeTokens.find? [11] = some 1 := by
    decide +kernel
  exact ⟨hfind, ((session_credentials 4 30 rotated).1 [11] 1).mp hfind⟩

/-- Another open brings the token that was replaced, and it authorises again. -/
theorem replaced_token_brought_again :
    ((SessionRegistry.new 4 30).after rotated).authorize 1 [1] = false ∧
    ((SessionRegistry.new 4 30).after (rotated ++ [sampleOpen [] 1 13])).authorize 2
    [1] = true := by
  decide +kernel

end MumbleRuntime.Controller
