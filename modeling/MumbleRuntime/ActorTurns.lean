import MumbleRuntime.Handlers

/-!
# Whole turns of the actor

Every command is a sequence of passages: dealings, and the ends of sessions whose
entities were released before. Registries that agree before a command agree after it.
-/

namespace MumbleRuntime.SpacesServer

open Library Controller Spaces ControllerActor Dealings SessionCredentials

namespace Turn

variable {warrant : Warrant} (turn : Turn) (sessionId : SessionId)

variable (hcoh : Coherent turn.actor)

include hcoh in
theorem release_get {id : String} {state : OwnershipState}
    (hget : turn.actor.ownership.get id = some state) (reason : OwnershipRevocationReason)
    (requestId : Option Bytes) (other : String) :
    (turn.release state.owner id state.registrationId state.fencingToken reason
      requestId).actor.ownership.get other =
      if other = id then none else turn.actor.ownership.get other := by
  obtain ⟨participant, hpart⟩ := hcoh.participant_of_get hget
  simp only [release, hpart, OwnershipRegistry.release, hget, ne_eq, not_true_eq_false,
    or_self, if_false]
  rw [sendRevocation, (sendSession_same _ _ _).ownership, (refreshSpace_republished _ _).ownership, revoke_actor]
  exact Table.get?_erase _ _ _

include hcoh in
theorem releaseAll_get (ids : List String) (reason : OwnershipRevocationReason)
    (hown : ∀ id ∈ ids, ∀ state, turn.actor.ownership.get id = some state →
      state.owner = sessionId) (other : String) :
    (turn.releaseAll sessionId ids reason).actor.ownership.get other =
      if other ∈ ids then none else turn.actor.ownership.get other := by
  induction ids generalizing turn with
  | nil => simp [releaseAll]
  | cons id rest ih =>
    have hrest : ∀ turn' : Turn, Coherent turn'.actor →
        (∀ other, turn'.actor.ownership.get other =
          if other = id then none else turn.actor.ownership.get other) →
        (turn'.releaseAll sessionId rest reason).actor.ownership.get other =
          if other ∈ id :: rest then none else turn.actor.ownership.get other := by
      intro turn' hcoh' hget
      rw [ih turn' hcoh' fun other hoth state hst => ?_]
      · rw [hget]
        by_cases hoth : other = id <;> simp [hoth]
      · rw [hget] at hst
        split_ifs at hst
        exact hown other (List.mem_cons_of_mem _ hoth) state hst
    cases hget : turn.actor.ownership.get id with
    | none =>
      have hnone : ∀ other, turn.actor.ownership.get other =
          if other = id then none else turn.actor.ownership.get other := by
        intro other
        split_ifs with hoth
        · rw [hoth, hget]
        · rfl
      have hfold := hrest turn hcoh hnone
      rw [← hfold]
      simp only [releaseAll, List.foldl_cons, hget]
    | some state =>
      have howr := hown id List.mem_cons_self state hget
      subst howr
      have hdealings : Dealings Licence.any.warrant turn (turn.release state.owner id
          state.registrationId state.fencingToken reason none) :=
        turn.release_deals state.owner hcoh id trivial _ _ _ _
      have hfold := hrest _ (hdealings.coherent hcoh) (turn.release_get hcoh hget reason none)
      rw [← hfold]
      simp only [releaseAll, List.foldl_cons, hget]

include hcoh in
theorem removeSession_passes (hrel : ∀ id, warrant.releases id)
    (reason : OwnershipRevocationReason) :
    Passages warrant turn (turn.removeSession sessionId reason) := by
  have hreleased : Dealings warrant turn (turn.releaseAll sessionId
      (turn.actor.ownership.ownedEntities sessionId) reason) :=
    turn.releaseAll_deals sessionId hcoh _ (fun id _ => hrel id) reason
  refine (Passages.of_dealings hreleased).append (.single (.ended _ ?_))
  rw [List.eq_nil_iff_forall_not_mem]
  intro id hid
  obtain ⟨state, hst, howr⟩ := OwnershipRegistry.mem_ownedEntities.mp hid
  rw [turn.releaseAll_get sessionId hcoh _ reason fun id hid state hst => ?_] at hst
  · split_ifs at hst with hmem
    exact hmem (OwnershipRegistry.mem_ownedEntities.mpr ⟨state, hst, howr⟩)
  · obtain ⟨state', hst', howr'⟩ := OwnershipRegistry.mem_ownedEntities.mp hid
    rw [hst] at hst'
    cases hst'
    exact howr'

theorem authorizing_does {command : Turn → Turn} (requestId token : Bytes)
    (hcmd : turn.actor.authorized sessionId token = true →
      Does warrant sessionId turn (command turn)) :
    Does warrant sessionId turn (turn.authorizing sessionId requestId token command) := by
  unfold authorizing
  split_ifs with hauth
  · exact hcmd hauth
  · exact .of_asides (rejectSession_asides _ _ _ _ (by decide))

include hcoh in
theorem live_of_stream {stream : StreamId}
    (hstream : turn.actor.streams.find? stream = some sessionId) :
    turn.actor.coreSessions.contains sessionId = true := by
  obtain ⟨session, hget, -⟩ :=
    Option.bind_eq_some_iff.mp ((hcoh.sessions.streams stream sessionId).mp hstream)
  rw [← hcoh.sessions.hosted]
  exact Table.contains_iff.mpr ⟨session, hget⟩

/-- The registrations a payload processes that resume under a newer revision name Spaces that
exist. -/
def payloadHomed (requestId : Bytes) : ClientPayload → Bool
  | .syncDesiredState token desiredState =>
    !turn.actor.authorized sessionId token ||
      (turn.actor.validateSnapshot desiredState).toOption.isNone ||
      turn.snapshotHomed sessionId desiredState requestId
  | .registerParticipant token participant =>
    !turn.actor.authorized sessionId token || participant.all fun registration =>
      (ControllerActor.validateRegistration registration).toOption.isNone ||
        (turn.advanceDesiredRevision sessionId).homes sessionId registration .explicit
  | _ => true

include hcoh in
theorem execute_passes (hlive : turn.actor.coreSessions.contains sessionId = true)
    (requestId : Bytes) (payload : ClientPayload) (hfree : warrant.Free)
    (hhome : warrant.roams ∨ turn.payloadHomed sessionId requestId payload = true) :
    Passages warrant turn (turn.execute sessionId requestId payload) := by
  have hdoes : ∀ (token : Bytes) {command : Turn → Turn},
      (turn.actor.authorized sessionId token = true → Does warrant sessionId turn (command turn)) →
      Passages warrant turn (turn.authorizing sessionId requestId token command) :=
    fun token _ hcmd =>
      .of_dealings (turn.authorizing_does sessionId requestId token hcmd hcoh hlive)
  unfold execute
  cases payload with
  | openSession command => exact .of_dealings (.nil turn)
  | renewLease token desiredStateRevision =>
    exact .of_asides (turn.renewLease_asides sessionId requestId token desiredStateRevision)
  | syncDesiredState token desiredState =>
    refine hdoes token fun hauth => ?_
    cases hvalid : turn.actor.validateSnapshot desiredState with
    | error message =>
      exact .of_asides (rejectSession_asides _ _ _ _ (validateSnapshot_clear hvalid))
    | ok _ =>
      refine turn.reconcileSnapshot_does sessionId desiredState requestId hfree
        (hhome.imp_right fun h => ?_)
      simpa [payloadHomed, hauth, hvalid, Except.toOption] using h
  | registerParticipant token participant =>
    refine hdoes token fun hauth => ?_
    cases participant with
    | none => exact .of_asides (rejectSession_asides _ _ _ _ (by decide))
    | some registration =>
      dsimp only
      cases hvalid : validateRegistration registration with
      | error message =>
        exact .of_asides (rejectSession_asides _ _ _ _ (validateRegistration_clear hvalid))
      | ok _ =>
        refine (Does.of_asides (turn.advanceDesiredRevision_asides sessionId)).trans
          (registerExplicit_does _ sessionId registration requestId (hfree.claims _)
            (hfree.revises _) (hhome.imp_right fun h => ?_))
        simpa [payloadHomed, hauth, hvalid, Except.toOption] using h
  | setParticipantSpec token participantId ownershipToken clientSpecRevision spec =>
    refine hdoes token fun hauth => ?_
    cases spec with
    | none => exact .of_asides (rejectSession_asides _ _ _ _ (by decide))
    | some spec =>
      dsimp only
      cases hdecode : decodeSpaceSpec spec with
      | error error =>
        exact .of_asides (rejectSession_asides _ _ _ _ (SpacesValidationError.message_clear error))
      | ok spec =>
        exact (Does.of_asides (turn.advanceDesiredRevision_asides sessionId)).trans
          (setSpec_does _ _ _ _ _ _ _ (hfree.revises _))
  | releaseParticipant token participantId registrationId ownershipToken =>
    refine hdoes token fun hauth => ?_
    refine (Does.of_asides (turn.advanceDesiredRevision_asides sessionId)).trans ?_
    intro hcoh' _
    exact release_deals _ sessionId hcoh' _ (hfree.releases _) _ _ _ _
  | replaceObservedSpaces token observedSpacesRevision spaceKeys =>
    refine hdoes token fun hauth => ?_
    exact .of_asides ((turn.advanceDesiredRevision_asides sessionId).append
      (replaceObservations_asides _ _ _ _ _))
  | fetchSpace token spaceKey =>
    refine hdoes token fun hauth => ?_
    refine .of_asides (.aside (.sent turn sessionId fun snapshot hsnap => ?_))
    cases hsp : turn.actor.spaceSnapshot spaceKey with
    | none =>
      rw [hsp] at hsnap
      cases hsnap
    | some current =>
      rw [hsp] at hsnap
      obtain rfl := Option.some.inj hsnap
      exact spaceSnapshot_honest hsp
  | closeSession token =>
    simp only [authorizing]
    split_ifs with hauth
    · have hsent : Asides turn (turn.sendSession sessionId
          ⟨requestId, .sessionClosing "session closed by controller"⟩) :=
        turn.sendSession_asides _ rfl
      exact (Passages.of_asides hsent).append (removeSession_passes _ sessionId
        (hsent.coherent hcoh) hfree.releases _)
    · exact .of_asides (rejectSession_asides _ _ _ _ (by decide))

def frameHomed (stream : StreamId) (frame : ClientFrame) : Bool :=
  match frame.payload, turn.actor.streams.find? stream with
  | some payload, some sessionId =>
    frame.requestId.isEmpty || (turn.actor.reliable.replay sessionId frame.requestId).isSome ||
      turn.payloadHomed sessionId frame.requestId payload
  | _, _ => true

include hcoh in
theorem frame_passes (stream : StreamId) (frame : ClientFrame) (hfree : warrant.Free)
    (hhome : warrant.roams ∨ turn.frameHomed stream frame = true) :
    Passages warrant turn (turn.frame stream frame) := by
  unfold Turn.frame
  split_ifs with hrequest
  · exact .of_asides (rejectStreamId_asides _ _ _ _ (by decide))
  cases hpayload : frame.payload with
  | none => exact .of_asides (rejectStreamId_asides _ _ _ _ (by decide))
  | some payload =>
    cases hstream : turn.actor.streams.find? stream with
    | none =>
      cases payload with
      | openSession command => exact .of_asides (rejectStreamId_asides _ _ _ _ (by decide))
      | _ => exact .of_dealings (.nil turn)
    | some sessionId =>
      have hlive := turn.live_of_stream sessionId hcoh hstream
      dsimp only
      cases hrpl : turn.actor.reliable.replay sessionId frame.requestId with
      | some cached =>
        cases payload with
        | openSession command => exact .of_asides (rejectStreamId_asides _ _ _ _ (by decide))
        | _ => exact .of_asides (.aside (.replayed turn hrpl))
      | none =>
        have hexecute : Passages warrant turn (turn.execute sessionId frame.requestId payload) := by
          refine turn.execute_passes sessionId hcoh hlive frame.requestId payload hfree
            (hhome.imp_right fun h => ?_)
          simpa [frameHomed, hpayload, hstream, hrequest, hrpl] using h
        cases payload with
        | openSession command => exact .of_asides (rejectStreamId_asides _ _ _ _ (by decide))
        | _ => exact hexecute

include hcoh in
theorem route_deals {connection : ConnectionId}
    (hseats : warrant.seats connection) (credential : Option String) :
    Dealings warrant turn (turn.route connection credential) := by
  unfold route
  cases credential with
  | none => exact .of_asides (routed_asides _ _ (by decide))
  | some credential =>
    dsimp only
    rcases hattach : turn.actor.host.bindings.attach credential connection with ⟨result, bindings⟩
    cases result with
    | ok attachment => exact .deal (.seated turn hseats hattach)
    | error error =>
      rcases (hcoh.entities.consistent.attach_error hattach).1 with rfl | rfl
      · exact .of_asides (routed_asides _ _ (by decide))
      · exact .of_asides (routed_asides _ _ (by decide))

theorem spaceEvent_deals (hdeparts : warrant.departs) (key : String) (event : SpaceEvent) :
    Dealings warrant turn (turn.spaceEvent key event) := by
  unfold spaceEvent SpacesState.applyParticipantEvent
  cases hbd : turn.actor.host.bindings.participant event.connection with
  | none => exact .nil turn
  | some participantId =>
    dsimp only
    cases hget : turn.actor.spacesState.participant participantId with
    | none => exact .of_asides (sendStatus_asides _ _)
    | some participant =>
      have hid : participant.participantId = participantId := Table.key_of_get? hget
      dsimp only
      split_ifs with hsp
      · exact .nil turn
      · cases event.kind with
        | connected => exact .of_asides (sendStatus_asides _ _)
        | disconnected =>
          rw [← not_ne_iff.mp hsp]
          exact append (.deal (.disconnected turn hdeparts hbd hget))
            (.of_asides (sendStatus_asides _ _))
        | selfState selfMute selfDeaf =>
          refine append (.deal (.muted turn selfMute selfDeaf (hid ▸ hget))) ?_
          exact (refreshSpace_deals _ _).append (.of_asides (sendStatus_asides _ _))

theorem reconciled_deals (hrpt : warrant.reports) (key : String) (applicationRevision : Nat)
    (report : Spaces.ReconcileReport) :
    Dealings warrant turn (turn.reconciled key applicationRevision report) := by
  unfold reconciled
  refine append (.of_asides (.aside (.timed turn
    (turn.actor.renderStarted.erase (toLex (key, applicationRevision)))))) ?_
  dsimp only
  cases hrcl : turn.actor.spacesState.reconcile key applicationRevision report with
  | none => exact .nil _
  | some reconciled =>
    refine append (.deal (.reported _ hrpt hrcl)) (.of_asides ?_)
    exact Asides.append (.foldl _ (fun turn participantId => turn.sendStatus_asides participantId) _)
      (broadcastSpaceSnapshot_asides _ _)

theorem closeSpace_deals (key : String) : Dealings warrant turn (turn.closeSpace key) := by
  unfold closeSpace
  split_ifs with hwanted
  · exact .nil turn
  · cases hget : turn.actor.spacesState.space key with
    | none => exact .nil turn
    | some space =>
      exact append (.deal (.closed turn hget (by simpa using hwanted)))
        (.of_asides (broadcastSpaceClosed_asides _ _ _))

include hcoh in
theorem expireDue_passes
    (hrel : ∀ id, warrant.releases id) : Passages warrant turn turn.expireDue := by
  refine Passages.append (.foldl_coherent (turn.actor.coreSessions.expiredSessions turn.moment.now)
    (fun turn sessionId hcoh => turn.removeSession_passes sessionId hcoh hrel
      .sessionExpired) hcoh) ?_
  exact .of_dealings (.foldl _ (fun turn key => turn.closeSpace_deals key) _)

inductive Checked (turn : Turn) : Option SessionOpened × Turn → Prop
  | refused {turn' : Turn} (hasides : Asides turn turn') : Checked turn (none, turn')
  | opened (ready : SessionOpened) {turn' : Turn} (hasides : Asides turn turn')
      (hlive : turn'.actor.coreSessions.contains ready.sessionId = true)
      (hstreams : turn'.actor.streams = turn.actor.streams) : Checked turn (some ready, turn')

include hcoh in
theorem enter_checked (stream : StreamId) (requestId : Bytes)
    (command : OpenSession) (profile : ProfileRef) (credentials : SessionCredentials) :
    Checked turn (turn.enter stream requestId command profile credentials) := by
  unfold enter
  generalize hrequest : OpenRequest.mk command.controllerId command.controllerInstanceId
    command.resumeToken profile credentials turn.moment.now = request
  have hopened : turn.actor.coreSessions.Opened (turn.actor.coreSessions.openSession request) :=
    SessionRegistry.openSession_opened request
  generalize turn.actor.coreSessions.openSession request = result at hopened ⊢
  cases hopened with
  | refused error hmissing =>
    cases error with
    | missingSession id => exact absurd rfl (hmissing id)
    | _ => exact .refused (rejectStream_asides _ _ _ _ (by decide))
  | resumed ready coreSessions hresumed hlive hcont =>
    have hcore : Asides turn (turn.setCore coreSessions) := .aside (.core turn hcont)
    have hhosted : turn.actor.sessions.contains ready.sessionId = true :=
      (hcoh.sessions.hosted _).trans hlive
    have hhosted' : (turn.setCore coreSessions).actor.sessions.contains ready.sessionId = true :=
      hhosted
    simp only [hresumed, hhosted', Bool.true_eq_false, if_false]
    exact .opened ready hcore ((hcont.contains_eq _).trans hlive) rfl
  | created ready coreSessions hresumed hid hnext hctn =>
    simp only [hresumed, if_true]
    refine .opened ready (.aside (.began turn hid hnext hctn)) ?_ rfl
    exact (hctn _).trans (by simp)

theorem Checked.drew {result : Option SessionOpened × Turn}
    (h : Checked { turn with drawn := turn.drawn + 1 } result) : Checked turn result := by
  cases h with
  | refused hasides => exact .refused (turn.drew_asides.append hasides)
  | opened ready hasides hlive hstreams => exact .opened ready (turn.drew_asides.append hasides) hlive hstreams

include hcoh in
theorem checkOpen_checked (stream : StreamId) (requestId : Bytes)
    (command : OpenSession) : Checked turn (turn.checkOpen stream requestId command) := by
  unfold checkOpen
  split_ifs with hidentity
  · exact .refused (rejectStream_asides _ _ _ _ (by decide))
  cases command.profile with
  | none => exact .refused (rejectStream_asides _ _ _ _ (by decide))
  | some requested =>
    dsimp only
    cases negotiate requested with
    | error error => exact .refused (rejectStream_asides _ _ _ _ (ProfileError.message_clear error))
    | ok profile =>
      cases hvalid : turn.actor.validateSnapshot command.desiredState with
      | error message =>
        exact .refused (rejectStream_asides _ _ _ _ (validateSnapshot_clear hvalid))
      | ok _ =>
        have hfst := turn.randomBytes_drawn 32
        generalize turn.randomBytes 32 = drawn at hfst ⊢
        cases hfst with
        | failed => exact .drew _ (.refused (rejectStream_asides _ _ _ _ (by decide)))
        | drawn sessionToken =>
          refine .drew _ ?_
          dsimp only
          have hsec := randomBytes_drawn { turn with drawn := turn.drawn + 1 } 32
          generalize randomBytes { turn with drawn := turn.drawn + 1 } 32 = drawn at hsec ⊢
          cases hsec with
          | failed => exact .drew _ (.refused (rejectStream_asides _ _ _ _ (by decide)))
          | drawn resumeToken =>
            refine .drew _ ?_
            dsimp only
            cases hcredentials : new sessionToken resumeToken with
            | ok credentials =>
              exact enter_checked { turn with drawn := turn.drawn + 1 + 1 } hcoh _ _ _ _ _
            | error error =>
              have hemp : error = .emptyCredential := by
                unfold new at hcredentials
                split_ifs at hcredentials
                exact (Except.error.inj hcredentials).symm
              subst hemp
              exact .refused (rejectStream_asides _ _ _ _ (by decide))

def openHomed (stream : StreamId) (frame : ClientFrame) : Bool :=
  match frame.payload with
  | some (.openSession command) =>
    match turn.checkOpen stream frame.requestId command with
    | (none, _) => true
    | (some ready, turn) =>
      (turn.greet stream frame.requestId ready).snapshotHomed ready.sessionId command.desiredState
        frame.requestId
  | _ => true

include hcoh in
theorem openStream_deals {stream : StreamId}
    (hfr : turn.actor.streams.find? stream = none) (frame : ClientFrame) (hfree : warrant.Free)
    (hhome : warrant.roams ∨ turn.openHomed stream frame = true) :
    Dealings warrant turn (turn.openStream stream frame) := by
  have hreply : Dealings warrant turn (turn.note (.replied stream
      (.invalidArgument "the first Controller frame must be OpenSession"))) :=
    .of_asides (turn.note_asides rfl rfl rfl)
  unfold openStream
  cases hpayload : frame.payload with
  | none => exact hreply
  | some payload =>
    cases payload with
    | openSession command =>
      simp only [openSession]
      have hchecked : turn.Checked (turn.checkOpen stream frame.requestId command) :=
        turn.checkOpen_checked hcoh stream frame.requestId command
      simp only [openHomed, hpayload] at hhome
      generalize turn.checkOpen stream frame.requestId command = result at hchecked hhome ⊢
      cases hchecked with
      | refused hasides => exact .of_asides hasides
      | @opened ready turn' hasides hlive hstreams =>
        have hgreet : Asides turn' (turn'.greet stream frame.requestId ready) :=
          turn'.greet_asides hlive (hstreams ▸ hfr) _
        have hcoh' := hasides.coherent hcoh
        exact append (.of_asides (hasides.append hgreet)) (reconcileSnapshot_does _
          ready.sessionId command.desiredState frame.requestId hfree hhome
          (hgreet.coherent hcoh') (hgreet.live hcoh' hlive))
    | _ => exact hreply

/-- The registrations a command processes that resume under a newer revision name Spaces that
exist. -/
def homed : ActorCommand → Bool
  | .openStream stream frame => turn.openHomed stream frame
  | .frame stream frame => turn.frameHomed stream frame
  | _ => true

include hcoh in
theorem handle_passes (command : ActorCommand) (hfree : warrant.Free)
    (hfr : ∀ stream frame, command = .openStream stream frame →
      turn.actor.streams.find? stream = none)
    (hhome : warrant.roams ∨ turn.homed command = true)
    (hseats : ∀ connection credential, command = .route connection credential →
      warrant.seats connection)
    (hrpt : ∀ key revision report, command = .reconciled key revision report →
      warrant.reports) : Passages warrant turn (turn.handle command) := by
  cases command with
  | openStream stream frame =>
    exact .of_dealings (turn.openStream_deals hcoh (hfr stream frame rfl) frame hfree hhome)
  | frame stream frame => exact turn.frame_passes hcoh stream frame hfree hhome
  | streamClosed stream => exact .of_asides (.aside (.streamClosed turn stream))
  | route connection credential =>
    exact .of_dealings (turn.route_deals hcoh (hseats connection credential rfl) credential)
  | spaceEvent report => exact .of_dealings (turn.spaceEvent_deals hfree.departs report.spaceKey report.event)
  | reconciled key applicationRevision report =>
    exact .of_dealings (turn.reconciled_deals (hrpt key applicationRevision report rfl) key
      applicationRevision report)
  | expire => exact turn.expireDue_passes hcoh hfree.releases

end Turn

def Licence.reportless : Licence where
  roams := True
  seats _ := True
  reports := False

def freshStream (actor : ControllerActor) (input : Input) : Bool :=
  match input.command with
  | .openStream stream _ => (actor.streams.find? stream).isNone
  | _ => true

variable {actor : ControllerActor}

namespace ControllerActor

def opening (actor : ControllerActor) (input : Input) : Turn := ⟨actor, input.moment, 0, 0, []⟩

section

variable {licence : Licence} {actor : ControllerActor} {input : Input}
  (hcoh : Coherent actor) (hfr : freshStream actor input = true)
  (hhome : licence.roams ∨ (actor.opening input).homed input.command = true)
  (hseats : ∀ connection credential, input.command = .route connection credential →
    licence.seats connection)
  (hrpt : ∀ key revision report, input.command = .reconciled key revision report →
    licence.reports)

include hcoh hfr hhome hseats hrpt

theorem turn_passes : Passages licence.warrant (actor.opening input) (actor.turn input) := by
  refine Turn.handle_passes _ hcoh input.command licence.warrant_free
    (fun stream frame hcmd => ?_) hhome hseats hrpt
  change actor.streams.find? stream = none
  simpa [freshStream, hcmd] using hfr

theorem turn_deeds : Deeds licence (actor.opening input) (actor.turn input) :=
  (turn_passes hcoh hfr hhome hseats hrpt).deeds

end

theorem turn_unrecognised (moment : Moment) {key : String}
    {revision : Nat} {report : Spaces.ReconcileReport}
    (hrcl : actor.spacesState.reconcile key revision report = none) :
    SameEntities actor (actor.turn ⟨moment, .reconciled key revision report⟩).actor ∧
      (actor.turn ⟨moment, .reconciled key revision report⟩).log = [] := by
  have hturn : actor.turn ⟨moment, .reconciled key revision report⟩ =
      { actor.opening ⟨moment, .reconciled key revision report⟩ with
        actor := { actor with
          renderStarted := actor.renderStarted.erase (toLex (key, revision)) } } := by
    change Turn.reconciled _ _ _ _ = _
    unfold Turn.reconciled
    dsimp only [opening]
    rw [hrcl]
  rw [hturn]
  exact ⟨⟨rfl, rfl, rfl, rfl⟩, rfl⟩

theorem turn_recognised (hcoh : Coherent actor) (licence : Licence)
    (moment : Moment) {key : String} {revision : Nat} {report : Spaces.ReconcileReport}
    {ids : List String} {spacesState : SpacesState}
    (hrcl : actor.spacesState.reconcile key revision report = some (ids, spacesState)) :
    ∃ middle : Turn, SameEntities { actor with spacesState } middle.actor ∧ middle.log = [] ∧
      Coherent middle.actor ∧
      Deeds licence middle (actor.turn ⟨moment, .reconciled key revision report⟩) := by
  have htimed : Coherent { actor with
      renderStarted := actor.renderStarted.erase (toLex (key, revision)) } :=
    ⟨hcoh.entities, hcoh.sessions, hcoh.live⟩
  have hact : Act .any { actor.opening ⟨moment, .reconciled key revision report⟩ with
      actor := { actor with
        renderStarted := actor.renderStarted.erase (toLex (key, revision)) } } _ :=
    .reported _ trivial hrcl
  refine ⟨_, ⟨rfl, rfl, rfl, rfl⟩, rfl, hact.coherent htimed, .of_acts ?_⟩
  change Acts _ _ (Turn.reconciled _ _ _ _)
  unfold Turn.reconciled
  dsimp only [opening]
  rw [hrcl]
  exact .of_asides (Asides.append
    (.foldl _ (fun turn participantId => turn.sendStatus_asides participantId) _)
    (Turn.broadcastSpaceSnapshot_asides _ _))

theorem step_coherent {actor actor' : ControllerActor} {input : Input} (hcoh : Coherent actor)
    (hfr : freshStream actor input = true) (hstep : actor.step input = some actor') :
    Coherent actor' := by
  have hdeeds : Deeds .any (actor.opening input) (actor.turn input) :=
    turn_deeds hcoh hfr (.inl trivial) (fun _ _ _ => trivial) fun _ _ _ _ => trivial
  cases hstep
  exact hdeeds.coherent hcoh

theorem coherent_of_reaches {config : ControllerConfig} {controlEpoch : Bytes}
    (h : Reaches step (fun actor input => freshStream actor input = true)
      (spawn config controlEpoch) actor) : Coherent actor :=
  Reaches.invariant (P := Coherent) (.spawn config controlEpoch)
    (fun _ _ _ hcoh hfr hstep => step_coherent hcoh hfr hstep) h

end ControllerActor

/-- In every state the actor reaches the registries agree, and no command makes it own up to a
disagreement. -/
theorem registries_never_disagree (config : ControllerConfig) (controlEpoch : Bytes)
    {actor : ControllerActor}
    (h : Reaches ControllerActor.step (fun actor input => freshStream actor input = true)
      (.spawn config controlEpoch) actor) :
    (∀ id, (actor.ownership.get id).isSome = actor.spacesState.containsParticipant id) ∧
    (∀ id, actor.host.bindings.contains id = actor.spacesState.containsParticipant id) ∧
    (∀ id state, actor.ownership.get id = some state →
      actor.coreSessions.contains state.owner = true) ∧
    (∀ session, actor.sessions.contains session = actor.coreSessions.contains session) ∧
    (∀ session, actor.reliable.contains session = actor.coreSessions.contains session) ∧
    (∀ stream session, actor.streams.find? stream = some session ↔
      (actor.sessions.get? session).bind ControllerSession.streamId = some stream) ∧
    ∀ input, freshStream actor input = true →
      ∀ effect ∈ (actor.turn input).log, effect.disagrees = false := by
  have hcoh := coherent_of_reaches h
  refine ⟨hcoh.entities.owned, hcoh.entities.bound, hcoh.live,
    hcoh.sessions.hosted, hcoh.sessions.logged, hcoh.sessions.streams, ?_⟩
  intro input hfr effect heffect
  have hdeeds : Deeds .any (actor.opening input) (actor.turn input) :=
    turn_deeds hcoh hfr (.inl trivial) (fun _ _ _ => trivial) fun _ _ _ _ => trivial
  obtain ⟨effects, hlog, hall⟩ := hdeeds.logs hcoh
  rw [hlog] at heffect
  simpa using hall effect (by simpa [opening] using heffect)

def calm (now : Time) (seed : Nat) : Moment where
  now := now
  entropy n length := some (List.replicate length (UInt8.ofNat (seed + n)))
  fates _ := .accepted

def sampleConfig : ControllerConfig where
  leaseDuration := 30
  emptySpaceGrace := 5
  maxSessions := 4
  maxParticipants := 8
  maxParticipantsPerSession := 4
  maxSpaces := 4
  maxObservationsPerSession := 4
  queueCapacity := 16

def sampleBytes (length seed : Nat) : Bytes := List.replicate length (UInt8.ofNat seed)

def sampleSpec (spaceKey : String) : ProtocolParticipantSpec := ⟨spaceKey, "Ada", false, false⟩

def sampleRegistration (ownershipToken : Bytes) (revision : Nat) (spaceKey : String) :
    ParticipantRegistration :=
  ⟨"ada", [1], ownershipToken, revision, some (sampleSpec spaceKey)⟩

def openInput (stream : StreamId) (requestId resumeToken : Bytes)
    (participants : List ParticipantRegistration) (seed : Nat) : Input where
  moment := calm 0 seed
  command := .openStream stream ⟨requestId, some (.openSession
    ⟨"game", [9], resumeToken, some ⟨0, participants, []⟩, some spacesProfile⟩)⟩

def joinedInputs : List Input := [openInput 1 [1] [] [sampleRegistration [] 1 "lobby"] 10]

def joinedActor : ControllerActor :=
  (runActions ControllerActor.step (.spawn sampleConfig [0]) joinedInputs).getD
    (.spawn sampleConfig [0])

theorem registries_never_disagree_joined :
    joinedActor.ownership.ownedEntities 1 = ["ada"] ∧
    ∀ id, joinedActor.host.bindings.contains id = joinedActor.spacesState.containsParticipant id :=
  ⟨by decide +kernel,
    (registries_never_disagree sampleConfig [0] (reaches_getD (by decide +kernel))).2.1⟩

end MumbleRuntime.SpacesServer
