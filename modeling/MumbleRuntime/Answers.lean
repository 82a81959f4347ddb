import MumbleRuntime.Asides

/-!
# What the actor answers

The frames it sends to sessions and the streams it turns away. No message of an error
it owns up to is one that marks registries that disagree, and a frame that carries a
snapshot of a Space carries the one of the state it is sent in.
-/

namespace MumbleRuntime.SpacesServer

open Library Controller Spaces SpacesServer.Effect SessionRegistry

theorem OwnershipError.message_clear (error : OwnershipError) :
    disagreements.contains error.message = false := by
  cases error <;> decide

theorem SpacesValidationError.message_clear (error : SpacesValidationError) :
    disagreements.contains error.message = false := by
  cases error <;> decide

theorem ProfileError.message_clear (error : ProfileError) :
    disagreements.contains error.message = false := by
  cases error <;> decide

variable {message : String} {registration : ParticipantRegistration}

theorem decodeSpec_clear
    (h : registration.decodeSpec = .error message) : disagreements.contains message = false := by
  unfold ParticipantRegistration.decodeSpec at h
  cases hspec : registration.spec with
  | none =>
    rw [hspec] at h
    cases h
    decide
  | some spec =>
    simp only [hspec] at h
    cases hdecode : decodeSpaceSpec spec with
    | ok spec => simp [hdecode] at h
    | error error =>
      rw [hdecode] at h
      cases h
      exact SpacesValidationError.message_clear error

namespace ControllerActor

theorem validateRegistration_clear (h : validateRegistration registration = .error message) :
    disagreements.contains message = false := by
  unfold validateRegistration at h
  split_ifs at h with hid hregistration
  · cases h
    decide
  · cases h
    decide
  · cases hdecode : registration.decodeSpec with
    | ok spec => simp [hdecode] at h
    | error error =>
      rw [hdecode] at h
      cases h
      exact decodeSpec_clear hdecode

theorem validateRegistrations_clear {seen : OrderedSet String}
    {registrations : List ParticipantRegistration}
    (h : validateRegistrations seen registrations = .error message) :
    disagreements.contains message = false := by
  induction registrations generalizing seen with
  | nil => cases h
  | cons registration rest ih =>
    unfold validateRegistrations at h
    cases hvalid : validateRegistration registration with
    | error error =>
      rw [hvalid] at h
      cases h
      exact validateRegistration_clear hvalid
    | ok _ =>
      simp only [hvalid] at h
      split_ifs at h with hseen
      · cases h
        decide
      · exact ih h

theorem validateSpaceKeys_clear {keys : List String}
    (h : validateSpaceKeys keys = .error message) : disagreements.contains message = false := by
  induction keys with
  | nil => cases h
  | cons key rest ih =>
    unfold validateSpaceKeys at h
    cases hkey : SpaceKey.new key with
    | error error =>
      rw [hkey] at h
      cases h
      exact SpacesValidationError.message_clear error
    | ok _ =>
      rw [hkey] at h
      exact ih h

theorem validateSnapshot_clear {actor : ControllerActor} {snapshot : Option DesiredStateSnapshot}
    (h : actor.validateSnapshot snapshot = .error message) :
    disagreements.contains message = false := by
  unfold validateSnapshot at h
  cases snapshot with
  | none =>
    cases h
    decide
  | some snapshot =>
    cases hvalid : validateRegistrations .empty snapshot.participants with
    | error error =>
      simp only [hvalid] at h
      have herr := validateRegistrations_clear hvalid
      split_ifs at h <;> cases h
      · decide
      · decide
      · decide
      · exact herr
    | ok _ =>
      simp only [hvalid] at h
      split_ifs at h with hses hglobal hobservations hsps hduplicate
      · cases h
        decide
      · cases h
        decide
      · cases h
        decide
      · cases h
        decide
      · cases h
        decide
      · exact validateSpaceKeys_clear h

end ControllerActor

variable {frame : ServerFrame}

namespace SameEntities

variable {actor actor' : ControllerActor}

theorem spaceSnapshot_eq (h : SameEntities actor actor') (key : String) :
    actor'.spaceSnapshot key = actor.spaceSnapshot key := by
  unfold ControllerActor.spaceSnapshot
  rw [h.spacesState, h.host]

theorem honest (h : SameEntities actor actor') (hhonest : frame.Honest actor) :
    frame.Honest actor' := by
  intro snapshot hsnap
  rw [h.spaceSnapshot_eq]
  exact hhonest snapshot hsnap

end SameEntities

namespace Asides

variable {turn turn' turn'' : Turn}

theorem nil (turn : Turn) : Asides turn turn := .refl

theorem aside (h : Aside turn turn') : Asides turn turn' := .single h

theorem append (h : Asides turn turn') (h' : Asides turn' turn'') : Asides turn turn'' :=
  Relation.ReflTransGen.trans h h'

theorem foldl {α : Type*} {step : Turn → α → Turn} (items : List α)
    (hstep : ∀ turn item, Asides turn (step turn item)) (turn : Turn) :
    Asides turn (items.foldl step turn) :=
  Library.reflTransGen_foldl (Q := fun _ => True) items (fun _ => id)
    (fun turn item _ _ => hstep turn item) trivial

end Asides

namespace Turn

variable (turn : Turn) (sessionId : SessionId)

theorem note_asides {effect : Effect} (hplain : effect.plain = true) (hsil : effect.sends = false)
    (hunrecorded : effect.records = false) : Asides turn (turn.note effect) :=
  .aside (.noted turn hplain hsil hunrecorded)

theorem sendSession_same (frame : ServerFrame) :
    SameEntities turn.actor (turn.sendSession sessionId frame).actor :=
  (turn.sendSession_spoken sessionId frame).same

theorem sendSession_asides (hnone : frame.snapshot? = none) :
    Asides turn (turn.sendSession sessionId frame) :=
  .aside (.sent turn sessionId (frame.honest_of_none turn.actor hnone))

theorem sendEach_asides (hhonest : frame.Honest turn.actor) (sessions : List SessionId) :
    Asides turn (sessions.foldl (fun turn sessionId => turn.sendSession sessionId frame) turn) := by
  induction sessions generalizing turn with
  | nil => exact .nil turn
  | cons sessionId sessions ih =>
    have hsame := turn.sendSession_same sessionId frame
    exact Asides.append (.aside (.sent turn sessionId hhonest)) (ih _ (hsame.honest hhonest))

theorem rejectSession_asides (requestId : Bytes) (code : CommandErrorCode)
    (hclear : disagreements.contains message = false) :
    Asides turn (turn.rejectSession sessionId requestId code message) :=
  (turn.note_asides (by simp only [plain, leads, disagrees, hclear]; rfl) rfl
    rfl).append (sendSession_asides _ sessionId rfl)

theorem rejectRequest_asides (requestId : Option Bytes) (code : CommandErrorCode)
    (hclear : disagreements.contains message = false) :
    Asides turn (turn.rejectRequest sessionId requestId code message) := by
  cases requestId with
  | none => exact .nil turn
  | some requestId => exact turn.rejectSession_asides sessionId requestId code hclear

theorem rejectStreamId_asides (stream : StreamId) (requestId : Bytes) (code : CommandErrorCode)
    (hclear : disagreements.contains message = false) :
    Asides turn (turn.rejectStreamId stream requestId code message) := by
  unfold rejectStreamId
  cases turn.actor.streams.find? stream with
  | none => exact .nil turn
  | some sessionId => exact turn.rejectSession_asides sessionId requestId code hclear

theorem rejectStream_asides (stream : StreamId) (requestId : Bytes) (code : CommandErrorCode)
    (hclear : disagreements.contains message = false) :
    Asides turn (turn.rejectStream stream requestId code message) := by
  have hrejected : Asides turn (turn.note (.rejected code message)) :=
    turn.note_asides (by simp only [plain, leads, disagrees, hclear]; rfl) rfl rfl
  exact (hrejected.append (note_asides _ rfl rfl rfl)).append (note_asides _ rfl rfl rfl)

theorem sendRevocation_asides (participantId : String) (registrationId : Bytes)
    (reason : OwnershipRevocationReason) (requestId : Bytes) :
    Asides turn (turn.sendRevocation sessionId participantId registrationId reason requestId) :=
  turn.sendSession_asides sessionId rfl

theorem sendGrant_asides (hcoh : Coherent turn.actor) {participant : ParticipantState}
    (hheld : turn.actor.spacesState.containsParticipant participant.participantId = true)
    (requestId : Bytes) : Asides turn (turn.sendGrant sessionId participant requestId) := by
  obtain ⟨current, hcur⟩ := SpacesState.containsParticipant_iff.mp hheld
  obtain ⟨state, hst⟩ := hcoh.get_of_participant hcur
  obtain ⟨credential, hcredential⟩ := hcoh.credential_of_participant hcur
  simp only [sendGrant, hst, hcredential]
  exact turn.sendSession_asides sessionId rfl

theorem sendStatus_asides (participantId : String) : Asides turn
    (turn.sendStatus participantId) := by
  unfold sendStatus
  cases turn.actor.spacesState.participant participantId with
  | none => exact .nil turn
  | some participant =>
    cases turn.actor.ownership.get participantId with
    | none => exact .nil turn
    | some ownership => exact turn.sendSession_asides _ rfl

theorem sendStatus_same (participantId : String) :
    SameEntities turn.actor (turn.sendStatus participantId).actor := by
  unfold sendStatus
  cases turn.actor.spacesState.participant participantId with
  | none => exact .refl _
  | some participant =>
    cases turn.actor.ownership.get participantId with
    | none => exact .refl _
    | some ownership => exact turn.sendSession_same _ _

theorem spaceSnapshot_honest {actor : ControllerActor} {key : String} {snapshot : SpaceSnapshot}
    (h : actor.spaceSnapshot key = some snapshot) :
    actor.spaceSnapshot snapshot.spaceKey = some snapshot := by
  obtain ⟨space, -, rfl⟩ := Option.map_eq_some_iff.mp h
  exact h

theorem sendEffectiveSpaceSnapshots_asides :
    Asides turn (turn.sendEffectiveSpaceSnapshots sessionId) := by
  refine .foldl _ (fun turn key => ?_) turn
  cases hsnap : turn.actor.spaceSnapshot key with
  | none => exact .nil turn
  | some snapshot =>
    refine .aside (.sent turn sessionId fun carried hcarried => ?_)
    obtain rfl := Option.some.inj hcarried
    exact spaceSnapshot_honest hsnap

theorem broadcastSpaceSnapshot_asides (key : String) :
    Asides turn (turn.broadcastSpaceSnapshot key) := by
  unfold broadcastSpaceSnapshot
  cases hsnap : turn.actor.spaceSnapshot key with
  | none => exact .nil turn
  | some snapshot =>
    refine turn.sendEach_asides (fun carried hcarried => ?_) _
    obtain rfl := Option.some.inj hcarried
    exact spaceSnapshot_honest hsnap

theorem broadcastSpaceClosed_asides (key : String) (space : MaterializedSpace) :
    Asides turn (turn.broadcastSpaceClosed key space) :=
  turn.sendEach_asides (ServerFrame.honest_of_none _ rfl) _

theorem foldl_same {α : Type*} {step : Turn → α → Turn} (items : List α)
    (hstep : ∀ turn item, SameEntities turn.actor (step turn item).actor) :
    SameEntities turn.actor (items.foldl step turn).actor := by
  induction items generalizing turn with
  | nil => exact .refl _
  | cons item items ih => exact (hstep turn item).trans (ih (step turn item))

theorem broadcastSpaceSnapshot_same (key : String) :
    SameEntities turn.actor (turn.broadcastSpaceSnapshot key).actor := by
  unfold broadcastSpaceSnapshot
  cases turn.actor.spaceSnapshot key with
  | none => exact .refl _
  | some snapshot => exact turn.foldl_same _ fun turn sessionId => turn.sendSession_same sessionId _

theorem advanceDesiredRevision_asides : Asides turn (turn.advanceDesiredRevision sessionId) :=
  .aside (.core turn (advanceDesiredRevision_continues sessionId))

theorem replaceOwner_asides (participant : ParticipantState) (previous : OwnershipState) :
    Asides turn (turn.replaceOwner participant previous) :=
  (turn.advanceDesiredRevision_asides previous.owner).append (sendRevocation_asides _ _ _ _ _ _)

inductive Drawn (turn : Turn) {α : Type} : Except String α × Turn → Prop
  | failed : Drawn turn (.error "the operating system random source is unavailable",
      { turn with drawn := turn.drawn + 1 })
  | drawn (value : α) : Drawn turn (.ok value, { turn with drawn := turn.drawn + 1 })

theorem randomBytes_drawn (length : Nat) : turn.Drawn (turn.randomBytes length) := by
  unfold randomBytes
  cases turn.moment.entropy turn.drawn length with
  | none => exact .failed
  | some bytes => exact .drawn bytes

theorem randomJoinToken_drawn : turn.Drawn turn.randomJoinToken := by
  unfold randomJoinToken randomBytes
  cases turn.moment.entropy turn.drawn 32 with
  | none => exact .failed
  | some bytes => exact .drawn _

theorem drew_asides : Asides turn { turn with drawn := turn.drawn + 1 } := .aside (.drew turn)

theorem answerSpec_asides (participantId : String) (requestId : Bytes) :
    Asides turn (turn.answerSpec sessionId participantId requestId) := by
  unfold answerSpec
  split
  · exact turn.sendSession_asides sessionId rfl
  · exact .nil turn

theorem replaceObservations_asides (revision : Nat) (keys : List String) (requestId : Bytes) :
    Asides turn (turn.replaceObservations sessionId revision keys requestId) := by
  have haccept : ∀ turn : Turn, Asides turn ((turn.sendSession sessionId
      ⟨requestId, .observedSpacesAccepted revision⟩).sendEffectiveSpaceSnapshots sessionId) :=
    fun turn => (turn.sendSession_asides sessionId rfl).append
      (sendEffectiveSpaceSnapshots_asides _ _)
  unfold replaceObservations
  dsimp only
  split_ifs with hinvalid hduplicate
  · exact rejectSession_asides _ _ _ _ (by decide)
  · exact rejectSession_asides _ _ _ _ (by decide)
  · cases hget : turn.actor.sessions.get? sessionId with
    | none => exact haccept turn
    | some session =>
      have hid : session.id = sessionId := Table.key_of_get? hget
      dsimp only
      cases session.spaces.replaceObservations revision (collect keys) with
      | none => exact rejectSession_asides _ _ _ _ (by decide)
      | some spaces =>
        exact Asides.append (.aside (.observed turn spaces (hid ▸ hget))) (haccept _)

theorem renewLease_asides (requestId token : Bytes) (desiredStateRevision : Nat) :
    Asides turn (turn.renewLease sessionId requestId token desiredStateRevision) := by
  have hcont : turn.actor.coreSessions.Continues (turn.actor.coreSessions.renew sessionId token
      desiredStateRevision turn.moment.now).2 := renew_continues _ _ _ _
  have herr : ∀ error, (turn.actor.coreSessions.renew sessionId token desiredStateRevision
      turn.moment.now).1 = .error error → error = .invalidSessionToken :=
    fun _ h => renew_error h
  unfold renewLease
  generalize turn.actor.coreSessions.renew sessionId token desiredStateRevision turn.moment.now =
    renewed at hcont herr ⊢
  obtain ⟨result, coreSessions⟩ := renewed
  cases result with
  | error error =>
    obtain rfl := herr error rfl
    exact rejectSession_asides _ _ _ _ (by decide)
  | ok outcome =>
    have hrenewed : Asides turn (turn.setCore coreSessions) := .aside (.core turn hcont)
    cases outcome with
    | current => exact hrenewed
    | resyncRequired => exact hrenewed.append (sendSession_asides _ _ rfl)

theorem greet_asides {ready : SessionOpened} {stream : StreamId}
    (hlive : turn.actor.coreSessions.contains ready.sessionId = true)
    (hfr : turn.actor.streams.find? stream = none) (requestId : Bytes) :
    Asides turn (turn.greet stream requestId ready) :=
  Asides.append (.aside (.attached turn hlive hfr)) (sendSession_asides _ _ rfl)

theorem routed_asides (connection : ConnectionId)
    (hmsg : message ≠ HostError.inconsistentBinding.message) :
    Asides turn (turn.note (.routed connection (.error message))) :=
  turn.note_asides (by simp [plain, leads, disagrees, hmsg]) rfl rfl

end Turn

end MumbleRuntime.SpacesServer
