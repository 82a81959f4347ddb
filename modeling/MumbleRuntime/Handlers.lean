import MumbleRuntime.Dealings

/-!
# The handlers of the actor, as dealings

Each handler is a sequence of dealings when the registries agree and its session is
live. A registration that resumes under a newer revision replaces a spec without
materializing the Space it names; the dealings are held to Spaces that exist only
where such a registration names one.
-/

namespace MumbleRuntime.SpacesServer

open Library Controller Spaces SpacesState Dealings ParticipantRegistration

variable {spec : ParticipantSpec}

namespace Turn

variable {warrant : Warrant} (turn : Turn) (sessionId : SessionId)

theorem refreshSpace_deals (key : String) : Dealings warrant turn (turn.refreshSpace key) :=
  (deal (.published turn key)).append (.of_asides (broadcastSpaceSnapshot_asides _ key))

inductive Ensured (turn : Turn) (key : String) : Except String Unit × Turn → Prop
  | present (hpresent : turn.actor.spacesState.containsSpace key = true) :
      Ensured turn key (.ok (), turn)
  | refused {turn' : Turn} {message : String} (hclear : disagreements.contains message = false)
      (hdrawn : Asides turn turn') : Ensured turn key (.error message, turn')
  | created {incarnationId : Bytes}
      (hdrawn : turn.moment.entropy turn.drawn 16 = some incarnationId)
      (hnew : turn.actor.spacesState.containsSpace key = false) :
      Ensured turn key (.ok (), { turn with drawn := turn.drawn + 1 }.materialize key incarnationId)

theorem ensureSpace_ensured (key : String) : turn.Ensured key (turn.ensureSpace key) := by
  unfold ensureSpace
  split_ifs with hpresent hlimit
  · exact .present hpresent
  · exact .refused (by decide) (.nil turn)
  · cases hentropy : turn.moment.entropy turn.drawn 16 with
    | none =>
      simp only [randomBytes, hentropy]
      exact .refused (by decide) turn.drew_asides
    | some incarnationId =>
      simp only [randomBytes, hentropy]
      exact .created hentropy (by simpa using hpresent)

theorem applySpec_deals (participantId : String) (spec : ParticipantSpec)
    (hrev : warrant.revises participantId)
    (hhome : warrant.roams ∨ turn.actor.spacesState.containsSpace spec.spaceKey.value = true) :
    Dealings warrant turn (turn.applySpec participantId spec) := by
  cases hget : turn.actor.spacesState.participant participantId with
  | none =>
    unfold applySpec replaceParticipantSpec
    rw [hget]
    exact .nil turn
  | some participant =>
    have hid : participant.participantId = participantId := Table.key_of_get? hget
    subst hid
    exact .deal (.respecified turn hrev hget hhome)

theorem release_deals (hcoh : Coherent turn.actor) (participantId : String)
    (hrel : warrant.releases participantId) (registrationId ownershipToken : Bytes)
    (reason : OwnershipRevocationReason) (requestId : Option Bytes) :
    Dealings warrant turn (turn.release sessionId participantId registrationId ownershipToken reason
      requestId) := by
  unfold release
  cases hget : turn.actor.spacesState.participant participantId with
  | none =>
    simp only [hcoh.get_eq_none hget]
    exact .of_asides (turn.rejectRequest_asides sessionId requestId .ownershipLost (by decide))
  | some current =>
    obtain ⟨state, hst⟩ := hcoh.get_of_participant hget
    simp only [OwnershipRegistry.release, hst]
    split_ifs with hlost
    · exact .of_asides (turn.rejectRequest_asides sessionId requestId .ownershipLost (by decide))
    · exact append (.deal (.left turn hrel hst hget))
        (.of_asides (sendRevocation_asides _ _ _ _ _ _))

theorem releaseAll_deals (hcoh : Coherent turn.actor) (participantIds : List String)
    (hrel : ∀ id ∈ participantIds, warrant.releases id) (reason : OwnershipRevocationReason) :
    Dealings warrant turn (turn.releaseAll sessionId participantIds reason) := by
  refine .foldl_coherent participantIds (fun turn participantId hmem hcoh => ?_) hcoh
  cases turn.actor.ownership.get participantId with
  | none => exact .nil turn
  | some ownership => exact turn.release_deals sessionId hcoh _ (hrel _ hmem) _ _ _ _

def advances (registration : ParticipantRegistration) (mode : ClaimMode) : Bool :=
  (turn.actor.ownership.get registration.participantId).any fun current =>
    current.resumable (registration.claim sessionId mode []) &&
      decide (current.clientRevision < registration.clientSpecRevision)

def homes (registration : ParticipantRegistration) (mode : ClaimMode) : Bool :=
  !turn.advances sessionId registration mode || match registration.decodeSpec with
    | .ok spec => turn.actor.spacesState.containsSpace spec.spaceKey.value
    | .error _ => true

theorem applyResumption_deals (hcoh : Coherent turn.actor) (participantId : String)
    (spec : ParticipantSpec) (revisionAdvanced : Bool) (requestId : Bytes)
    (hrev : warrant.revises participantId)
    (hhome : revisionAdvanced = true →
      warrant.roams ∨ turn.actor.spacesState.containsSpace spec.spaceKey.value = true) :
    Dealings warrant turn (turn.applyResumption sessionId participantId spec revisionAdvanced
      requestId) := by
  have happ : Dealings warrant turn
      (if revisionAdvanced then turn.applySpec participantId spec else turn) := by
    split_ifs with hadvanced
    · exact turn.applySpec_deals participantId spec hrev (hhome hadvanced)
    · exact .nil turn
  unfold applyResumption
  refine happ.append ?_
  have hcoh' := happ.coherent hcoh
  generalize (if revisionAdvanced then turn.applySpec participantId spec else turn) = turn' at hcoh'
  dsimp only
  cases hget : turn'.actor.spacesState.participant participantId with
  | none => exact .nil turn'
  | some participant =>
    have hid : participant.participantId = participantId := Table.key_of_get? hget
    exact .of_asides (turn'.sendGrant_asides sessionId hcoh'
      (containsParticipant_iff.mpr ⟨participant, hid ▸ hget⟩) requestId)

theorem resumeRegistration_does (registration : ParticipantRegistration) (requestId : Bytes)
    (mode : ClaimMode) {current : OwnershipState}
    (hrev : warrant.revises registration.participantId)
    (hget : turn.actor.ownership.get registration.participantId = some current)
    (hhome : warrant.roams ∨ turn.homes sessionId registration mode = true) :
    Does warrant sessionId turn (turn.resumeRegistration sessionId registration requestId mode) := by
  intro hcoh hlive
  unfold resumeRegistration
  cases hdecode : registration.decodeSpec with
  | error message =>
    exact .rejected (decodeSpec_clear hdecode)
  | ok spec =>
    obtain ⟨participant, hpart⟩ := hcoh.participant_of_get hget
    have hheld := containsParticipant_iff.mpr ⟨participant, hpart⟩
    simp only [hheld, Bool.true_eq_false, if_false]
    have hclm :=
      OwnershipRegistry.claim_claimed turn.actor.ownership (registration.claim sessionId mode [])
    rcases hclaim : turn.actor.ownership.claim (registration.claim sessionId mode []) with
      ⟨result, ownership⟩
    rw [hclaim] at hclm
    cases hclm with
    | refused error =>
      exact .of_asides
        (turn.rejectSession_asides sessionId requestId _ (OwnershipError.message_clear error))
    | acquired hexplicit hglobal howr htoken hfr => exact absurd rfl htoken
    | resumed state revisionAdvanced hst hresumable hadvanced =>
      have hid : state.entityId = registration.participantId :=
        OwnershipRegistry.entityId_of_get hst
      have hrevised : Dealings warrant turn (turn.setOwnership (turn.actor.ownership.put
          { state with clientRevision := max state.clientRevision registration.clientSpecRevision })) :=
        .deal (.revised turn (hid.symm ▸ hrev) (hid ▸ hst) (le_max_left _ _))
      refine hrevised.append (applyResumption_deals _ sessionId (hrevised.coherent hcoh) _ spec _
        requestId hrev fun hadv => hhome.imp_right fun hhomes => ?_)
      have hadvances : turn.advances sessionId registration mode = true := by
        change turn.actor.ownership.get registration.participantId = some state at hst
        have hlt : state.clientRevision < registration.clientSpecRevision := by
          simpa [hadv, claim] using hadvanced.symm
        simp [advances, hst, hresumable, hlt]
      change turn.actor.spacesState.containsSpace spec.spaceKey.value = true
      simpa [homes, hadvances, hdecode] using hhomes

theorem unveil_deals {installed : Turn} {participant : ParticipantState} {oldSpace : Option String}
    (hcoh : Coherent turn.actor)
    (hrevealed : Dealings warrant turn (installed.reveal participant oldSpace))
    (hheld : installed.actor.spacesState.containsParticipant participant.participantId = true)
    (requestId : Bytes) :
    Dealings warrant turn (installed.unveil sessionId requestId participant oldSpace) := by
  refine (hrevealed.append (.of_asides (sendGrant_asides _ sessionId (hrevealed.coherent hcoh)
    ?_ requestId))).append (.of_asides (sendStatus_asides _ _))
  rwa [containsParticipant, (installed.reveal_republished participant oldSpace).participants]

theorem bind_eq {participant : ParticipantState} {joinToken : String}
    (hok : (turn.actor.host.bindings.register participant.participantId joinToken).1 = .ok ())
    (requestId : Bytes) : turn.bind sessionId requestId joinToken participant =
      (turn.setBindings (turn.actor.host.bindings.register participant.participantId
        joinToken).2).install sessionId requestId participant := by
  unfold bind
  rcases hregister : turn.actor.host.bindings.register participant.participantId joinToken with
    ⟨result, bindings⟩
  rw [hregister] at hok
  cases hok
  rfl

theorem install_eq (requestId : Bytes) (participant : ParticipantState)
    (former : Option ParticipantState)
    (h : turn.actor.spacesState.participant participant.participantId = former) :
    turn.install sessionId requestId participant =
      ((turn.setSpaces (turn.actor.spacesState.insertParticipant participant)).note
        (.registered participant.participantId)).unveil sessionId requestId participant
        (former.map ParticipantState.space) := by
  rw [← h]
  rfl

theorem takeOver_does {registration : ParticipantRegistration}
    {joinToken : String} {state : OwnershipState} (requestId : Bytes)
    (hcl : warrant.claims registration.participantId)
    (hentity : state.entityId = registration.participantId) (howr : state.owner = sessionId)
    (hid : registration.participantId.isEmpty = false)
    (hav : turn.actor.host.bindings.credentialAvailable joinToken = true)
    (hhome : turn.actor.spacesState.containsSpace spec.spaceKey.value = true) :
    Does warrant sessionId turn (((turn.setOwnership (turn.actor.ownership.put state)).note
      (.claimed registration.participantId)).takeOver sessionId registration requestId spec joinToken
      (turn.actor.ownership.get registration.participantId)) := by
  intro hcoh hlive
  have hok := Bindings.register_available hid hav
  have hlive' : turn.actor.coreSessions.contains state.owner = true := howr ▸ hlive
  rw [← hentity] at hcl
  cases hprevious : turn.actor.ownership.get registration.participantId with
  | none =>
    have hnobody := (hcoh.absent hprevious).1
    have hentered : Dealings warrant turn _ :=
      .deal (.entered turn state (.registered registration.participantId spec none) joinToken hcl
        (hentity ▸ hprevious) hentity hlive' hav hok rfl hhome)
    unfold takeOver
    rw [bind_eq _ _ hok, install_eq _ _ _ _ none hnobody]
    refine turn.unveil_deals sessionId hcoh hentered ?_ requestId
    exact (containsParticipant_insertParticipant _ _).trans (by simp)
  | some previous =>
    obtain ⟨participant, hpart⟩ := hcoh.participant_of_get hprevious
    have hown : turn.actor.ownership.get state.entityId = some previous := hentity ▸ hprevious
    have htold := replaceOwner_asides ((turn.setOwnership (turn.actor.ownership.put state)).note
      (.claimed registration.participantId)) participant previous
    have hsame := htold.same (hcoh.claim hown hlive')
    have hhost : _ = turn.actor.host := hsame.host
    have hsps : _ = turn.actor.spacesState := hsame.spacesState
    unfold takeOver
    rw [show ((turn.setOwnership (turn.actor.ownership.put state)).note
      (.claimed registration.participantId)).actor.spacesState.participant
      registration.participantId = some participant from hpart]
    dsimp only
    generalize ((turn.setOwnership (turn.actor.ownership.put state)).note
      (.claimed registration.participantId)).replaceOwner participant previous =
      middle at htold hhost hsps
    rw [bind_eq _ _ (hhost.symm ▸ hok)]
    have hreplaced : Dealings warrant turn _ := .deal (.replaced turn state
      (.registered registration.participantId spec (some participant)) joinToken hcl hown
      hpart hentity hlive' hav hok rfl hhome htold)
    rw [install_eq _ _ _ _ (some participant) (hsps.symm ▸ hpart)]
    refine turn.unveil_deals sessionId hcoh hreplaced ?_ requestId
    exact (containsParticipant_insertParticipant _ _).trans (by simp)

section

variable (registration : ParticipantRegistration)

include registration

theorem claimOwnership_does (requestId : Bytes)
    (mode : ClaimMode) (hcl : warrant.claims registration.participantId)
    (hrev : (turn.actor.ownership.get registration.participantId).isSome →
      warrant.revises registration.participantId)
    (hhome : turn.actor.spacesState.containsSpace spec.spaceKey.value = true) :
    Does warrant sessionId turn (turn.claimOwnership sessionId registration requestId mode spec) := by
  intro hcoh hlive
  unfold claimOwnership
  have hdrawn := turn.randomBytes_drawn 32
  generalize turn.randomBytes 32 = drawn at hdrawn ⊢
  cases hdrawn with
  | failed =>
    exact .of_asides (turn.drew_asides.append (rejectSession_asides _ _ _ _ (by decide)))
  | drawn ownershipToken =>
    dsimp only
    have hjoin := randomJoinToken_drawn { turn with drawn := turn.drawn + 1 }
    generalize randomJoinToken { turn with drawn := turn.drawn + 1 } = joined at hjoin ⊢
    cases hjoin with
    | failed =>
      exact .of_asides ((turn.drew_asides.append (drew_asides _)).append
        (rejectSession_asides _ _ _ _ (by decide)))
    | drawn joinToken =>
      have hdrew : Asides turn { turn with drawn := turn.drawn + 1 + 1 } :=
        turn.drew_asides.append (drew_asides _)
      refine append (.of_asides hdrew) ?_
      dsimp only
      split_ifs with hav
      · exact .rejected (by decide)
      have hclm := OwnershipRegistry.claim_claimed turn.actor.ownership
        (registration.claim sessionId mode ownershipToken)
      have hid : ∀ outcome, (turn.actor.ownership.claim
          (registration.claim sessionId mode ownershipToken)).1 = .ok outcome →
          registration.participantId.isEmpty = false :=
        fun _ hok => OwnershipRegistry.entityId_of_claim hok
      generalize turn.actor.ownership.claim (registration.claim sessionId mode ownershipToken) =
        claimed at hclm hid ⊢
      cases hclm with
      | refused error =>
        cases error with
        | snapshotConflict => exact .of_asides (sendRevocation_asides _ _ _ _ _ _)
        | _ => exact .rejected (by decide)
      | resumed state revisionAdvanced hst hresumable hadvanced =>
        have hentity : state.entityId = registration.participantId :=
          OwnershipRegistry.entityId_of_get hst
        have hrev' : warrant.revises state.entityId :=
          hentity.symm ▸ hrev (Option.isSome_iff_exists.mpr ⟨state, hst⟩)
        refine append (.deal (.revised _ hrev' (hentity ▸ hst)
          (le_max_left _ registration.clientSpecRevision))) ?_
        exact .rejected (by decide)
      | acquired hexplicit hglobal howr htoken hfr =>
        exact takeOver_does _ sessionId requestId hcl rfl rfl (hid _ rfl)
          (by simpa using hav) hhome hcoh hlive

theorem acquire_does (requestId : Bytes)
    (mode : ClaimMode) (hcl : warrant.claims registration.participantId)
    (hrev : (turn.actor.ownership.get registration.participantId).isSome →
      warrant.revises registration.participantId) :
    Does warrant sessionId turn (turn.acquire sessionId registration requestId mode) := by
  intro hcoh hlive
  unfold acquire
  cases hdecode : registration.decodeSpec with
  | error message => exact .rejected (decodeSpec_clear hdecode)
  | ok spec =>
    have hown := hcoh.entities.owned registration.participantId
    have hbd := hcoh.entities.bound registration.participantId
    dsimp only
    rw [if_neg (by rw [hown, hbd]; simp)]
    split_ifs with hglobal hses
    · exact .rejected (by decide)
    · exact .rejected (by decide)
    · have hensured := turn.ensureSpace_ensured spec.spaceKey.value
      generalize turn.ensureSpace spec.spaceKey.value = ensured at hensured ⊢
      cases hensured with
      | present hpresent =>
        exact claimOwnership_does turn sessionId registration requestId mode hcl hrev hpresent
          hcoh hlive
      | refused hclear hdrawn =>
        exact .of_asides (hdrawn.append (rejectSession_asides _ _ _ _ hclear))
      | created hdrawn hnew =>
        have hcre : Dealings warrant turn _ := .deal (.materialized turn hdrawn hnew)
        refine hcre.append (claimOwnership_does _ sessionId registration requestId mode hcl
          hrev ?_ (hcre.coherent hcoh) (hcre.live hcoh hlive))
        exact (containsSpace_insertSpace _ _).trans (by simp [MaterializedSpace.new])

theorem registerFromSnapshot_does (requestId : Bytes)
    (hcl : turn.actor.ownership.get registration.participantId = none →
      warrant.claims registration.participantId)
    (hrev : ∀ current, turn.actor.ownership.get registration.participantId = some current →
      current.owner = sessionId → warrant.revises registration.participantId)
    (hhome : warrant.roams ∨ turn.homes sessionId registration .snapshot = true) :
    Does warrant sessionId turn (turn.registerFromSnapshot sessionId registration requestId) := by
  unfold registerFromSnapshot
  cases hget : turn.actor.ownership.get registration.participantId with
  | none =>
    exact turn.acquire_does sessionId registration requestId .snapshot (hcl hget) (by simp [hget])
  | some current =>
    dsimp only
    split_ifs with hcur
    · exact turn.resumeRegistration_does sessionId registration requestId .snapshot
        (hrev current hget hcur.1) hget hhome
    · exact .of_asides (turn.sendRevocation_asides sessionId _ _ _ _)

theorem registerExplicit_does (requestId : Bytes) (hcl : warrant.claims registration.participantId)
    (hrev : warrant.revises registration.participantId)
    (hhome : warrant.roams ∨ turn.homes sessionId registration .explicit = true) :
    Does warrant sessionId turn (turn.registerExplicit sessionId registration requestId) := by
  unfold registerExplicit
  cases hget : turn.actor.ownership.get registration.participantId with
  | none =>
    exact turn.acquire_does sessionId registration requestId .explicit hcl fun _ => hrev
  | some current =>
    dsimp only
    split_ifs with hcur
    · exact turn.resumeRegistration_does sessionId registration requestId .explicit hrev hget hhome
    · exact turn.acquire_does sessionId registration requestId .explicit hcl fun _ => hrev

end

/-- Every registration of a list names, when its turn comes, a Space that exists if it resumes
under a newer revision. -/
def homesAll (requestId : Bytes) : Turn → List ParticipantRegistration → Bool
  | _, [] => true
  | turn, registration :: rest =>
    turn.homes sessionId registration .snapshot &&
      homesAll requestId (turn.registerFromSnapshot sessionId registration requestId) rest

theorem registerAll_does (requestId : Bytes) (registrations : List ParticipantRegistration)
    (hwarrant : ∀ turn', Dealings warrant turn turn' → ∀ registration ∈ registrations,
      (turn'.actor.ownership.get registration.participantId = none →
        warrant.claims registration.participantId) ∧
      ∀ current, turn'.actor.ownership.get registration.participantId = some current →
        current.owner = sessionId → warrant.revises registration.participantId)
    (hhome : warrant.roams ∨ homesAll sessionId requestId turn registrations = true) :
    Does warrant sessionId turn (registrations.foldl (fun turn registration =>
      turn.registerFromSnapshot sessionId registration requestId) turn) := by
  induction registrations generalizing turn with
  | nil => exact .of_dealings (.nil turn)
  | cons registration rest ih =>
    intro hcoh hlive
    have hhome' : warrant.roams ∨ turn.homes sessionId registration .snapshot = true :=
      hhome.imp_right fun h => (Bool.and_eq_true_iff.mp h).1
    have hrest : warrant.roams ∨ homesAll sessionId requestId
        (turn.registerFromSnapshot sessionId registration requestId) rest = true :=
      hhome.imp_right fun h => (Bool.and_eq_true_iff.mp h).2
    obtain ⟨hcl, hrev⟩ := hwarrant turn (.nil turn) registration List.mem_cons_self
    have hfst := turn.registerFromSnapshot_does sessionId registration requestId hcl hrev
      hhome' hcoh hlive
    refine hfst.append (ih _ (fun turn' hdealings other hoth => ?_) hrest
      (hfst.coherent hcoh) (hfst.live hcoh hlive))
    exact hwarrant turn' (hfst.append hdealings) other (List.mem_cons_of_mem _ hoth)

theorem adoptSnapshot_does (snapshot : DesiredStateSnapshot)
    (hrel : ∀ id ∈ (turn.actor.ownership.ownedEntities sessionId).filter fun id =>
      !(snapshot.participants.map participantId).contains id,
      warrant.releases id) :
    Does warrant sessionId turn (turn.adoptSnapshot sessionId snapshot) := by
  intro hcoh hlive
  have hreleased : Dealings warrant turn (turn.releaseAll sessionId
      ((turn.actor.ownership.ownedEntities sessionId).filter fun id =>
        !(snapshot.participants.map participantId).contains id)
      .participantReleased) := turn.releaseAll_deals sessionId hcoh _ hrel _
  unfold adoptSnapshot
  dsimp only
  generalize turn.releaseAll sessionId _ _ = turn' at hreleased ⊢
  have hrevised : Asides turn' (turn'.setCore
      (turn'.actor.coreSessions.setDesiredRevision sessionId snapshot.desiredStateRevision)) :=
    .aside (.core turn' (SessionRegistry.setDesiredRevision_continues sessionId _))
  refine hreleased.append (.of_asides (hrevised.append ?_))
  cases hget : turn'.actor.sessions.get? sessionId with
  | none =>
    simp only [setCore, hget]
    exact .nil _
  | some session =>
    have hid : session.id = sessionId := Table.key_of_get? hget
    simp only [setCore, hget]
    exact .aside (.observed _ _ (hid ▸ hget))

/-- The registrations of a snapshot that resume under a newer revision name Spaces that exist. -/
def snapshotHomed (snapshot : Option DesiredStateSnapshot) (requestId : Bytes) : Bool :=
  snapshot.all fun snapshot =>
    homesAll sessionId requestId (turn.adoptSnapshot sessionId snapshot) snapshot.participants

theorem reconcileSnapshot_does (snapshot : Option DesiredStateSnapshot) (requestId : Bytes)
    (hfree : warrant.Free)
    (hhome : warrant.roams ∨ turn.snapshotHomed sessionId snapshot requestId = true) :
    Does warrant sessionId turn (turn.reconcileSnapshot sessionId snapshot requestId) := by
  cases snapshot with
  | none => exact .of_dealings (.nil turn)
  | some snapshot =>
    refine (turn.adoptSnapshot_does sessionId snapshot fun id _ => hfree.releases id).trans
      ((registerAll_does _ sessionId requestId snapshot.participants (fun _ _ registration _ =>
        ⟨fun _ => hfree.claims registration.participantId,
          fun _ _ _ => hfree.revises registration.participantId⟩) hhome).trans (.of_asides ?_))
    exact (sendSession_asides _ sessionId rfl).append (sendEffectiveSpaceSnapshots_asides _ sessionId)

theorem acceptSpec_deals (participantId : String) (ownershipToken : Bytes) (clientRevision : Nat)
    (current : ParticipantState) (requestId : Bytes) (hrev : warrant.revises participantId)
    (hhome : turn.actor.spacesState.containsSpace spec.spaceKey.value = true) :
    Dealings warrant turn (turn.acceptSpec sessionId participantId ownershipToken clientRevision spec
      current requestId) := by
  unfold acceptSpec OwnershipRegistry.acceptRevision
  cases hget : turn.actor.ownership.get participantId with
  | none => exact .rejected (by decide)
  | some state =>
    have hentity : state.entityId = participantId := OwnershipRegistry.entityId_of_get hget
    dsimp only
    split_ifs with hlost hstl hsame
    · exact .rejected (by decide)
    · exact .rejected (by decide)
    · exact .of_asides (answerSpec_asides _ _ _ _)
    · have hle : state.clientRevision ≤ clientRevision := by omega
      refine append (.deal (.revised turn (hentity.symm ▸ hrev) (hentity ▸ hget) hle)) ?_
      refine append (applySpec_deals _ participantId spec hrev (.inr ?_))
        (.of_asides (answerSpec_asides _ _ _ _))
      exact hhome

theorem setSpec_does (participantId : String) (ownershipToken : Bytes) (clientRevision : Nat)
    (spec : ParticipantSpec) (requestId : Bytes) (hrev : warrant.revises participantId) :
    Does warrant sessionId turn (turn.setSpec sessionId participantId ownershipToken clientRevision spec
      requestId) := by
  intro hcoh hlive
  unfold setSpec
  cases hpart : turn.actor.spacesState.participant participantId with
  | none => exact .rejected (by decide)
  | some current =>
    obtain ⟨state, hst⟩ := hcoh.get_of_participant hpart
    simp only [hst]
    split_ifs with hlost hbackwards hchg
    · exact .rejected (by decide)
    · exact .rejected (by decide)
    · exact .rejected (by decide)
    · have hensured := turn.ensureSpace_ensured spec.spaceKey.value
      generalize turn.ensureSpace spec.spaceKey.value = ensured at hensured ⊢
      cases hensured with
      | present hpresent => exact acceptSpec_deals _ _ _ _ _ _ _ hrev hpresent
      | refused hclear hdrawn =>
        exact .of_asides (hdrawn.append (rejectSession_asides _ _ _ _ hclear))
      | created hdrawn hnew =>
        refine append (.deal (.materialized turn hdrawn hnew)) ?_
        refine acceptSpec_deals _ _ _ _ _ _ _ hrev ?_
        exact (containsSpace_insertSpace _ _).trans (by simp [MaterializedSpace.new])

end Turn

end MumbleRuntime.SpacesServer
