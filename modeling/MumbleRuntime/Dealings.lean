import MumbleRuntime.Acts
import MumbleRuntime.Answers

/-!
# What the actor does at one go

An act on an entity leaves Spaces to be published anew and connections to be moved,
and the actor sees to both before it turns to anything else. A dealing is an act with
what follows from it, so what an act leaves open is closed again between dealings.
-/

namespace MumbleRuntime.SpacesServer

open Library Controller Spaces Acts Turn SpacesState

variable {licence : Licence}

theorem Acts.of_asides {turn turn' : Turn} (h : Asides turn turn') : Acts licence turn turn' := by
  induction h with
  | refl => exact .nil turn
  | tail _ hasd ih => exact ih.append (.aside hasd)

structure Republished (actor actor' : ControllerActor) : Prop where
  host : actor'.host = actor.host
  ownership : actor'.ownership = actor.ownership
  participants : actor'.spacesState.participants = actor.spacesState.participants

namespace Republished

variable {actor actor' actor'' : ControllerActor}

theorem of_same (h : SameEntities actor actor') : Republished actor actor' :=
  ⟨h.host, h.ownership, by rw [h.spacesState]⟩

theorem trans (h : Republished actor actor') (h' : Republished actor' actor'') :
    Republished actor actor'' :=
  ⟨h'.host.trans h.host, h'.ownership.trans h.ownership, h'.participants.trans h.participants⟩

end Republished

namespace Turn

section Acts

variable {licence : Licence} (turn : Turn)

theorem refreshSpace_acts (key : String) : Acts licence turn (turn.refreshSpace key) :=
  (act (.published turn key)).append (.of_asides (broadcastSpaceSnapshot_asides _ key))

theorem followSpace_acts (connection : Option ConnectionId) (key : String) :
    Acts licence turn (turn.followSpace connection key) := by
  unfold followSpace
  cases connection with
  | none => exact .nil turn
  | some connection =>
    cases turn.actor.spacesState.space key with
    | none => exact .nil turn
    | some space => exact .act (.told turn rfl)

theorem sendStatus_acts (participantId : String) : Acts licence turn
    (turn.sendStatus participantId) :=
  .of_asides (turn.sendStatus_asides participantId)

theorem applySpec_acts {participant : ParticipantState} {spec : ParticipantSpec}
    (hget : turn.actor.spacesState.participant participant.participantId = some participant)
    (hhome : licence.roams ∨ turn.actor.spacesState.containsSpace spec.spaceKey.value = true) :
    Acts licence turn (turn.applySpec participant.participantId spec) := by
  unfold applySpec replaceParticipantSpec
  have hspec : Acts licence turn ((turn.setSpaces
      (turn.actor.spacesState.insertParticipant { participant with spec })).note
      (.respecified participant.participantId spec.spaceKey.value)) :=
    .act (.respecified turn hget hhome)
  have hrefreshed := hspec.append (refreshSpace_acts _ participant.space)
  simp only [hget, Option.map_some]
  split_ifs with hmoved
  · exact (hrefreshed.append (refreshSpace_acts _ _)).append (followSpace_acts _ _ _)
  · exact hrefreshed

end Acts

def reveal (turn : Turn) (participant : ParticipantState) (oldSpace : Option String) : Turn :=
  match oldSpace with
  | some oldSpace =>
    if oldSpace ≠ participant.space then
      let turn := (turn.refreshSpace oldSpace).refreshSpace participant.space
      turn.followSpace (turn.actor.host.bindings.connection participant.participantId)
        participant.space
    else turn.refreshSpace participant.space
  | none => turn.refreshSpace participant.space

variable (turn : Turn)

theorem unveil_eq (sessionId : SessionId) (requestId : Bytes) (participant : ParticipantState)
    (oldSpace : Option String) :
    turn.unveil sessionId requestId participant oldSpace =
      ((turn.reveal participant oldSpace).sendGrant sessionId participant requestId).sendStatus
        participant.participantId := rfl

theorem reveal_acts (participant : ParticipantState) (oldSpace : Option String) :
    Acts licence turn (turn.reveal participant oldSpace) := by
  cases oldSpace with
  | none => exact turn.refreshSpace_acts participant.space
  | some oldSpace =>
    simp only [reveal]
    split_ifs with hmoved
    · exact ((turn.refreshSpace_acts oldSpace).append (refreshSpace_acts _ _)).append
        (followSpace_acts _ _ _)
    · exact turn.refreshSpace_acts participant.space

theorem followSpace_actor (connection : Option ConnectionId) (key : String) :
    (turn.followSpace connection key).actor = turn.actor := by
  unfold followSpace
  cases connection with
  | none => rfl
  | some connection => cases turn.actor.spacesState.space key <;> rfl

theorem publish_republished (key : String) : Republished turn.actor (turn.publish key).actor := by
  unfold publish
  dsimp only [takeApplicationRevision]
  split <;> exact ⟨rfl, rfl, rfl⟩

theorem refreshSpace_republished (key : String) :
    Republished turn.actor (turn.refreshSpace key).actor :=
  (turn.publish_republished key).trans (.of_same (broadcastSpaceSnapshot_same _ key))

theorem reveal_republished (participant : ParticipantState) (oldSpace : Option String) :
    Republished turn.actor (turn.reveal participant oldSpace).actor := by
  cases oldSpace with
  | none => exact turn.refreshSpace_republished participant.space
  | some oldSpace =>
    simp only [reveal]
    split_ifs with hmoved
    · rw [followSpace_actor]
      exact (turn.refreshSpace_republished oldSpace).trans (refreshSpace_republished _ _)
    · exact turn.refreshSpace_republished participant.space

theorem applySpec_republished {participant : ParticipantState} (spec : ParticipantSpec)
    (hget : turn.actor.spacesState.participant participant.participantId = some participant) :
    Republished (turn.setSpaces (turn.actor.spacesState.insertParticipant
      { participant with spec })).actor (turn.applySpec participant.participantId spec).actor := by
  have hfst := refreshSpace_republished ((turn.setSpaces
    (turn.actor.spacesState.insertParticipant { participant with spec })).note
    (.respecified participant.participantId spec.spaceKey.value)) participant.space
  unfold applySpec replaceParticipantSpec
  simp only [hget, Option.map_some]
  split_ifs with hmoved
  · rw [followSpace_actor]
    exact hfst.trans (refreshSpace_republished _ _)
  · exact hfst

theorem dropReplaced_acts (attachment : Attachment) :
    Acts licence turn (turn.dropReplaced attachment) := by
  unfold dropReplaced
  cases attachment.replacedConnection with
  | none => exact .nil turn
  | some previous => exact .act (.told turn rfl)

theorem seat_republished (connection : ConnectionId) (participantId : String) :
    Republished turn.actor (turn.seat connection participantId).actor := by
  unfold seat
  cases turn.actor.spacesState.participant participantId with
  | none => exact ⟨rfl, rfl, rfl⟩
  | some current =>
    refine (turn.refreshSpace_republished current.space).trans (.of_same ?_)
    exact sendStatus_same _ participantId

theorem dropReplaced_actor (attachment : Attachment) :
    (turn.dropReplaced attachment).actor = turn.actor := by
  unfold dropReplaced
  cases attachment.replacedConnection <;> rfl

theorem seat_acts (connection : ConnectionId) (participantId : String) :
    Acts licence turn (turn.seat connection participantId) := by
  unfold seat
  cases turn.actor.spacesState.participant participantId with
  | none => exact .of_asides (routed_asides _ _ (by decide))
  | some current =>
    refine ((refreshSpace_acts _ current.space).append (sendStatus_acts _ participantId)).append ?_
    dsimp only
    split
    · exact .act (.told _ rfl)
    · exact .of_asides (routed_asides _ _ (by decide))

end Turn

/-- A licence that also says which entities may be revised, claimed and released, and whether
connections may depart. -/
structure Warrant extends Licence where
  revises : String → Prop
  claims : String → Prop
  releases : String → Prop
  departs : Prop

structure Warrant.Free (warrant : Warrant) : Prop where
  revises : ∀ id, warrant.revises id
  claims : ∀ id, warrant.claims id
  releases : ∀ id, warrant.releases id
  departs : warrant.departs

def Licence.warrant (licence : Licence) : Warrant where
  toLicence := licence
  revises _ := True
  claims _ := True
  releases _ := True
  departs := True

theorem Licence.warrant_free (licence : Licence) : licence.warrant.Free :=
  ⟨fun _ => trivial, fun _ => trivial, fun _ => trivial, trivial⟩

inductive Dealing (warrant : Warrant) : Turn → Turn → Prop
  | aside {turn turn' : Turn} (haside : Aside turn turn') : Dealing warrant turn turn'
  | materialized (turn : Turn) {key : String} {incarnationId : Bytes}
      (hdrawn : turn.moment.entropy turn.drawn 16 = some incarnationId)
      (hnew : turn.actor.spacesState.containsSpace key = false) :
      Dealing warrant turn ({ turn with drawn := turn.drawn + 1 }.materialize key incarnationId)
  | published (turn : Turn) (key : String) : Dealing warrant turn (turn.publish key)
  | closed (turn : Turn) {key : String} {space : MaterializedSpace}
      (hget : turn.actor.spacesState.space key = some space)
      (hunwanted : turn.actor.spacesState.wanted key = false) :
      Dealing warrant turn ((turn.setSpaces (turn.actor.spacesState.removeSpace key)).note
        (.destroyed space.shard "empty Space grace elapsed"))
  | revised (turn : Turn) {state : OwnershipState} {clientRevision : Nat}
      (hrevises : warrant.revises state.entityId)
      (hget : turn.actor.ownership.get state.entityId = some state)
      (hle : state.clientRevision ≤ clientRevision) :
      Dealing warrant turn
        (turn.setOwnership (turn.actor.ownership.put { state with clientRevision }))
  | respecified (turn : Turn) {participant : ParticipantState} {spec : ParticipantSpec}
      (hrevises : warrant.revises participant.participantId)
      (hget : turn.actor.spacesState.participant participant.participantId = some participant)
      (hhome : warrant.roams ∨ turn.actor.spacesState.containsSpace spec.spaceKey.value = true) :
      Dealing warrant turn (turn.applySpec participant.participantId spec)
  | entered (turn : Turn) (state : OwnershipState) (participant : ParticipantState)
      (credential : String) (hclaims : warrant.claims state.entityId)
      (hnone : turn.actor.ownership.get state.entityId = none)
      (hid : state.entityId = participant.participantId)
      (hlive : turn.actor.coreSessions.contains state.owner = true)
      (havailable : turn.actor.host.bindings.credentialAvailable credential = true)
      (hok : (turn.actor.host.bindings.register participant.participantId credential).1 = .ok ())
      (happlied : participant.appliedSpecRevision = 0)
      (hhome : turn.actor.spacesState.containsSpace participant.space = true) :
      Dealing warrant turn ((((((turn.setOwnership (turn.actor.ownership.put state)).note
        (.claimed participant.participantId)).setBindings
        (turn.actor.host.bindings.register participant.participantId credential).2).setSpaces
        (turn.actor.spacesState.insertParticipant participant)).note
        (.registered participant.participantId)).reveal participant none)
  | replaced (turn : Turn) {middle : Turn} (state : OwnershipState) (participant : ParticipantState)
      (credential : String) {previous : OwnershipState} {former : ParticipantState}
      (hclaims : warrant.claims state.entityId)
      (howned : turn.actor.ownership.get state.entityId = some previous)
      (hget : turn.actor.spacesState.participant participant.participantId = some former)
      (hid : state.entityId = participant.participantId)
      (hlive : turn.actor.coreSessions.contains state.owner = true)
      (havailable : turn.actor.host.bindings.credentialAvailable credential = true)
      (hok : (turn.actor.host.bindings.register participant.participantId credential).1 = .ok ())
      (happlied : participant.appliedSpecRevision = 0)
      (hhome : turn.actor.spacesState.containsSpace participant.space = true)
      (htold : Asides ((turn.setOwnership (turn.actor.ownership.put state)).note
        (.claimed participant.participantId)) middle) :
      Dealing warrant turn ((((middle.setBindings
        (middle.actor.host.bindings.register participant.participantId credential).2).setSpaces
        (middle.actor.spacesState.insertParticipant participant)).note
        (.registered participant.participantId)).reveal participant (some former.space))
  | left (turn : Turn) {id : String} {state : OwnershipState} {participant : ParticipantState}
      (hreleases : warrant.releases id)
      (howned : turn.actor.ownership.get id = some state)
      (hget : turn.actor.spacesState.participant id = some participant) :
      Dealing warrant turn (((((turn.setOwnership
        { turn.actor.ownership with entries := turn.actor.ownership.entries.erase id }).setSpaces
        (turn.actor.spacesState.removeParticipant id)).note (.released id)).revoke id).refreshSpace
        participant.space)
  | seated (turn : Turn) {credential : String} {connection : ConnectionId}
      {attachment : Attachment} {bindings : Bindings}
      (hseats : warrant.seats connection)
      (hattach : turn.actor.host.bindings.attach credential connection = (.ok attachment, bindings)) :
      Dealing warrant turn (((turn.setBindings bindings).dropReplaced attachment).seat connection
        attachment.participantId)
  | disconnected (turn : Turn) {connection : ConnectionId} {id : String}
      {participant : ParticipantState} (hdeparts : warrant.departs)
      (hbound : turn.actor.host.bindings.participant connection = some id)
      (hget : turn.actor.spacesState.participant id = some participant) :
      Dealing warrant turn ((turn.setBindings
        (turn.actor.host.bindings.disconnect connection)).refreshSpace participant.space)
  | muted (turn : Turn) {participant : ParticipantState} (selfMute selfDeaf : Bool)
      (hget : turn.actor.spacesState.participant participant.participantId = some participant) :
      Dealing warrant turn (turn.setSpaces
        (turn.actor.spacesState.insertParticipant { participant with selfMute, selfDeaf }))
  | reported (turn : Turn) {key : String} {revision : Nat} {report : Spaces.ReconcileReport}
      {ids : List String} {spacesState : SpacesState}
      (hreports : warrant.reports)
      (hreconcile : turn.actor.spacesState.reconcile key revision report = some (ids, spacesState)) :
      Dealing warrant turn (turn.setSpaces spacesState)

variable {warrant : Warrant} {turn turn' turn'' : Turn}

theorem Dealing.acts (h : Dealing warrant turn turn') : Acts warrant.toLicence turn turn' := by
  cases h with
  | aside hasd => exact .aside hasd
  | materialized hdrawn hnew =>
    exact append (.aside (.drew turn)) (.act (.materialized _ _ hnew))
  | published key => exact .act (.published turn key)
  | closed hget hunw => exact .act (.closed turn hget hunw)
  | revised hrev hget hle => exact .act (.revised turn hget hle)
  | respecified hrev hget hhome => exact turn.applySpec_acts hget hhome
  | entered state participant credential hcl hnone hid hlive hav hok happ hhome =>
    exact append (.act (.entered turn state participant credential hnone hid hlive hav
      hok happ hhome)) (reveal_acts _ _ _)
  | replaced state participant credential hcl hown hget hid hlive hav hok happ hhome htold =>
    exact append (.act (.replaced turn state participant credential hown hget hid hlive
      hav hok happ hhome htold)) (reveal_acts _ _ _)
  | left hrel hown hget =>
    exact append (.act (.left turn hown hget)) (refreshSpace_acts _ _)
  | seated hseats hattach =>
    exact append (.act (.seated turn hseats hattach))
      ((dropReplaced_acts _ _).append (seat_acts _ _ _))
  | disconnected hdeparts hbd hget =>
    exact append (.act (.disconnected turn _)) (refreshSpace_acts _ _)
  | muted selfMute selfDeaf hget => exact .act (.muted turn selfMute selfDeaf hget)
  | reported hrpt hrcl => exact .act (.reported turn hrpt hrcl)

def Dealings (warrant : Warrant) : Turn → Turn → Prop := Relation.ReflTransGen (Dealing warrant)

variable (h : Dealings warrant turn turn')

namespace Dealings

include h in
theorem acts : Acts warrant.toLicence turn turn' := by
  induction h with
  | refl => exact .nil turn
  | tail _ hdealing ih => exact ih.append hdealing.acts

include h in
theorem coherent (hcoh : Coherent turn.actor) :
    Coherent turn'.actor := h.acts.coherent hcoh

include h in
theorem live (hcoh : Coherent turn.actor) {id : SessionId}
    (hlive : turn.actor.coreSessions.contains id = true) :
    turn'.actor.coreSessions.contains id = true := h.acts.live hcoh hlive

theorem nil (turn : Turn) : Dealings warrant turn turn := .refl

theorem deal (h : Dealing warrant turn turn') : Dealings warrant turn turn' := .single h

include h in
theorem append (h' : Dealings warrant turn' turn'') : Dealings warrant turn turn'' :=
  Relation.ReflTransGen.trans h h'

theorem of_asides (h : Asides turn turn') : Dealings warrant turn turn' := by
  induction h with
  | refl => exact .nil turn
  | tail _ hasd ih => exact ih.append (.deal (.aside hasd))

theorem rejected {asker : SessionId} {requestId : Bytes} {code : CommandErrorCode} {message : String}
    (h : disagreements.contains message = false) :
    Dealings warrant turn (turn.rejectSession asker requestId code message) :=
  .of_asides (turn.rejectSession_asides asker requestId code h)

theorem foldl {α : Type*} {step : Turn → α → Turn} (items : List α)
    (hstep : ∀ turn item, Dealings warrant turn (step turn item)) (turn : Turn) :
    Dealings warrant turn (items.foldl step turn) :=
  Library.reflTransGen_foldl (Q := fun _ => True) items (fun _ => id)
    (fun turn item _ _ => hstep turn item) trivial

theorem foldl_coherent {α : Type*} {step : Turn → α → Turn} (items : List α)
    (hstep : ∀ turn, ∀ item ∈ items, Coherent turn.actor → Dealings warrant turn (step turn item))
    (hcoh : Coherent turn.actor) : Dealings warrant turn (items.foldl step turn) :=
  Library.reflTransGen_foldl items (fun h => Dealings.coherent h) hstep hcoh

include h in
theorem invariant {P : Turn → Prop} (hcoh : Coherent turn.actor)
    (hdealing : ∀ turn turn', Dealing warrant turn turn' → Coherent turn.actor → P turn → P turn')
    (hstart : P turn) : P turn' :=
  Library.reflTransGen_invariant h (fun h => Dealings.coherent h hcoh) hdealing hstart

end Dealings

def Does (warrant : Warrant) (sessionId : SessionId) (turn turn' : Turn) : Prop :=
  Coherent turn.actor → turn.actor.coreSessions.contains sessionId = true →
    Dealings warrant turn turn'

namespace Does

variable {sessionId : SessionId}

include h in
theorem of_dealings : Does warrant sessionId turn turn' :=
  fun _ _ => h

theorem of_asides (h : Asides turn turn') : Does warrant sessionId turn turn' :=
  .of_dealings (.of_asides h)

theorem trans (h : Does warrant sessionId turn turn') (h' : Does warrant sessionId turn' turn'') :
    Does warrant sessionId turn turn'' := by
  intro hcoh hlive
  have hdealings := h hcoh hlive
  exact hdealings.append (h' (hdealings.coherent hcoh) (hdealings.live hcoh hlive))

end Does

inductive Passage (warrant : Warrant) : Turn → Turn → Prop
  | dealt {turn turn' : Turn} (hdealing : Dealing warrant turn turn') : Passage warrant turn turn'
  | ended (turn : Turn) {id : SessionId} (hnothing : turn.actor.ownership.ownedEntities id = []) :
      Passage warrant turn (turn.endSession id)

def Passages (warrant : Warrant) : Turn → Turn → Prop := Relation.ReflTransGen (Passage warrant)

namespace Passages

theorem deeds (h : Passages warrant turn turn') : Deeds warrant.toLicence turn turn' := by
  induction h with
  | refl => exact .refl
  | tail _ hpassage ih =>
    cases hpassage with
    | dealt hdealing => exact ih.append (.of_acts hdealing.acts)
    | ended hnth => exact ih.append (.single (.ended _ hnth))

theorem coherent (h : Passages warrant turn turn') (hcoh : Coherent turn.actor) :
    Coherent turn'.actor := h.deeds.coherent hcoh

include h in
theorem of_dealings : Passages warrant turn turn' := by
  induction h with
  | refl => exact .refl
  | tail _ hdealing ih => exact ih.tail (.dealt hdealing)

theorem of_asides (h : Asides turn turn') : Passages warrant turn turn' :=
  .of_dealings (.of_asides h)

theorem append (h : Passages warrant turn turn') (h' : Passages warrant turn' turn'') :
    Passages warrant turn turn'' :=
  Relation.ReflTransGen.trans h h'

theorem foldl_coherent {α : Type*} {step : Turn → α → Turn} (items : List α)
    (hstep : ∀ turn item, Coherent turn.actor → Passages warrant turn (step turn item))
    (hcoh : Coherent turn.actor) : Passages warrant turn (items.foldl step turn) :=
  Library.reflTransGen_foldl items (fun h => Passages.coherent h)
    (fun turn item _ => hstep turn item) hcoh

end Passages

end MumbleRuntime.SpacesServer
