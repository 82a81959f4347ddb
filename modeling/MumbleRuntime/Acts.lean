import MumbleRuntime.Asides

/-!
# What the actor does to its state

A turn of the actor is a sequence of acts: those aside, which touch sessions,
streams and answers only, and those on the entities and Spaces. Every act keeps the
registries in agreement, so a turn that starts with registries that agree never
owns up to registries that do not.
-/

namespace MumbleRuntime.SpacesServer

open Library Controller Spaces SpacesState SpacesServer.Effect Turn MaterializedSpace

/-- What a turn may do: replace a spec by one whose Space need not exist, seat a connection, apply
the report of a render. -/
structure Licence where
  roams : Prop
  seats : ConnectionId → Prop
  reports : Prop

def Licence.any : Licence where
  roams := True
  seats _ := True
  reports := True

inductive Act (licence : Licence) : Turn → Turn → Prop
  | aside {turn turn' : Turn} (haside : Aside turn turn') : Act licence turn turn'
  | told (turn : Turn) {effect : Effect} (hleads : effect.leads = true) :
      Act licence turn (turn.note effect)
  | materialized (turn : Turn) {key : String} (incarnationId : Bytes)
      (hnew : turn.actor.spacesState.containsSpace key = false) :
      Act licence turn (turn.materialize key incarnationId)
  | published (turn : Turn) (key : String) : Act licence turn (turn.publish key)
  | closed (turn : Turn) {key : String} {space : MaterializedSpace}
      (hget : turn.actor.spacesState.space key = some space)
      (hunwanted : turn.actor.spacesState.wanted key = false) :
      Act licence turn ((turn.setSpaces (turn.actor.spacesState.removeSpace key)).note
        (.destroyed space.shard "empty Space grace elapsed"))
  | revised (turn : Turn) {state : OwnershipState} {clientRevision : Nat}
      (hget : turn.actor.ownership.get state.entityId = some state)
      (hle : state.clientRevision ≤ clientRevision) :
      Act licence turn (turn.setOwnership (turn.actor.ownership.put { state with clientRevision }))
  | respecified (turn : Turn) {participant : ParticipantState} {spec : ParticipantSpec}
      (hget : turn.actor.spacesState.participant participant.participantId = some participant)
      (hhome : licence.roams ∨ turn.actor.spacesState.containsSpace spec.spaceKey.value = true) :
      Act licence turn ((turn.setSpaces
        (turn.actor.spacesState.insertParticipant { participant with spec })).note
        (.respecified participant.participantId spec.spaceKey.value))
  | entered (turn : Turn) (state : OwnershipState) (participant : ParticipantState)
      (credential : String) (hnone : turn.actor.ownership.get state.entityId = none)
      (hid : state.entityId = participant.participantId)
      (hlive : turn.actor.coreSessions.contains state.owner = true)
      (havailable : turn.actor.host.bindings.credentialAvailable credential = true)
      (hok : (turn.actor.host.bindings.register participant.participantId credential).1 = .ok ())
      (happlied : participant.appliedSpecRevision = 0)
      (hhome : turn.actor.spacesState.containsSpace participant.space = true) :
      Act licence turn (((((turn.setOwnership (turn.actor.ownership.put state)).note
        (.claimed participant.participantId)).setBindings
        (turn.actor.host.bindings.register participant.participantId credential).2).setSpaces
        (turn.actor.spacesState.insertParticipant participant)).note
        (.registered participant.participantId))
  | replaced (turn : Turn) {middle : Turn} (state : OwnershipState) (participant : ParticipantState)
      (credential : String) {previous : OwnershipState} {former : ParticipantState}
      (howned : turn.actor.ownership.get state.entityId = some previous)
      (hget : turn.actor.spacesState.participant participant.participantId = some former)
      (hid : state.entityId = participant.participantId)
      (hlive : turn.actor.coreSessions.contains state.owner = true)
      (havailable : turn.actor.host.bindings.credentialAvailable credential = true)
      (hok : (turn.actor.host.bindings.register participant.participantId credential).1 = .ok ())
      (happlied : participant.appliedSpecRevision = 0)
      (hhome : turn.actor.spacesState.containsSpace participant.space = true)
      (htold : Asides ((turn.setOwnership (turn.actor.ownership.put state)).note
        (.claimed participant.participantId)) middle) :
      Act licence turn (((middle.setBindings
        (middle.actor.host.bindings.register participant.participantId credential).2).setSpaces
        (middle.actor.spacesState.insertParticipant participant)).note
        (.registered participant.participantId))
  | left (turn : Turn) {id : String} {state : OwnershipState} {participant : ParticipantState}
      (howned : turn.actor.ownership.get id = some state)
      (hget : turn.actor.spacesState.participant id = some participant) :
      Act licence turn ((((turn.setOwnership
        { turn.actor.ownership with entries := turn.actor.ownership.entries.erase id }).setSpaces
        (turn.actor.spacesState.removeParticipant id)).note (.released id)).revoke id)
  | seated (turn : Turn) {credential : String} {connection : ConnectionId}
      {attachment : Attachment} {bindings : Bindings}
      (hseats : licence.seats connection)
      (hattach : turn.actor.host.bindings.attach credential connection = (.ok attachment, bindings)) :
      Act licence turn (turn.setBindings bindings)
  | disconnected (turn : Turn) (connection : ConnectionId) :
      Act licence turn (turn.setBindings (turn.actor.host.bindings.disconnect connection))
  | muted (turn : Turn) {participant : ParticipantState} (selfMute selfDeaf : Bool)
      (hget : turn.actor.spacesState.participant participant.participantId = some participant) :
      Act licence turn (turn.setSpaces
        (turn.actor.spacesState.insertParticipant { participant with selfMute, selfDeaf }))
  | reported (turn : Turn) {key : String} {revision : Nat} {report : Spaces.ReconcileReport}
      {ids : List String} {spacesState : SpacesState}
      (hreports : licence.reports)
      (hreconcile : turn.actor.spacesState.reconcile key revision report = some (ids, spacesState)) :
      Act licence turn (turn.setSpaces spacesState)

variable {p : Effect → Bool}

namespace Turn

variable (turn : Turn) (key : String)

theorem publish_participants :
    (turn.publish key).actor.spacesState.participants = turn.actor.spacesState.participants := by
  unfold publish
  dsimp only [takeApplicationRevision]
  split <;> rfl

theorem publish_coherent (h : Coherent turn.actor) : Coherent (turn.publish key).actor := by
  have hent : EntitiesAgree turn.actor.ownership (turn.publish key).actor.spacesState
      turn.actor.host.bindings :=
    h.entities.spaces_congr fun id => by
      simp only [containsParticipant, publish_participants]
  unfold publish at hent ⊢
  dsimp only at hent ⊢
  split at hent <;> exact ⟨hent, h.sessions, h.live⟩

theorem publish_logs (hp : ∀ shard state, p (.published shard state) = true) :
    turn.Logs (turn.publish key) p := by
  unfold publish
  dsimp only
  split
  · exact .of_eq rfl
  · exact .note rfl (hp _ _)

theorem publish_reliable : (turn.publish key).actor.reliable = turn.actor.reliable := by
  unfold publish
  dsimp only
  split <;> rfl

theorem revoke_logs (id : String)
    (hp : ∀ connection, p (.closedConnection connection) = true) : turn.Logs
    (turn.revoke id) p := by
  unfold revoke
  dsimp only
  split
  · exact .note rfl (hp _)
  · exact .of_eq rfl

theorem revoke_actor (id : String) :
    (turn.revoke id).actor = (turn.setBindings (turn.actor.host.bindings.remove id).2).actor := by
  unfold revoke
  dsimp only
  cases (turn.actor.host.bindings.remove id).1 <;> rfl

end Turn

structure Published (turn : Turn) (key : String) (space : MaterializedSpace) (turn' : Turn) : Prop
    where
  space_eq : ∀ other, turn'.actor.spacesState.space other =
    if other = key then some (space.refresh turn.actor.spacesState.nextApplicationRevision
      (turn.actor.renderParticipants key) turn.moment.now turn.actor.config.emptySpaceGrace)
    else turn.actor.spacesState.space other
  next_eq : turn'.actor.spacesState.nextApplicationRevision =
    saturatingSucc turn.actor.spacesState.nextApplicationRevision
  participants_eq : turn'.actor.spacesState.participants = turn.actor.spacesState.participants
  ownership_eq : turn'.actor.ownership = turn.actor.ownership
  host_eq : turn'.actor.host = turn.actor.host
  log_eq : turn'.log = turn.log ++ [.published space.shard
    ⟨turn.actor.spacesState.nextApplicationRevision, key, turn.actor.renderParticipants key⟩]

theorem Turn.publish_published {turn : Turn} {key : String} {space : MaterializedSpace}
    (hsp : turn.actor.spacesState.space key = some space) :
    Published turn key space (turn.publish key) := by
  have hkey : space.spaceKey = key := Table.key_of_get? hsp
  have htkn : turn.actor.spacesState.takeApplicationRevision.2.space key = some space := hsp
  unfold publish
  dsimp only
  rw [htkn]
  refine ⟨fun other => ?_, rfl, rfl, rfl, rfl, ?_⟩
  · exact (Table.get?_insert _ _ _).trans (by simp only [refresh, hkey]; rfl)
  · simp only [note, refresh, hkey]
    rfl

theorem Turn.publish_absent {turn : Turn} {key : String}
    (hsp : turn.actor.spacesState.space key = none) :
    turn.publish key = turn.setSpaces turn.actor.spacesState.takeApplicationRevision.2 := by
  have htkn : turn.actor.spacesState.takeApplicationRevision.2.space key = none := hsp
  unfold publish
  dsimp only
  rw [htkn]

theorem Turn.publish_space (turn : Turn) (key other : String) :
    (turn.publish key).actor.spacesState.space other =
      if other = key then (turn.actor.spacesState.space key).map fun space =>
        space.refresh turn.actor.spacesState.nextApplicationRevision
          (turn.actor.renderParticipants key) turn.moment.now turn.actor.config.emptySpaceGrace
      else turn.actor.spacesState.space other := by
  cases hsp : turn.actor.spacesState.space key with
  | none =>
    rw [publish_absent hsp]
    split_ifs with hoth
    · rw [hoth]
      exact hsp
    · rfl
  | some space => exact (publish_published hsp).space_eq other

namespace Act

variable {licence : Licence} {turn turn' : Turn}

theorem coherent (h : Act licence turn turn') (hcoh : Coherent turn.actor) :
    Coherent turn'.actor := by
  have hent := hcoh.entities
  cases h with
  | aside hasd => exact hasd.coherent hcoh
  | told hleads => exact hcoh
  | materialized incarnationId hnew
  | closed hget hunw =>
    exact ⟨hent.spaces_congr fun _ => rfl, hcoh.sessions, hcoh.live⟩
  | published key => exact turn.publish_coherent key hcoh
  | @revised state clientRevision hget hle =>
    have hlive := hcoh.live state.entityId state hget
    exact ⟨hent.put (by simp [hget]), hcoh.sessions, hcoh.live_put hlive⟩
  | respecified hget hhome
  | muted selfMute selfDeaf hget =>
    have hheld := containsParticipant_iff.mpr ⟨_, hget⟩
    exact ⟨hent.insertParticipant hheld, hcoh.sessions, hcoh.live⟩
  | entered state participant credential hnone hid hlive hav hok happ hhome =>
    exact ⟨hent.enter hid hok, hcoh.sessions, hcoh.live_put hlive⟩
  | @replaced middle state participant credential previous former hown hget hid hlive hav
      hok happ hhome htold =>
    have hclm := hcoh.claim hown hlive
    have hsame := htold.same hclm
    have hmiddle := htold.coherent hclm
    have hhost : middle.actor.host = turn.actor.host := hsame.host
    have hsps : middle.actor.spacesState = turn.actor.spacesState := hsame.spacesState
    have hheld : middle.actor.spacesState.containsParticipant participant.participantId = true := by
      rw [hsps]
      exact containsParticipant_iff.mpr ⟨_, hget⟩
    rw [← hhost] at hok
    have hrebound := hmiddle.entities.register
      ((hmiddle.entities.bound participant.participantId).trans hheld) hok
    exact ⟨hrebound.insertParticipant hheld, hmiddle.sessions, hmiddle.live⟩
  | @left id state participant hown hget =>
    rw [revoke_actor]
    refine ⟨hent.leave id, hcoh.sessions, fun other state hst => ?_⟩
    change (turn.actor.ownership.entries.erase id).get? other = some state at hst
    rw [Table.get?_erase] at hst
    split_ifs at hst
    exact hcoh.live other state hst
  | seated hseats hattach =>
    have hatt := Bindings.attach_attached hattach
    exact ⟨hent.bindings_congr hatt.contains_eq (hatt.consistent hent.consistent),
      hcoh.sessions, hcoh.live⟩
  | disconnected connection =>
    have hcons := hent.consistent
    exact ⟨hent.bindings_congr hcons.contains_disconnect
      (hcons.disconnect connection), hcoh.sessions, hcoh.live⟩
  | reported hrpt hrcl =>
    obtain ⟨space, revisions, hrec⟩ := reconcile_reconciled hrcl
    exact ⟨hent.spaces_congr hrec.containsParticipant_eq, hcoh.sessions, hcoh.live⟩

theorem logs_of (h : Act licence turn turn') (hcoh : Coherent turn.actor)
    (hqt : ∀ effect : Effect, effect.quiet = true → p effect = true)
    (hpub : ∀ key, turn.Logs (turn.publish key) p) : turn.Logs turn' p := by
  cases h with
  | aside hasd =>
    exact (hasd.logs hcoh).mono fun effect hplain =>
      hqt effect (quiet_of_plain hplain)
  | @told effect hleads =>
    refine .note rfl (hqt effect ?_)
    cases effect <;> simp_all [leads, quiet, disagrees]
    rename_i decision
    cases decision <;> simp_all
  | materialized incarnationId hnew
  | closed hget hunw
  | respecified hget hhome => exact .note rfl (hqt _ rfl)
  | published key => exact hpub key
  | @entered state participant credential hnone hid hlive hav hok happ hhome =>
    have hclm : turn.Logs (turn.note (.claimed participant.participantId)) p :=
      .note rfl (hqt _ rfl)
    exact hclm.trans (.note rfl (hqt (.registered participant.participantId) rfl))
  | @replaced middle state participant credential previous former hown hget hid hlive hav
      hok happ hhome htold =>
    have hclm : turn.Logs ((turn.setOwnership (turn.actor.ownership.put state)).note
        (.claimed participant.participantId)) p := .note rfl (hqt _ rfl)
    have hplain := (htold.logs (hcoh.claim hown hlive)).mono fun effect hplain =>
      hqt effect (quiet_of_plain hplain)
    exact (hclm.trans hplain).trans (.note rfl (hqt (.registered participant.participantId) rfl))
  | @left id state participant hown hget =>
    have hreleased : turn.Logs (turn.note (.released id)) p := .note rfl (hqt _ rfl)
    exact hreleased.trans (revoke_logs _ id fun _ => hqt _ rfl)
  | _ => exact .of_eq rfl

theorem logs (h : Act licence turn turn') (hcoh : Coherent turn.actor) :
    turn.Logs turn' fun effect => !effect.disagrees := by
  refine h.logs_of hcoh (fun effect hqt => ?_) fun key =>
    turn.publish_logs key fun _ _ => rfl
  cases effect <;> simp_all [quiet, disagrees]

end Act

def Acts (licence : Licence) : Turn → Turn → Prop := Relation.ReflTransGen (Act licence)

namespace Acts

variable {licence : Licence} {turn turn' : Turn}

theorem coherent (h : Acts licence turn turn') (hcoh : Coherent turn.actor) :
    Coherent turn'.actor := by
  induction h with
  | refl => exact hcoh
  | tail _ hact ih => exact hact.coherent ih

end Acts

theorem Act.live {licence : Licence} {turn turn' : Turn} (h : Act licence turn turn')
    (hcoh : Coherent turn.actor) {id : SessionId}
    (hlive : turn.actor.coreSessions.contains id = true) :
    turn'.actor.coreSessions.contains id = true := by
  cases h with
  | aside hasd => exact hasd.live hcoh hlive
  | published key =>
    unfold publish
    dsimp only
    split <;> exact hlive
  | left hown hget =>
    rw [revoke_actor]
    exact hlive
  | replaced state participant credential hown hget hid hlive' hav hok happ hhome htold =>
    exact htold.live (hcoh.claim hown hlive') hlive
  | _ => exact hlive

namespace Acts

variable {licence : Licence} {turn turn' turn'' : Turn}

theorem live (h : Acts licence turn turn') (hcoh : Coherent turn.actor) {id : SessionId}
    (hlive : turn.actor.coreSessions.contains id = true) :
    turn'.actor.coreSessions.contains id = true := by
  induction h with
  | refl => exact hlive
  | tail hacts hact ih => exact hact.live (Acts.coherent hacts hcoh) ih

theorem nil (turn : Turn) : Acts licence turn turn := .refl

theorem act (h : Act licence turn turn') : Acts licence turn turn' := .single h

theorem aside (h : Aside turn turn') : Acts licence turn turn' := act (.aside h)

theorem append (h : Acts licence turn turn')
    (h' : Acts licence turn' turn'') : Acts licence turn turn'' :=
  Relation.ReflTransGen.trans h h'

end Acts

inductive Deed (licence : Licence) : Turn → Turn → Prop
  | act {turn turn' : Turn} (hact : Act licence turn turn') : Deed licence turn turn'
  | ended (turn : Turn) {id : SessionId} (hnothing : turn.actor.ownership.ownedEntities id = []) :
      Deed licence turn (turn.endSession id)

def Deeds (licence : Licence) : Turn → Turn → Prop := Relation.ReflTransGen (Deed licence)

namespace Deeds

variable {licence : Licence} {turn turn' turn'' : Turn}

theorem of_acts (h : Acts licence turn turn') : Deeds licence turn turn' := by
  induction h with
  | refl => exact .refl
  | tail _ hact ih => exact ih.tail (.act hact)

section

variable (h : Deeds licence turn turn')

include h

theorem append (h' : Deeds licence turn' turn'') : Deeds licence turn turn'' :=
  Relation.ReflTransGen.trans h h'

theorem coherent (hcoh : Coherent turn.actor) : Coherent turn'.actor := by
  induction h with
  | refl => exact hcoh
  | tail _ hdeed ih =>
    cases hdeed with
    | act hact => exact hact.coherent ih
    | ended hnth => exact ih.endSession hnth

theorem invariant {P : Turn → Prop} (hcoh : Coherent turn.actor)
    (hdeed : ∀ turn turn', Deed licence turn turn' → Coherent turn.actor → P turn → P turn')
    (hstart : P turn) : P turn' :=
  Library.reflTransGen_invariant h (fun hdeeds => Deeds.coherent hdeeds hcoh) hdeed hstart

theorem logs (hcoh : Coherent turn.actor) : turn.Logs turn' fun effect => !effect.disagrees := by
  refine h.invariant (P := fun turn' => turn.Logs turn' fun effect => !effect.disagrees) hcoh
    ?_ (.of_eq rfl)
  intro turn turn' hdeed hcoh hlogs
  cases hdeed with
  | act hact => exact hlogs.trans (hact.logs hcoh)
  | ended hnth => exact hlogs.trans (.of_eq rfl)

end

end Deeds

end MumbleRuntime.SpacesServer
