import MumbleRuntime.Sessions
import MumbleRuntime.SpaceLogic

/-!
# The state of the Spaces profile

What the participants want and what the Spaces have shown of it. Every refresh of
a Space publishes a new application revision and remembers which revision of each
participant it carries; the report of a render applies them.
-/

namespace MumbleRuntime.Spaces

open Library Controller Table

inductive SpacesValidationError
  | invalidSpaceKey
  | invalidDisplayName
  deriving DecidableEq, Repr

def SpacesValidationError.message : SpacesValidationError → String
  | .invalidSpaceKey => "space_key must contain between 1 and 128 bytes"
  | .invalidDisplayName => "display_name must contain between 1 and 64 characters"

structure SpaceKey where
  value : String
  valid : value ≠ "" ∧ value.utf8ByteSize ≤ 128
  deriving DecidableEq

def SpaceKey.new (value : String) : Except SpacesValidationError SpaceKey :=
  if h : value ≠ "" ∧ value.utf8ByteSize ≤ 128 then .ok ⟨value, h⟩ else .error .invalidSpaceKey

structure ParticipantSpec where
  spaceKey : SpaceKey
  displayName : String
  serverMute : Bool
  serverDeaf : Bool
  valid : displayName ≠ "" ∧ displayName.length ≤ 64
  deriving DecidableEq

def ParticipantSpec.new (spaceKey displayName : String) (serverMute serverDeaf : Bool) :
    Except SpacesValidationError ParticipantSpec :=
  match SpaceKey.new spaceKey with
  | .error error => .error error
  | .ok spaceKey =>
    if h : displayName ≠ "" ∧ displayName.length ≤ 64 then
      .ok ⟨spaceKey, displayName, serverMute, serverDeaf, h⟩
    else .error .invalidDisplayName

structure ParticipantState where
  participantId : String
  appliedSpecRevision : Nat
  appliedSpaceKey : Option String
  publishedGeneration : Nat
  spec : ParticipantSpec
  selfMute : Bool
  selfDeaf : Bool
  applicationError : String
  deriving DecidableEq

def ParticipantState.space (participant : ParticipantState) : String :=
  participant.spec.spaceKey.value

def ParticipantState.registered (participantId : String) (spec : ParticipantSpec)
    (replaced : Option ParticipantState) : ParticipantState where
  participantId := participantId
  appliedSpecRevision := 0
  appliedSpaceKey := replaced.bind ParticipantState.appliedSpaceKey
  publishedGeneration := (replaced.map ParticipantState.publishedGeneration).getD 0
  spec := spec
  selfMute := (replaced.map ParticipantState.selfMute).getD false
  selfDeaf := (replaced.map ParticipantState.selfDeaf).getD false
  applicationError := ""

structure SessionState where
  observedRevision : Nat
  explicitObservations : OrderedSet String

namespace SessionState

def empty : SessionState where
  observedRevision := 0
  explicitObservations := .empty

variable (state : SessionState)

def replaceSnapshotObservations (keys : List String) : SessionState :=
  { state with explicitObservations := keys.foldl (fun set key => set.insert key) .empty }

/-- `none` when the revision moved backwards. -/
def replaceObservations (revision : Nat) (keys : OrderedSet String) : Option SessionState :=
  if revision < state.observedRevision then none
  else some ⟨revision, keys⟩

def observes (spaceKey : String) : Bool := state.explicitObservations.contains spaceKey

end SessionState

structure ReconcileReport where
  version : Nat
  refused : Option String
  deriving DecidableEq, Repr

structure SpaceReconciliation where
  revisions : OrderedMap String Nat
  refusal : Option String
  publishedGeneration : Nat

structure MaterializedSpace where
  spaceKey : String
  shard : ShardId
  incarnationId : Bytes
  spaceRevision : Nat
  publishedGeneration : Nat
  desired : RenderState
  renderHistory : OrderedMap Nat (OrderedMap String Nat)
  closeDeadline : Option Time

namespace MaterializedSpace

def new (spaceKey : String) (shard : ShardId) (incarnationId : Bytes) (desired : RenderState) :
    MaterializedSpace where
  spaceKey := spaceKey
  shard := shard
  incarnationId := incarnationId
  spaceRevision := 0
  publishedGeneration := 0
  desired := desired
  renderHistory := .empty
  closeDeadline := none

variable (space : MaterializedSpace)

def refresh (applicationRevision : Nat) (participants : List RenderParticipant) (now : Time)
    (emptySpaceGrace : Time) : MaterializedSpace :=
  let revisions := participants.foldl (fun revisions participant =>
    OrderedMap.set revisions participant.participantId participant.acceptedRevision) .empty
  { space with
    spaceRevision := saturatingSucc space.spaceRevision
    closeDeadline :=
      if participants.isEmpty then some (space.closeDeadline.getD (now + emptySpaceGrace))
      else none
    renderHistory := space.renderHistory.set applicationRevision revisions
    desired := ⟨applicationRevision, space.spaceKey, participants⟩ }

def reconcile (applicationRevision : Nat) (report : ReconcileReport) :
    Option (SpaceReconciliation × MaterializedSpace) :=
  (space.renderHistory.find? applicationRevision).map fun revisions =>
    (⟨revisions, report.refused, report.version⟩,
      { space with
        publishedGeneration :=
          if report.refused.isNone then report.version else space.publishedGeneration
        renderHistory := space.renderHistory.filter fun entry => entry.1 > applicationRevision })

end MaterializedSpace

structure SpacesState where
  participants : Table ParticipantState.participantId
  materialized : Table MaterializedSpace.spaceKey
  nextApplicationRevision : Nat

structure ParticipantSpecChange where
  previousSpaceKey : String
  desiredSpaceKey : String
  deriving DecidableEq, Repr

inductive ParticipantEventOutcome
  | participantMissing
  | wrongSpace
  | applied (disconnect refresh : Bool)
  deriving DecidableEq, Repr

def ParticipantState.applied (participant : ParticipantState) (spaceKey : String)
    (reconciliation : SpaceReconciliation) (appliedRevision : Nat) : ParticipantState :=
  match reconciliation.refusal with
  | some error => { participant with applicationError := error }
  | none =>
    { participant with
      appliedSpecRevision := max participant.appliedSpecRevision appliedRevision
      appliedSpaceKey := some spaceKey
      publishedGeneration := reconciliation.publishedGeneration
      applicationError := "" }

variable {report : ReconcileReport}

namespace SpacesState

def new : SpacesState where
  participants := .empty
  materialized := .empty
  nextApplicationRevision := 1

variable (state : SpacesState)

def takeApplicationRevision : Nat × SpacesState :=
  (state.nextApplicationRevision,
    { state with nextApplicationRevision := saturatingSucc state.nextApplicationRevision })

def containsParticipant (participantId : String) : Bool :=
  state.participants.contains participantId

def participantCount : Nat := state.participants.rows.length

def participant (participantId : String) : Option ParticipantState :=
  state.participants.get? participantId

def insertParticipant (participant : ParticipantState) : SpacesState :=
  { state with participants := state.participants.insert participant }

def removeParticipant (participantId : String) : SpacesState :=
  { state with participants := state.participants.erase participantId }

def containsSpace (spaceKey : String) : Bool := state.materialized.contains spaceKey

def spaceCount : Nat := state.materialized.rows.length

def space (spaceKey : String) : Option MaterializedSpace := state.materialized.get? spaceKey

def insertSpace (space : MaterializedSpace) : SpacesState :=
  { state with materialized := state.materialized.insert space }

def removeSpace (spaceKey : String) : SpacesState :=
  { state with materialized := state.materialized.erase spaceKey }

def wanted (spaceKey : String) : Bool :=
  state.participants.rows.any fun participant => participant.space = spaceKey

def replaceParticipantSpec (participantId : String) (spec : ParticipantSpec) :
    Option (ParticipantSpecChange × SpacesState) :=
  (state.participant participantId).map fun participant =>
    (⟨participant.space, spec.spaceKey.value⟩, state.insertParticipant { participant with spec })

def applyParticipantEvent (participantId spaceKey : String) (kind : SpaceEventKind) :
    ParticipantEventOutcome × SpacesState :=
  match state.participant participantId with
  | none => (.participantMissing, state)
  | some participant =>
    if participant.space ≠ spaceKey then (.wrongSpace, state)
    else match kind with
      | .connected => (.applied false false, state)
      | .disconnected => (.applied true true, state)
      | .selfState selfMute selfDeaf =>
        (.applied false true, state.insertParticipant { participant with selfMute, selfDeaf })

def applyRevision (spaceKey : String) (reconciliation : SpaceReconciliation) (participantId : String)
    (appliedRevision : Nat) : SpacesState :=
  match state.participant participantId with
  | none => state
  | some participant =>
    if participant.space ≠ spaceKey then state
    else state.insertParticipant (participant.applied spaceKey reconciliation appliedRevision)

def applyReconciliation (spaceKey : String) (reconciliation : SpaceReconciliation) :
    List String × SpacesState :=
  (reconciliation.revisions.rows.map Prod.fst,
    reconciliation.revisions.rows.foldl (fun state entry =>
      state.applyRevision spaceKey reconciliation entry.1 entry.2) state)

def reconcile (spaceKey : String) (applicationRevision : Nat) (report : ReconcileReport) :
    Option (List String × SpacesState) :=
  (state.space spaceKey).bind fun space =>
    (space.reconcile applicationRevision report).map fun (reconciliation, space) =>
      (state.insertSpace space).applyReconciliation spaceKey reconciliation

variable {state}

theorem containsParticipant_iff {id : String} :
    state.containsParticipant id = true ↔ ∃ participant, state.participant id = some participant :=
  contains_iff

theorem participant_insertParticipant (participant : ParticipantState) (id : String) :
    (state.insertParticipant participant).participant id =
      if id = participant.participantId then some participant else state.participant id :=
  get?_insert _ _ _

theorem participant_removeParticipant (id other : String) :
    (state.removeParticipant id).participant other =
      if other = id then none else state.participant other :=
  get?_erase _ _ _

theorem containsParticipant_insertParticipant (participant : ParticipantState) (id : String) :
    (state.insertParticipant participant).containsParticipant id =
      (decide (id = participant.participantId) || state.containsParticipant id) := by
  simp only [containsParticipant, contains, insertParticipant, get?_insert]
  split_ifs with hid <;> simp [hid]

theorem containsParticipant_removeParticipant (id other : String) :
    (state.removeParticipant id).containsParticipant other =
      (!decide (other = id) && state.containsParticipant other) := by
  simp only [containsParticipant, contains, removeParticipant, get?_erase]
  split_ifs with hoth <;> simp [hoth]

theorem containsSpace_insertSpace (space : MaterializedSpace) (key : String) :
    (state.insertSpace space).containsSpace key =
      (decide (key = space.spaceKey) || state.containsSpace key) := by
  simp only [containsSpace, contains, insertSpace, get?_insert]
  split_ifs with hkey <;> simp [hkey]

theorem containsSpace_removeSpace (key other : String) :
    (state.removeSpace key).containsSpace other =
      (!decide (other = key) && state.containsSpace other) := by
  simp only [containsSpace, contains, removeSpace, get?_erase]
  split_ifs with hoth <;> simp [hoth]

def entryApplied (spaceKey : String) (reconciliation : SpaceReconciliation) (appliedRevision : Nat)
    (participant : ParticipantState) : ParticipantState :=
  if participant.space ≠ spaceKey then participant
  else participant.applied spaceKey reconciliation appliedRevision

section

variable (spaceKey : String) (reconciliation : SpaceReconciliation)

include spaceKey reconciliation

@[simp] theorem entryApplied_participantId (appliedRevision : Nat)
    (participant : ParticipantState) :
    (entryApplied spaceKey reconciliation appliedRevision participant).participantId =
      participant.participantId := by
  unfold entryApplied ParticipantState.applied
  split_ifs
  · rfl
  · cases reconciliation.refusal <;> rfl

@[simp] theorem entryApplied_spec (appliedRevision : Nat) (participant : ParticipantState) :
    (entryApplied spaceKey reconciliation appliedRevision participant).spec =
      participant.spec := by
  unfold entryApplied ParticipantState.applied
  split_ifs
  · rfl
  · cases reconciliation.refusal <;> rfl

theorem participant_applyRevision (id : String) (appliedRevision : Nat) (other : String) :
    (state.applyRevision spaceKey reconciliation id appliedRevision).participant other =
      if other = id then
        (state.participant other).map (entryApplied spaceKey reconciliation appliedRevision)
      else state.participant other := by
  unfold applyRevision
  cases hget : state.participant id with
  | none =>
    split_ifs with hoth
    · simp [hoth, hget]
    · rfl
  | some participant =>
    have hid : participant.participantId = id := key_of_get? hget
    have hself : state.participants.get? participant.participantId = some participant := by
      rwa [hid]
    have hentry : (if participant.space ≠ spaceKey then state
        else state.insertParticipant
          (participant.applied spaceKey reconciliation appliedRevision)) =
        state.insertParticipant (entryApplied spaceKey reconciliation appliedRevision participant) := by
      unfold entryApplied
      split_ifs with hsp
      · simp only [insertParticipant, insert_self_of_get? hself]
      · rfl
    dsimp only
    rw [hentry]
    simp only [SpacesState.participant, insertParticipant, get?_insert,
      entryApplied_participantId, hid]
    split_ifs with hoth
    · simp only [SpacesState.participant] at hget
      simp [hoth, hget]
    · rfl

theorem materialized_applyRevision (id : String) (appliedRevision : Nat) :
    (state.applyRevision spaceKey reconciliation id appliedRevision).materialized =
      state.materialized := by
  unfold applyRevision
  cases state.participant id with
  | none => rfl
  | some participant =>
    dsimp only
    split_ifs <;> rfl

theorem materialized_applyReconciliation :
    (state.applyReconciliation spaceKey reconciliation).2.materialized = state.materialized := by
  unfold applyReconciliation
  generalize reconciliation.revisions.rows = entries
  induction entries generalizing state with
  | nil => rfl
  | cons entry entries ih => rw [List.foldl_cons, ih, materialized_applyRevision]

theorem participant_applyReconciliation (id : String) :
    (state.applyReconciliation spaceKey reconciliation).2.participant id =
      match reconciliation.revisions.find? id with
      | some appliedRevision =>
        (state.participant id).map (entryApplied spaceKey reconciliation appliedRevision)
      | none => state.participant id := by
  unfold applyReconciliation OrderedMap.find? get?
  have hnd := reconciliation.revisions.keys_nodup
  generalize reconciliation.revisions.rows = entries at hnd ⊢
  induction entries generalizing state with
  | nil => rfl
  | cons entry entries ih =>
    rw [List.map_cons, List.nodup_cons] at hnd
    rw [List.foldl_cons, ih hnd.2, participant_applyRevision, List.find?_cons]
    by_cases hid : entry.1 = id
    · have hnone : entries.find? (fun entry => decide (entry.1 = id)) = none := by
        rw [List.find?_eq_none]
        intro other hoth heq
        refine hnd.1 (List.mem_map.mpr ⟨other, hoth, ?_⟩)
        rw [hid]
        simpa using heq
      simp [hid, hnone]
    · simp [hid, Ne.symm hid]

end

structure Reconciled (state : SpacesState) (spaceKey : String) (applicationRevision : Nat)
    (report : ReconcileReport) (space : MaterializedSpace) (revisions : OrderedMap String Nat)
    (ids : List String) (state' : SpacesState) : Prop where
  space_eq : state.space spaceKey = some space
  carried : space.renderHistory.find? applicationRevision = some revisions
  ids_eq : ids = revisions.rows.map Prod.fst
  participant_eq : ∀ id, state'.participant id =
    match revisions.find? id with
    | some appliedRevision => (state.participant id).map
        (entryApplied spaceKey ⟨revisions, report.refused, report.version⟩ appliedRevision)
    | none => state.participant id
  materialized_eq : state'.materialized = state.materialized.insert
    { space with
      publishedGeneration :=
        if report.refused.isNone then report.version else space.publishedGeneration
      renderHistory := space.renderHistory.filter fun entry => entry.1 > applicationRevision }
  nextApplicationRevision_eq : state'.nextApplicationRevision = state.nextApplicationRevision

def heard (space : MaterializedSpace) (applicationRevision : Nat) (report : ReconcileReport) :
    MaterializedSpace :=
  { space with
    publishedGeneration :=
      if report.refused.isNone then report.version else space.publishedGeneration
    renderHistory := space.renderHistory.filter fun entry => entry.1 > applicationRevision }

variable {spaceKey : String} {applicationRevision : Nat} {ids : List String} {state' : SpacesState}

theorem Reconciled.space_after {space : MaterializedSpace} {revisions : OrderedMap String Nat}
    (h : state.Reconciled spaceKey applicationRevision report space revisions ids state')
    (other : String) : state'.space other =
      if other = spaceKey then some (heard space applicationRevision report)
      else state.space other := by
  have hkey : space.spaceKey = spaceKey := key_of_get? h.space_eq
  have hinsert : state'.materialized =
      state.materialized.insert (heard space applicationRevision report) := h.materialized_eq
  rw [SpacesState.space, hinsert, get?_insert, heard, hkey]
  rfl

theorem nextApplicationRevision_applyReconciliation (spaceKey : String)
    (reconciliation : SpaceReconciliation) :
    (state.applyReconciliation spaceKey reconciliation).2.nextApplicationRevision =
      state.nextApplicationRevision := by
  unfold applyReconciliation
  generalize reconciliation.revisions.rows = entries
  induction entries generalizing state with
  | nil => rfl
  | cons entry entries ih =>
    rw [List.foldl_cons, ih]
    unfold applyRevision
    cases state.participant entry.1 with
    | none => rfl
    | some participant =>
      dsimp only
      split_ifs <;> rfl

theorem reconcile_reconciled
    (h : state.reconcile spaceKey applicationRevision report = some (ids, state')) :
    ∃ space revisions,
      state.Reconciled spaceKey applicationRevision report space revisions ids state' := by
  obtain ⟨space, hsp, hrcl⟩ := Option.bind_eq_some_iff.mp h
  obtain ⟨⟨reconciliation, space'⟩, hpair, happly⟩ := Option.map_eq_some_iff.mp hrcl
  obtain ⟨revisions, hrevisions, heq⟩ := Option.map_eq_some_iff.mp hpair
  obtain ⟨rfl, rfl⟩ := heq
  have hids := congrArg Prod.fst happly
  have hst := congrArg Prod.snd happly
  dsimp only at hids hst
  refine ⟨space, revisions, hsp, hrevisions, hids.symm, ?_, ?_, ?_⟩
  · intro id
    rw [← hst, participant_applyReconciliation]
    rfl
  · rw [← hst, materialized_applyReconciliation]
    rfl
  · rw [← hst, nextApplicationRevision_applyReconciliation]
    rfl

theorem Reconciled.containsParticipant_eq {space : MaterializedSpace}
    {revisions : OrderedMap String Nat}
    (h : state.Reconciled spaceKey applicationRevision report space revisions ids state')
    (id : String) : state'.containsParticipant id = state.containsParticipant id := by
  have hpart := congrArg Option.isSome (h.participant_eq id)
  change (state'.participant id).isSome = (state.participant id).isSome
  cases hfind : revisions.find? id with
  | none
  | some appliedRevision => simpa [hfind] using hpart

end SpacesState

end MumbleRuntime.Spaces
