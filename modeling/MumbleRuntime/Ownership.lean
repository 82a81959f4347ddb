import Mathlib.Data.String.Basic
import MumbleRuntime.Library.OrderedTable

/-!
# The ownership registry

A controller session owns an entity by a registration and a fencing token. A
claim resumes the registration its own session already holds, or acquires the
entity under a new token; only an explicit claim takes an entity from its
owner. Revisions and releases present the token, so what was superseded is
refused for as long as the tokens handed out differ.
-/

namespace MumbleRuntime.Controller

open Library Table

abbrev SessionId := Nat

abbrev Bytes := List UInt8

inductive ClaimMode
  | snapshot
  | explicit
  deriving DecidableEq, Repr

structure ClaimRequest where
  entityId : String
  owner : SessionId
  registrationId : Bytes
  presentedFencingToken : Bytes
  clientRevision : Nat
  newFencingToken : Bytes
  mode : ClaimMode
  deriving DecidableEq, Repr

structure OwnershipState where
  entityId : String
  owner : SessionId
  registrationId : Bytes
  fencingToken : Bytes
  clientRevision : Nat
  deriving DecidableEq, Repr

inductive ClaimOutcome
  | resumed (fencingToken : Bytes) (revisionAdvanced : Bool)
  | acquired (fencingToken : Bytes) (previous : Option OwnershipState)
  deriving DecidableEq, Repr

inductive RevisionOutcome
  | unchanged
  | advanced
  deriving DecidableEq, Repr

inductive OwnershipError
  | invalidClaim
  | snapshotConflict
  | globalLimit
  | ownerLimit
  | fencingTokenCollision
  | notFound
  | ownershipLost
  | staleRevision
  deriving DecidableEq, Repr

def OwnershipError.message : OwnershipError → String
  | .invalidClaim =>
    "entity_id and registration_id must be present, with a fencing token for acquisition"
  | .snapshotConflict => "a snapshot cannot replace current ownership"
  | .globalLimit => "the global ownership limit is reached"
  | .ownerLimit => "the ownership limit for this session is reached"
  | .fencingTokenCollision => "a generated fencing token collides with live state"
  | .notFound => "the entity is not registered"
  | .ownershipLost => "the ownership capability is stale"
  | .staleRevision => "the entity revision moved backwards or changed in place"

structure OwnershipRegistry where
  maximumEntities : Nat
  maximumEntitiesPerOwner : Nat
  entries : Table OwnershipState.entityId

def ClaimRequest.state (request : ClaimRequest) : OwnershipState where
  entityId := request.entityId
  owner := request.owner
  registrationId := request.registrationId
  fencingToken := request.newFencingToken
  clientRevision := request.clientRevision

def OwnershipState.resumable (current : OwnershipState) (request : ClaimRequest) : Bool :=
  current.owner = request.owner && current.registrationId = request.registrationId &&
    (request.mode = .explicit || current.fencingToken = request.presentedFencingToken)

namespace OwnershipRegistry

def new (maximumEntities maximumEntitiesPerOwner : Nat) : OwnershipRegistry where
  maximumEntities := maximumEntities
  maximumEntitiesPerOwner := maximumEntitiesPerOwner
  entries := .empty

def get (registry : OwnershipRegistry) (entityId : String) : Option OwnershipState :=
  registry.entries.get? entityId

def put (registry : OwnershipRegistry) (state : OwnershipState) : OwnershipRegistry :=
  { registry with entries := registry.entries.insert state }

def ownedEntities (registry : OwnershipRegistry) (owner : SessionId) : List String :=
  (registry.entries.rows.filter (fun state => state.owner = owner)).map OwnershipState.entityId

def isEmpty (registry : OwnershipRegistry) : Bool := registry.entries.isEmpty

def acquire (registry : OwnershipRegistry) (request : ClaimRequest) :
    Except OwnershipError ClaimOutcome × OwnershipRegistry :=
  let previous := registry.get request.entityId
  let alreadyOwned := registry.entries.rows.countP (fun state => state.owner = request.owner)
  if previous.isNone && decide (registry.maximumEntities ≤ registry.entries.rows.length) then
    (.error .globalLimit, registry)
  else if previous.all (fun state => state.owner ≠ request.owner) &&
      decide (registry.maximumEntitiesPerOwner ≤ alreadyOwned) then
    (.error .ownerLimit, registry)
  else if request.newFencingToken.isEmpty then
    (.error .invalidClaim, registry)
  else if registry.entries.rows.any (fun state => state.fencingToken = request.newFencingToken) then
    (.error .fencingTokenCollision, registry)
  else
    (.ok (.acquired request.newFencingToken previous), registry.put request.state)

def claim (registry : OwnershipRegistry) (request : ClaimRequest) :
    Except OwnershipError ClaimOutcome × OwnershipRegistry :=
  if request.entityId.isEmpty || request.registrationId.isEmpty then
    (.error .invalidClaim, registry)
  else match registry.get request.entityId with
    | none => registry.acquire request
    | some current =>
      if current.resumable request then
        if request.clientRevision > current.clientRevision then
          (.ok (.resumed current.fencingToken true),
            registry.put { current with clientRevision := request.clientRevision })
        else
          (.ok (.resumed current.fencingToken false), registry)
      else if request.mode = .snapshot then
        (.error .snapshotConflict, registry)
      else
        registry.acquire request

def acceptRevision (registry : OwnershipRegistry) (entityId : String) (owner : SessionId)
    (fencingToken : Bytes) (clientRevision : Nat) (payloadUnchanged : Bool) :
    Except OwnershipError RevisionOutcome × OwnershipRegistry :=
  match registry.get entityId with
  | none => (.error .notFound, registry)
  | some current =>
    if current.owner ≠ owner ∨ current.fencingToken ≠ fencingToken then
      (.error .ownershipLost, registry)
    else if clientRevision < current.clientRevision ∨
        (clientRevision = current.clientRevision ∧ payloadUnchanged = false) then
      (.error .staleRevision, registry)
    else if clientRevision = current.clientRevision then
      (.ok .unchanged, registry)
    else
      (.ok .advanced, registry.put { current with clientRevision := clientRevision })

def release (registry : OwnershipRegistry) (entityId : String) (owner : SessionId)
    (registrationId fencingToken : Bytes) :
    Except OwnershipError OwnershipState × OwnershipRegistry :=
  match registry.get entityId with
  | none => (.error .ownershipLost, registry)
  | some current =>
    if current.owner ≠ owner ∨ current.registrationId ≠ registrationId ∨
        current.fencingToken ≠ fencingToken then
      (.error .ownershipLost, registry)
    else
      (.ok current, { registry with entries := registry.entries.erase entityId })

theorem get_put (registry : OwnershipRegistry) (state : OwnershipState) (entityId : String) :
    (registry.put state).get entityId =
      if entityId = state.entityId then some state else registry.get entityId :=
  get?_insert _ _ _

variable {registry : OwnershipRegistry}

theorem entityId_of_get {entityId : String} {state : OwnershipState}
    (h : registry.get entityId = some state) : state.entityId = entityId :=
  key_of_get? h

theorem mem_ownedEntities {owner : SessionId} {entityId : String} :
    entityId ∈ registry.ownedEntities owner ↔
      ∃ state, registry.get entityId = some state ∧ state.owner = owner := by
  simp only [ownedEntities, List.mem_map, List.mem_filter, decide_eq_true_eq]
  constructor
  · rintro ⟨state, ⟨hmem, howr⟩, rfl⟩
    exact ⟨state, get?_of_mem hmem, howr⟩
  · rintro ⟨state, hget, howr⟩
    exact ⟨state, ⟨mem_of_get? hget, howr⟩, key_of_get? hget⟩

inductive Claimed (registry : OwnershipRegistry) (request : ClaimRequest) :
    Except OwnershipError ClaimOutcome × OwnershipRegistry → Prop
  | refused (error : OwnershipError) : Claimed registry request (.error error, registry)
  | resumed (current : OwnershipState) (revisionAdvanced : Bool)
      (hget : registry.get request.entityId = some current)
      (hresumable : current.resumable request = true)
      (hadvanced : revisionAdvanced = decide (request.clientRevision > current.clientRevision)) :
      Claimed registry request (.ok (.resumed current.fencingToken revisionAdvanced),
        registry.put
          { current with clientRevision := max current.clientRevision request.clientRevision })
  | acquired
      (hexplicit : (registry.get request.entityId).isSome → request.mode = .explicit)
      (hglobal : registry.get request.entityId = none →
        registry.entries.rows.length < registry.maximumEntities)
      (howner : (∀ state, registry.get request.entityId = some state → state.owner ≠ request.owner) →
        registry.entries.rows.countP (fun state => state.owner = request.owner) <
          registry.maximumEntitiesPerOwner)
      (htoken : request.newFencingToken ≠ [])
      (hfresh : ∀ state ∈ registry.entries.rows, state.fencingToken ≠ request.newFencingToken) :
      Claimed registry request
        (.ok (.acquired request.newFencingToken (registry.get request.entityId)),
          registry.put request.state)

theorem acquire_claimed {request : ClaimRequest}
    (hexplicit : (registry.get request.entityId).isSome → request.mode = .explicit) :
    Claimed registry request (registry.acquire request) := by
  simp only [acquire]
  split_ifs with hglobal howr htoken hcollision
  · exact .refused _
  · exact .refused _
  · exact .refused _
  · exact .refused _
  · refine .acquired hexplicit ?_ ?_ (by simpa using htoken) (by simpa using hcollision)
    · intro hnone
      simpa [hnone] using hglobal
    · intro hoth
      have hall : (registry.get request.entityId).all (fun state => state.owner ≠ request.owner) =
          true := by
        cases hget : registry.get request.entityId with
        | none => rfl
        | some state => simpa using hoth state hget
      simp only [hall, Bool.true_and, decide_eq_true_eq, not_le] at howr
      exact howr

theorem claim_claimed (registry : OwnershipRegistry) (request : ClaimRequest) :
    Claimed registry request (registry.claim request) := by
  unfold claim
  by_cases hemp : (request.entityId.isEmpty || request.registrationId.isEmpty) = true
  · rw [if_pos hemp]
    exact .refused _
  rw [if_neg hemp]
  cases hget : registry.get request.entityId with
  | none => exact acquire_claimed (by simp [hget])
  | some current =>
    simp only
    split_ifs with hresumable hadvanced hmode
    · have hmax : max current.clientRevision request.clientRevision = request.clientRevision := by
        omega
      have h := Claimed.resumed current true hget hresumable (by simpa using hadvanced)
      rwa [hmax] at h
    · have hmax : max current.clientRevision request.clientRevision = current.clientRevision := by
        omega
      have h := Claimed.resumed current false hget hresumable (by simpa using hadvanced)
      have hput : registry.put current = registry := by
        have hself := insert_self_of_get? (t := registry.entries)
          (by rwa [entityId_of_get hget] : registry.entries.get? current.entityId = some current)
        simp only [put, hself]
      rw [hmax] at h
      rwa [hput] at h
    · exact .refused _
    · exact acquire_claimed (fun _ => by cases hm : request.mode <;> simp_all)

theorem entityId_of_claim {request : ClaimRequest} {outcome : ClaimOutcome}
    (h : (registry.claim request).1 = .ok outcome) : request.entityId.isEmpty = false := by
  unfold claim at h
  by_contra hemp
  simp [Bool.eq_true_of_not_eq_false hemp] at h

end OwnershipRegistry

end MumbleRuntime.Controller
