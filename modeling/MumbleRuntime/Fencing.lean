import Mathlib.Data.List.Induction
import Mathlib.Data.List.Perm.Basic
import MumbleRuntime.Ownership

/-!
# Fencing over whole histories of the registry

Every call either leaves an entity's entry in place, raising its revision at
most, or acquires the entity under the token it brought. The acquisitions of a
run therefore list the tokens of an entity in the order in which they were
current, and the entry holds the last of them: with tokens that never repeat, a
superseded token is never current again.
-/

namespace MumbleRuntime.Controller

open Library OwnershipRegistry Table List

inductive Call
  | claim (request : ClaimRequest)
  | acceptRevision (entityId : String) (owner : SessionId) (fencingToken : Bytes)
      (clientRevision : Nat) (payloadUnchanged : Bool)
  | release (entityId : String) (owner : SessionId) (registrationId fencingToken : Bytes)
  deriving DecidableEq, Repr

inductive Reply
  | claimed (result : Except OwnershipError ClaimOutcome)
  | revised (result : Except OwnershipError RevisionOutcome)
  | released (result : Except OwnershipError OwnershipState)

def Reply.refused : Reply → Bool
  | .claimed (.error _) | .revised (.error _) | .released (.error _) => true
  | _ => false

def Call.newFencingToken? : Call → Option Bytes
  | .claim request =>
    if request.newFencingToken.isEmpty then none else some request.newFencingToken
  | _ => none

def FreshTokens (calls : List Call) : Prop := (calls.filterMap Call.newFencingToken?).Nodup

instance (calls : List Call) : Decidable (FreshTokens calls) :=
  inferInstanceAs (Decidable (List.Nodup _))

namespace OwnershipRegistry

def call (registry : OwnershipRegistry) : Call → Reply × OwnershipRegistry
  | .claim request => ((registry.claim request).map .claimed id)
  | .acceptRevision entityId owner fencingToken clientRevision payloadUnchanged =>
    (registry.acceptRevision entityId owner fencingToken clientRevision payloadUnchanged).map
      .revised id
  | .release entityId owner registrationId fencingToken =>
    (registry.release entityId owner registrationId fencingToken).map .released id

def after (registry : OwnershipRegistry) (calls : List Call) : OwnershipRegistry :=
  calls.foldl (fun registry call => (registry.call call).2) registry

def acquisition (registry : OwnershipRegistry) : Call → Option (String × Bytes)
  | .claim request =>
    match (registry.claim request).1 with
    | .ok (.acquired token _) => some (request.entityId, token)
    | _ => none
  | _ => none

def acquisitions (registry : OwnershipRegistry) : List Call → List (String × Bytes)
  | [] => []
  | call :: rest => (registry.acquisition call).toList ++ (registry.call call).2.acquisitions rest

def Superseded (registry : OwnershipRegistry) (calls : List Call) (entityId : String)
    (token : Bytes) : Prop :=
  ∃ earlier first between second later newer,
    calls = earlier ++ first :: (between ++ second :: later) ∧
    (registry.after earlier).acquisition first = some (entityId, token) ∧
    (registry.after (earlier ++ first :: between)).acquisition second = some (entityId, newer)

def Within (registry : OwnershipRegistry) : Prop :=
  registry.entries.rows.length ≤ registry.maximumEntities ∧
  ∀ owner, registry.entries.rows.countP (fun state => state.owner = owner) ≤
    registry.maximumEntitiesPerOwner

end OwnershipRegistry

structure OwnershipState.Continues (state later : OwnershipState) : Prop where
  owner : later.owner = state.owner
  registrationId : later.registrationId = state.registrationId
  fencingToken : later.fencingToken = state.fencingToken
  clientRevision : state.clientRevision ≤ later.clientRevision

theorem OwnershipState.Continues.refl (state : OwnershipState) : state.Continues state :=
  ⟨rfl, rfl, rfl, le_rfl⟩

theorem FreshTokens.of_append {calls later : List Call} (h : FreshTokens (calls ++ later)) :
    FreshTokens calls := by
  unfold FreshTokens at *
  rw [filterMap_append] at h
  exact h.of_append_left

variable {state : OwnershipState} {call : Call}

namespace OwnershipRegistry

variable {registry : OwnershipRegistry}

@[simp] theorem after_nil : registry.after [] = registry := rfl

theorem after_append (calls later : List Call) :
    registry.after (calls ++ later) = (registry.after calls).after later :=
  foldl_append

theorem acquisitions_append (calls later : List Call) :
    registry.acquisitions (calls ++ later) =
      registry.acquisitions calls ++ (registry.after calls).acquisitions later := by
  induction calls generalizing registry with
  | nil => rfl
  | cons call rest ih =>
    simp only [cons_append, acquisitions, ih, append_assoc]
    rfl

inductive Called (registry : OwnershipRegistry) (call : Call) : OwnershipRegistry → Prop
  | kept (hkept : registry.acquisition call = none) : Called registry call registry
  | revised (state later : OwnershipState) (hkept : registry.acquisition call = none)
      (hget : registry.get later.entityId = some state) (hcontinues : state.Continues later) :
      Called registry call (registry.put later)
  | released (entityId : String) (hkept : registry.acquisition call = none) :
      Called registry call { registry with entries := registry.entries.erase entityId }
  | acquired (state : OwnershipState)
      (hbrought : call.newFencingToken? = some state.fencingToken)
      (hacquired : registry.acquisition call = some (state.entityId, state.fencingToken))
      (hglobal : registry.get state.entityId = none →
        registry.entries.rows.length < registry.maximumEntities)
      (howner : (∀ held, registry.get state.entityId = some held → held.owner ≠ state.owner) →
        registry.entries.rows.countP (fun held => held.owner = state.owner) <
          registry.maximumEntitiesPerOwner) :
      Called registry call (registry.put state)

theorem call_called (registry : OwnershipRegistry) (call : Call) :
    Called registry call (registry.call call).2 := by
  cases call with
  | claim request =>
    have hclm := registry.claim_claimed request
    simp only [call, Prod.map_snd, id_eq]
    generalize hres : registry.claim request = result at hclm
    cases hclm with
    | refused error => exact .kept (by simp [acquisition, hres])
    | resumed current revisionAdvanced hget =>
      have hid := entityId_of_get hget
      exact .revised current _ (by simp [acquisition, hres]) (by rw [hid]; exact hget)
        ⟨rfl, rfl, rfl, le_max_left _ _⟩
    | acquired _ hglobal howr htoken _ =>
      exact .acquired request.state (by simp [Call.newFencingToken?, htoken, ClaimRequest.state])
        (by simp [acquisition, hres, ClaimRequest.state]) hglobal howr
  | acceptRevision entityId owner fencingToken clientRevision payloadUnchanged =>
    simp only [call, acceptRevision, Prod.map_snd, id_eq]
    cases hget : registry.get entityId with
    | none => exact .kept rfl
    | some current =>
      have hid := entityId_of_get hget
      simp only
      split_ifs with hlost hstl hequal
      · exact .kept rfl
      · exact .kept rfl
      · exact .kept rfl
      · refine .revised current _ rfl (by rw [hid]; exact hget) ⟨rfl, rfl, rfl, ?_⟩
        exact not_lt.mp (fun hlt => hstl (.inl hlt))
  | release entityId owner registrationId fencingToken =>
    simp only [call, release, Prod.map_snd, id_eq]
    cases registry.get entityId with
    | none => exact .kept rfl
    | some current =>
      simp only
      split_ifs with hlost
      · exact .kept rfl
      · exact .released entityId rfl

variable {entityId : String}

theorem call_get {later : OwnershipState} (h : (registry.call call).2.get entityId = some later) :
    registry.acquisition call = some (entityId, later.fencingToken) ∨
      ((∀ token, registry.acquisition call ≠ some (entityId, token)) ∧
        ∃ state, registry.get entityId = some state ∧ state.Continues later) := by
  have hcalled := registry.call_called call
  generalize (registry.call call).2 = result at h hcalled
  cases hcalled with
  | kept hkept => exact .inr ⟨by simp [hkept], later, h, .refl later⟩
  | revised state revised hkept hget hcont =>
    refine .inr ⟨by simp [hkept], ?_⟩
    rw [get_put] at h
    split_ifs at h with hid
    · cases h
      exact ⟨state, by rw [hid]; exact hget, hcont⟩
    · exact ⟨later, h, .refl later⟩
  | released released hkept =>
    refine .inr ⟨by simp [hkept], later, ?_, .refl later⟩
    simp only [get, get?_erase] at h
    split_ifs at h
    exact h
  | acquired state _ hacquired _ _ =>
    rw [get_put] at h
    split_ifs at h with hid
    · cases h
      rw [hid]
      exact .inl hacquired
    · refine .inr ⟨?_, later, h, .refl later⟩
      rintro token hoth
      rw [hacquired] at hoth
      cases hoth
      exact hid rfl

variable {token : Bytes}

theorem acquisition_brought (h : registry.acquisition call = some (entityId, token)) :
    call.newFencingToken? = some token := by
  have hcalled := registry.call_called call
  generalize (registry.call call).2 = result at hcalled
  cases hcalled with
  | kept hkept => simp [hkept] at h
  | revised _ _ hkept => simp [hkept] at h
  | released _ hkept => simp [hkept] at h
  | acquired state hbrought hacquired =>
    rw [hacquired] at h
    cases h
    exact hbrought

theorem acquisitions_sublist (calls : List Call) :
    ((registry.acquisitions calls).map Prod.snd).Sublist
      (calls.filterMap Call.newFencingToken?) := by
  induction calls generalizing registry with
  | nil => exact .slnil
  | cons call rest ih =>
    rw [acquisitions, map_append, filterMap_cons]
    cases hacquired : registry.acquisition call with
    | none =>
      cases call.newFencingToken? with
      | none => exact ih
      | some token => exact ih.cons _
    | some acquired =>
      rw [acquisition_brought hacquired]
      exact ih.cons_cons _

variable {calls : List Call}

theorem acquisitions_nodup (hfr : FreshTokens calls) :
    ((registry.acquisitions calls).map Prod.snd).Nodup :=
  hfr.sublist (acquisitions_sublist calls)

def tokensOf (registry : OwnershipRegistry) (calls : List Call) (entityId : String) : List Bytes :=
  ((registry.acquisitions calls).filter (fun acquired => acquired.1 = entityId)).map Prod.snd

theorem tokensOf_nodup (hfr : FreshTokens calls) (entityId : String) :
    (registry.tokensOf calls entityId).Nodup :=
  (acquisitions_nodup hfr).sublist (filter_sublist.map _)

theorem tokensOf_append (calls later : List Call) (entityId : String) :
    registry.tokensOf (calls ++ later) entityId =
      registry.tokensOf calls entityId ++ (registry.after calls).tokensOf later entityId := by
  simp [tokensOf, acquisitions_append]

theorem tokensOf_singleton (call : Call) (entityId : String) :
    registry.tokensOf [call] entityId =
      ((registry.acquisition call).filter (fun acquired => acquired.1 = entityId)).toList.map
        Prod.snd := by
  simp only [tokensOf, acquisitions, append_nil]
  cases registry.acquisition call with
  | none => rfl
  | some acquired => by_cases h : acquired.1 = entityId <;> simp [Option.filter_some, h]

theorem tokensOf_acquired (h : registry.acquisition call = some (entityId, token)) :
    registry.tokensOf [call] entityId = [token] := by
  simp [tokensOf_singleton, h, Option.filter_some]

theorem tokensOf_kept (h : ∀ token, registry.acquisition call ≠ some (entityId, token)) :
    registry.tokensOf [call] entityId = [] := by
  rw [tokensOf_singleton]
  cases hacquired : registry.acquisition call with
  | none => rfl
  | some acquired =>
    have hne : acquired.1 ≠ entityId := by
      rintro rfl
      exact h acquired.2 hacquired
    simp [Option.filter_some, hne]

theorem tokensOf_getLast? (hemp : registry.entries = .empty)
    (h : (registry.after calls).get entityId = some state) :
    (registry.tokensOf calls entityId).getLast? = some state.fencingToken := by
  induction calls using reverseRecOn generalizing state with
  | nil => simp [get, hemp] at h
  | append_singleton calls call ih =>
    rw [after_append] at h
    rw [tokensOf_append]
    rcases call_get h with hacquired | ⟨hkept, before, hbef, hcont⟩
    · simp [tokensOf_acquired hacquired]
    · rw [tokensOf_kept hkept, append_nil, ih hbef, hcont.fencingToken]

theorem superseded_not_current (hemp : registry.entries = .empty)
    (hfr : FreshTokens calls) (hsuperseded : registry.Superseded calls entityId token)
    (h : (registry.after calls).get entityId = some state) : state.fencingToken ≠ token := by
  obtain ⟨earlier, first, between, second, later, newer, rfl, hfst, hsec⟩ := hsuperseded
  have hlast := tokensOf_getLast? hemp h
  have hnd : (registry.tokensOf _ entityId).Nodup := tokensOf_nodup hfr entityId
  have hspl : ∃ rest, registry.tokensOf (earlier ++ first :: (between ++ second :: later))
      entityId = registry.tokensOf (earlier ++ first :: between) entityId ++ newer :: rest := by
    have hcalls : earlier ++ first :: (between ++ second :: later) =
        (earlier ++ first :: between) ++ ([second] ++ later) := by simp
    rw [hcalls, tokensOf_append (earlier ++ first :: between), tokensOf_append [second],
      tokensOf_acquired hsec]
    exact ⟨_, rfl⟩
  have hmem : token ∈ registry.tokensOf (earlier ++ first :: between) entityId := by
    have hcalls : earlier ++ first :: between = earlier ++ ([first] ++ between) := by simp
    rw [hcalls, tokensOf_append, tokensOf_append, tokensOf_acquired hfst]
    simp
  obtain ⟨rest, hrest⟩ := hspl
  rw [hrest] at hlast hnd
  rw [getLast?_append_of_ne_nil _ (cons_ne_nil _ _)] at hlast
  rintro rfl
  exact (disjoint_of_nodup_append hnd) hmem (mem_of_getLast? hlast)

theorem revision_monotone {later : List Call} {state current : OwnershipState}
    (hemp : registry.entries = .empty) (hfr : FreshTokens (calls ++ later))
    (hst : (registry.after calls).get entityId = some state)
    (hcur : (registry.after (calls ++ later)).get entityId = some current)
    (htoken : current.fencingToken = state.fencingToken) :
    state.clientRevision ≤ current.clientRevision := by
  induction later using reverseRecOn generalizing current with
  | nil =>
    rw [append_nil, hst] at hcur
    cases hcur
    exact le_rfl
  | append_singleton later call ih =>
    rw [← append_assoc] at hfr hcur
    rw [after_append] at hcur
    rcases call_get hcur with hacquired | ⟨-, before, hbef, hcont⟩
    · have hnd : (registry.tokensOf _ entityId).Nodup := tokensOf_nodup hfr entityId
      rw [append_assoc, tokensOf_append] at hnd
      refine absurd ?_ (disjoint_of_nodup_append hnd (mem_of_getLast? (tokensOf_getLast? hemp hst)))
      rw [tokensOf_append, ← after_append, tokensOf_acquired hacquired, htoken]
      simp
    · have hle := ih hfr.of_append hbef (hcont.fencingToken ▸ htoken)
      exact hle.trans hcont.clientRevision

theorem call_maximums (call : Call) :
    (registry.call call).2.maximumEntities = registry.maximumEntities ∧
    (registry.call call).2.maximumEntitiesPerOwner = registry.maximumEntitiesPerOwner := by
  have hcalled := registry.call_called call
  generalize (registry.call call).2 = result at hcalled
  cases hcalled <;> exact ⟨rfl, rfl⟩

theorem put_countP (state : OwnershipState) (p : OwnershipState → Bool) :
    (registry.put state).entries.rows.countP p =
      (registry.entries.erase state.entityId).rows.countP p + if p state then 1 else 0 := by
  rw [put, (insert_perm _ _).countP_eq, countP_cons]

theorem countP_of_get (h : registry.get entityId = some state) (p : OwnershipState → Bool) :
    registry.entries.rows.countP p =
      (registry.entries.erase entityId).rows.countP p + if p state then 1 else 0 := by
  rw [(erase_perm h).countP_eq, countP_cons]

theorem put_length (state : OwnershipState) :
    (registry.put state).entries.rows.length =
      (registry.entries.erase state.entityId).rows.length + 1 :=
  (insert_perm _ _).length_eq

theorem length_of_get (h : registry.get entityId = some state) :
    registry.entries.rows.length = (registry.entries.erase entityId).rows.length + 1 :=
  (erase_perm h).length_eq

theorem call_within (call : Call) (h : registry.Within) : (registry.call call).2.Within := by
  have hcalled := registry.call_called call
  generalize (registry.call call).2 = result at hcalled
  obtain ⟨hlen, hcnt⟩ := h
  cases hcalled with
  | kept => exact ⟨hlen, hcnt⟩
  | revised state later _ hget hcont =>
    refine ⟨?_, fun owner => ?_⟩
    · rw [put_length, ← length_of_get hget]
      exact hlen
    · have hbd := hcnt owner
      rw [countP_of_get hget] at hbd
      rw [put_countP, hcont.owner]
      exact hbd
  | released entityId =>
    have hsub : (registry.entries.erase entityId).rows.Sublist registry.entries.rows :=
      filter_sublist
    exact ⟨hsub.length_le.trans hlen, fun owner => (hsub.countP_le).trans (hcnt owner)⟩
  | acquired state _ _ hglobal howr =>
    cases hget : registry.get state.entityId with
    | none =>
      have herase : registry.entries.erase state.entityId = registry.entries :=
        erase_of_get?_none hget
      refine ⟨?_, fun owner => ?_⟩
      · rw [put_length, herase]
        exact hglobal hget
      · rw [put_countP, herase]
        split_ifs with hsame
        · have hroom := howr (by simp [hget])
          rw [decide_eq_true_eq] at hsame
          rw [← hsame]
          exact hroom
        · exact hcnt owner
    | some held =>
      refine ⟨?_, fun owner => ?_⟩
      · rw [put_length, ← length_of_get hget]
        exact hlen
      · have hbd := hcnt owner
        have hheld := countP_of_get hget (fun state => state.owner = owner)
        rw [put_countP]
        split_ifs with hsame
        · rw [decide_eq_true_eq] at hsame
          subst hsame
          by_cases hown : held.owner = state.owner
          · simp only [hown, decide_true, if_true] at hheld
            change _ + 1 ≤ registry.maximumEntitiesPerOwner
            omega
          · have hroom := howr (by simpa [hget] using hown)
            change _ + 1 ≤ registry.maximumEntitiesPerOwner
            omega
        · change _ ≤ registry.maximumEntitiesPerOwner
          omega

theorem after_within (calls : List Call) (h : registry.Within) :
    (registry.after calls).Within ∧
    (registry.after calls).maximumEntities = registry.maximumEntities ∧
    (registry.after calls).maximumEntitiesPerOwner = registry.maximumEntitiesPerOwner := by
  induction calls generalizing registry with
  | nil => exact ⟨h, rfl, rfl⟩
  | cons call rest ih =>
    obtain ⟨hwithin, hent, howr⟩ := ih (call_within call h)
    obtain ⟨hfst, hsec⟩ := registry.call_maximums call
    exact ⟨hwithin, hent.trans hfst, howr.trans hsec⟩

theorem call_refused (h : (registry.call call).1.refused = true) :
    (registry.call call).2 = registry := by
  cases call with
  | claim request =>
    have hclm := registry.claim_claimed request
    simp only [call, Prod.map_fst, Prod.map_snd, id_eq] at h ⊢
    generalize registry.claim request = result at h hclm
    cases hclm with
    | refused error => rfl
    | resumed => cases h
    | acquired => cases h
  | acceptRevision entityId owner fencingToken clientRevision payloadUnchanged =>
    simp only [call, acceptRevision, Prod.map_fst, Prod.map_snd, id_eq] at h ⊢
    cases hget : registry.get entityId with
    | none => rfl
    | some current =>
      simp only [hget] at h ⊢
      split_ifs at h ⊢ with hlost hstl hequal
      all_goals first | rfl | cases h
  | release entityId owner registrationId fencingToken =>
    simp only [call, release, Prod.map_fst, Prod.map_snd, id_eq] at h ⊢
    cases hget : registry.get entityId with
    | none => rfl
    | some current =>
      simp only [hget] at h ⊢
      split_ifs at h ⊢ with hlost
      · rfl
      · cases h

theorem snapshot_keeps {request : ClaimRequest}
    (hget : registry.get request.entityId = some state) (hmode : request.mode = .snapshot)
    (htoken : state.fencingToken ≠ request.presentedFencingToken) :
    (registry.claim request).2 = registry := by
  have hclm := registry.claim_claimed request
  generalize registry.claim request = result at hclm
  cases hclm with
  | refused => rfl
  | resumed current _ hcur hresumable =>
    rw [hget] at hcur
    cases hcur
    simp [OwnershipState.resumable, hmode, htoken] at hresumable
  | acquired hexplicit =>
    have hmode' := hexplicit (by simp [hget])
    rw [hmode] at hmode'
    cases hmode'

end OwnershipRegistry

open OwnershipRegistry in
theorem ownership_fenced (maximumEntities maximumEntitiesPerOwner : Nat) (calls : List Call)
    (hfresh : FreshTokens calls) :
    let start := new maximumEntities maximumEntitiesPerOwner
    let registry := start.after calls
    (∀ state ∈ registry.entries.rows, ∀ other ∈ registry.entries.rows,
      state.entityId = other.entityId → state = other) ∧
    (∀ entityId token, start.Superseded calls entityId token →
      (∀ owner clientRevision payloadUnchanged, (registry.call
        (.acceptRevision entityId owner token clientRevision payloadUnchanged)).1.refused = true) ∧
      (∀ owner registrationId,
        (registry.call (.release entityId owner registrationId token)).1.refused = true) ∧
      (∀ request : ClaimRequest, request.entityId = entityId → request.mode = .snapshot →
        request.presentedFencingToken = token → (registry.get entityId).isSome = true →
        (registry.call (.claim request)).2.get entityId = registry.get entityId)) ∧
    (∀ earlier later, calls = earlier ++ later → ∀ entityId state current,
      (start.after earlier).get entityId = some state → registry.get entityId = some current →
      current.fencingToken = state.fencingToken →
      state.clientRevision ≤ current.clientRevision) ∧
    registry.entries.rows.length ≤ maximumEntities ∧
    (∀ owner, (registry.ownedEntities owner).length ≤ maximumEntitiesPerOwner) ∧
    (∀ call, (registry.call call).1.refused = true → (registry.call call).2 = registry) := by
  intro start registry
  have hstart : start.Within := ⟨Nat.zero_le _, fun _ => Nat.zero_le _⟩
  obtain ⟨⟨hlen, hcnt⟩, hent, howners⟩ := after_within calls hstart
  refine ⟨?_, ?_, ?_, ?_, ?_, fun call h => call_refused h⟩
  · intro state hst other hoth hid
    have hget := get?_of_mem hst
    rw [hid, get?_of_mem hoth] at hget
    exact (Option.some.inj hget).symm
  · intro entityId token hsuperseded
    have hstl : ∀ state, registry.get entityId = some state → state.fencingToken ≠ token :=
      fun state h => superseded_not_current rfl hfresh hsuperseded h
    refine ⟨?_, ?_, ?_⟩
    · intro owner clientRevision payloadUnchanged
      simp only [call, acceptRevision, Prod.map_fst]
      cases hget : registry.get entityId with
      | none => rfl
      | some state =>
        simp only
        rw [if_pos (.inr (hstl state hget))]
        rfl
    · intro owner registrationId
      simp only [call, release, Prod.map_fst]
      cases hget : registry.get entityId with
      | none => rfl
      | some state =>
        simp only
        rw [if_pos (.inr (.inr (hstl state hget)))]
        rfl
    · intro request hid hmode hpresented hreg
      obtain ⟨state, hget⟩ := Option.isSome_iff_exists.mp hreg
      subst hid hpresented
      exact congrArg (fun registry : OwnershipRegistry => registry.get request.entityId)
        (snapshot_keeps hget hmode (hstl state hget))
  · rintro earlier later rfl entityId state current hst hcur htoken
    exact revision_monotone rfl hfresh hst hcur htoken
  · exact hlen.trans hent.le
  · intro owner
    have hle := (hcnt owner).trans howners.le
    rw [List.countP_eq_length_filter] at hle
    rw [ownedEntities, List.length_map]
    exact hle

def explicitClaim (owner : SessionId) (registrationId newFencingToken : Bytes) : Call :=
  .claim
    { entityId := "entity", owner, registrationId, presentedFencingToken := [],
      clientRevision := 1, newFencingToken, mode := .explicit }

def takeover : List Call := [explicitClaim 1 [1] [11], explicitClaim 2 [2] [12]]

theorem ownership_fenced_takeover :
    FreshTokens takeover ∧
    (OwnershipRegistry.new 2 2).Superseded takeover "entity" [11] ∧
    ((((OwnershipRegistry.new 2 2).after takeover).call
      (.release "entity" 1 [1] [11])).1.refused = true) := by
  have hsuperseded : (new 2 2).Superseded takeover "entity" [11] :=
    ⟨[], _, [], _, [], [12], rfl, by decide +kernel⟩
  exact ⟨by decide, hsuperseded,
    ((ownership_fenced 2 2 takeover (by decide)).2.1 "entity" [11] hsuperseded).2.1 1 [1]⟩

end MumbleRuntime.Controller
