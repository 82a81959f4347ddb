import Mathlib.Data.List.Induction
import MumbleRuntime.ActorTurns

/-!
# What a publication owes its participants

A publication of a Space carries every participant at the revision its registration
has reached. The showings it makes stand for as long as the participant wants to be
in the Space under the same registration: every later publication carries it at that
revision or a newer one, and once a report that counts was an acceptance the
participant shows it.
-/

namespace MumbleRuntime.SpacesServer

open Library Controller Spaces Table OrderedMap Option OwnershipRegistry ControllerActor Turn RenderParticipant
open List hiding find? set
open SpacesState

structure Showing where
  revision : Nat
  participantId : String
  accepted : Nat
  deriving DecidableEq, Repr

variable {space : MaterializedSpace} {turn : Turn} {other : String}
  {report : Spaces.ReconcileReport} {base : List Showing}

section Followed

variable (key : String) (shard : ShardId)

def observe (showings : List Showing) : Effect → List Showing
  | .published other state =>
    if other = shard ∧ state.spaceKey = key then
      showings ++ state.participants.map fun participant =>
        ⟨state.applicationRevision, participant.participantId, participant.acceptedRevision⟩
    else showings
  | .claimed id | .registered id | .released id =>
    showings.filter fun showing => showing.participantId ≠ id
  | .respecified id spaceKey =>
    if spaceKey = key then showings
    else showings.filter fun showing => showing.participantId ≠ id
  | _ => showings

def standing (showings : List Showing) (effects : List Effect) : List Showing :=
  effects.foldl (observe key shard) showings

variable {key shard}

theorem standing_append (showings : List Showing) (effects effects' : List Effect) :
    standing key shard showings (effects ++ effects') =
      standing key shard (standing key shard showings effects) effects' :=
  foldl_append

theorem observe_of_plain {effect : Effect} (h : effect.plain = true ∨ effect.leads = true)
    (showings : List Showing) : observe key shard showings effect = showings := by
  cases effect <;> first | rfl | simp [Effect.plain, Effect.leads] at h

variable {showings : List Showing}

theorem standing_of_quiet {effects : List Effect}
    (h : ∀ effect ∈ effects, effect.plain = true ∨ effect.leads = true) :
    standing key shard showings effects = showings := by
  induction effects generalizing showings with
  | nil => rfl
  | cons effect effects ih =>
    rw [standing, foldl_cons, observe_of_plain (h effect mem_cons_self)]
    exact ih fun effect hmem => h effect (mem_cons_of_mem _ hmem)

variable (key shard)

/-- A showing stands: the Space shows it and goes on showing it, the participant wants to be there,
and what counted last of the reports is recorded. -/
structure Stands (actor : ControllerActor) (heeded : Nat × Bool) (showing : Showing) : Prop where
  shown : ∃ space, actor.spacesState.space key = some space ∧ space.shard = shard ∧
    ∀ revision revisions, space.renderHistory.find? revision = some revisions →
      showing.revision ≤ revision → ∃ carried,
        revisions.find? showing.participantId = some carried ∧ showing.accepted ≤ carried
  wanted : ∃ participant, actor.spacesState.participant showing.participantId = some participant ∧
    participant.space = key ∧ (showing.revision ≤ heeded.1 → heeded.2 = true →
      showing.accepted ≤ participant.appliedSpecRevision ∧ participant.applicationError = "")
  owned : ∃ ownership, actor.ownership.get showing.participantId = some ownership ∧
    showing.accepted ≤ ownership.clientRevision
  published : showing.revision < actor.spacesState.nextApplicationRevision

/-- The renders of the followed Space that can still be reported: those after the last report that
counted. -/
structure Pending (heeded next : Nat) (seen : List Nat) (space : MaterializedSpace) : Prop where
  after : ∀ revision revisions, space.renderHistory.find? revision = some revisions →
    heeded < revision ∧ revision < next
  current_lt : space.desired.applicationRevision < next
  current : heeded < space.desired.applicationRevision →
    (space.renderHistory.find? space.desired.applicationRevision).isSome = true
  seen_le : ∀ revision ∈ seen, revision ≤ space.desired.applicationRevision
  seen_held : ∀ revision ∈ seen, heeded < revision →
    (space.renderHistory.find? revision).isSome = true

theorem Pending.mono {heeded next next' : Nat} {seen : List Nat}
    (h : Pending heeded next seen space) (hnext : next ≤ next') :
    Pending heeded next' seen space where
  after revision revisions hfind :=
    ⟨(h.after revision revisions hfind).1, (h.after revision revisions hfind).2.trans_le hnext⟩
  current_lt := h.current_lt.trans_le hnext
  current := h.current
  seen_le := h.seen_le
  seen_held := h.seen_held

theorem Pending.refresh {heeded next : Nat} {seen : List Nat}
    (h : Pending heeded next seen space) (hnext : heeded < next)
    (participants : List RenderParticipant) (now grace : Time) :
    Pending heeded (next + 1) seen (space.refresh next participants now grace) where
  after revision revisions hfind := by
    simp only [MaterializedSpace.refresh, find?_set] at hfind
    split_ifs at hfind with hrevision
    · omega
    · obtain ⟨haft, hbef⟩ := h.after revision revisions hfind
      omega
  current_lt := next.lt_succ_self
  current _ := by simp [MaterializedSpace.refresh]
  seen_le revision hmem := (h.seen_le revision hmem).trans h.current_lt.le
  seen_held revision hmem hlt := by
    simp only [MaterializedSpace.refresh, find?_set]
    split_ifs
    · rfl
    · exact h.seen_held revision hmem hlt

structure Tracks (actor : ControllerActor) (showings : List Showing) (heeded : Nat × Bool)
    (seen : List Nat) : Prop where
  stands : ∀ showing ∈ showings, Stands key shard actor heeded showing
  created : ∀ other space, actor.spacesState.space other = some space →
    space.shard < actor.host.nextShard
  first : shard < actor.host.nextShard ∨ heeded.1 = 0 ∧ seen = []
  heeded_lt : heeded.1 < actor.spacesState.nextApplicationRevision
  seen_lt : ∀ revision ∈ seen, revision < actor.spacesState.nextApplicationRevision
  pending : ∀ space, actor.spacesState.space key = some space → space.shard = shard →
    Pending heeded.1 actor.spacesState.nextApplicationRevision seen space

variable {key shard} {actor actor' : ControllerActor} {showings showings' : List Showing}
  {heeded : Nat × Bool} {seen : List Nat} {showing : Showing}

namespace Stands

theorem congr (h : Stands key shard actor heeded showing)
    (hsp : actor'.spacesState.space key = actor.spacesState.space key)
    (hnext : actor.spacesState.nextApplicationRevision ≤ actor'.spacesState.nextApplicationRevision)
    (hpart : actor'.spacesState.participant showing.participantId =
      actor.spacesState.participant showing.participantId)
    (hown : actor'.ownership.get showing.participantId =
      actor.ownership.get showing.participantId) : Stands key shard actor' heeded showing where
  shown := hsp ▸ h.shown
  wanted := hpart ▸ h.wanted
  owned := hown ▸ h.owned
  published := h.published.trans_le hnext

theorem overwritten (h : Stands key shard actor heeded showing)
    {participant participant' : ParticipantState}
    (hget : actor.spacesState.participant participant.participantId = some participant)
    (hid : participant'.participantId = participant.participantId)
    (hhome : participant'.space = participant.space ∨ participant'.space = key)
    (happ : participant'.appliedSpecRevision = participant.appliedSpecRevision)
    (herr : participant'.applicationError = participant.applicationError) :
    Stands key shard { actor with spacesState := actor.spacesState.insertParticipant participant' }
      heeded showing where
  shown := h.shown
  wanted := by
    obtain ⟨wanted, hwanted, hsp, hdone⟩ := h.wanted
    by_cases hsame : showing.participantId = participant'.participantId
    · obtain rfl : wanted = participant := by
        rw [hsame, hid, hget] at hwanted
        exact (some.inj hwanted).symm
      refine ⟨participant', (get?_insert _ _ _).trans (if_pos hsame), ?_, ?_⟩
      · exact hhome.elim (fun hhome => hhome.trans hsp) id
      · rwa [happ, herr]
    · exact ⟨wanted, ((get?_insert _ _ _).trans (if_neg hsame)).trans hwanted, hsp, hdone⟩
  owned := h.owned
  published := h.published

end Stands

namespace Tracks

section

variable (h : Tracks key shard actor showings heeded seen)

include h

theorem congr (hsps : ∀ other, actor'.spacesState.space other = actor.spacesState.space other)
    (hnext : actor.spacesState.nextApplicationRevision ≤ actor'.spacesState.nextApplicationRevision)
    (hshards : actor'.host.nextShard = actor.host.nextShard)
    (hstd : ∀ showing ∈ showings', Stands key shard actor' heeded showing) :
    Tracks key shard actor' showings' heeded seen where
  stands := hstd
  created other space hsp := by
    rw [hsps] at hsp
    exact hshards ▸ h.created other space hsp
  first := hshards ▸ h.first
  heeded_lt := h.heeded_lt.trans_le hnext
  seen_lt revision hmem := (h.seen_lt revision hmem).trans_le hnext
  pending space hsp hsh := by
    rw [hsps] at hsp
    exact (h.pending space hsp hsh).mono hnext

theorem of_mem
    (hmem : ∀ showing ∈ showings', showing ∈ showings) : Tracks key shard actor showings' heeded seen :=
  h.congr (fun _ => rfl) le_rfl rfl fun showing hshowing => h.stands showing (hmem showing hshowing)

theorem same (hsame : SameEntities actor actor') :
    Tracks key shard actor' showings heeded seen := by
  refine h.congr (fun _ => by rw [hsame.spacesState]) (by rw [hsame.spacesState])
    (by rw [hsame.host]) fun showing hmem => ?_
  exact (h.stands showing hmem).congr (by rw [hsame.spacesState]) (by rw [hsame.spacesState])
    (by rw [hsame.spacesState]) (by rw [hsame.ownership])

theorem dropped {id : String}
    (hsps : actor'.spacesState.materialized = actor.spacesState.materialized)
    (hnext : actor.spacesState.nextApplicationRevision ≤ actor'.spacesState.nextApplicationRevision)
    (hshards : actor'.host.nextShard = actor.host.nextShard)
    (hothers : ∀ other, other ≠ id → actor'.spacesState.participant other =
      actor.spacesState.participant other ∧ actor'.ownership.get other = actor.ownership.get other) :
    Tracks key shard actor' (showings.filter fun showing => showing.participantId ≠ id) heeded seen := by
  have hsp : ∀ other, actor'.spacesState.space other = actor.spacesState.space other := by
    intro other
    rw [space, hsps]
    rfl
  refine h.congr hsp hnext hshards fun showing hmem => ?_
  obtain ⟨hold, hoth⟩ := mem_filter.mp hmem
  obtain ⟨hpart, hown⟩ := hothers showing.participantId (by simpa using hoth)
  exact (h.stands showing hold).congr (hsp key) hnext hpart hown

end

end Tracks

theorem find?_revisions {participants : List RenderParticipant}
    (hnd : (participants.map participantId).Nodup)
    {participant : RenderParticipant} (hmem : participant ∈ participants)
    (revisions : OrderedMap String Nat) :
    (participants.foldl (fun revisions participant => set revisions
      participant.participantId participant.acceptedRevision) revisions).find?
      participant.participantId = some participant.acceptedRevision := by
  induction participants using reverseRecOn with
  | nil => cases hmem
  | append_singleton participants last ih =>
    rw [map_append, nodup_append] at hnd
    rw [foldl_append]
    simp only [foldl_cons, foldl_nil, find?_set]
    rcases mem_append.mp hmem with hmem | hmem
    · have hne : participant.participantId ≠ last.participantId :=
        hnd.2.2 _ (mem_map_of_mem hmem) _ (by simp)
      rw [if_neg hne]
      exact ih hnd.1 hmem
    · obtain rfl := mem_singleton.mp hmem
      rw [if_pos rfl]

theorem renderParticipants_nodup (actor : ControllerActor) (key : String) :
    ((actor.renderParticipants key).map participantId).Nodup := by
  have hrows := (actor.spacesState.participants.keys_nodup).sublist
    ((filter_sublist (p := fun participant => decide (participant.space = key))).map _)
  refine hrows.sublist ?_
  unfold renderParticipants
  generalize actor.spacesState.participants.rows.filter _ = rows
  induction rows with
  | nil => exact .slnil
  | cons row rows ih =>
    rw [filterMap_cons]
    cases actor.ownership.get row.participantId with
    | none => exact ih.cons _
    | some ownership => exact ih.cons_cons _

theorem mem_renderParticipants {actor : ControllerActor} {key : String} {id : String}
    {participant : ParticipantState} {ownership : OwnershipState}
    (hget : actor.spacesState.participant id = some participant) (hhome : participant.space = key)
    (hown : actor.ownership.get id = some ownership) :
    ∃ shown ∈ actor.renderParticipants key, shown.participantId = id ∧
      shown.acceptedRevision = ownership.clientRevision := by
  have hid : participant.participantId = id := key_of_get? hget
  simp only [renderParticipants, mem_filterMap, mem_filter, map_eq_some_iff]
  exact ⟨_, ⟨participant, ⟨mem_of_get? hget, by simpa using hhome⟩, ownership,
    hid ▸ hown, rfl⟩, hid, rfl⟩

theorem exists_of_mem_renderParticipants {actor : ControllerActor} {key : String}
    {shown : RenderParticipant} (h : shown ∈ actor.renderParticipants key) :
    ∃ participant ownership, actor.spacesState.participant shown.participantId = some participant ∧
      participant.space = key ∧ actor.ownership.get shown.participantId = some ownership ∧
      shown.acceptedRevision = ownership.clientRevision := by
  simp only [renderParticipants, mem_filterMap, mem_filter, map_eq_some_iff] at h
  obtain ⟨participant, ⟨hrow, hhome⟩, ownership, hown, rfl⟩ := h
  exact ⟨participant, ownership, get?_of_mem hrow, by simpa using hhome, hown, rfl⟩

theorem saturatingSucc_of_lt {n : Nat} (h : n + 1 < u64Max) : saturatingSucc n = n + 1 :=
  min_eq_left h.le

theorem Stands.publish {turn turn' : Turn}
    (h : Stands key shard turn.actor heeded showing) (hpub : Published turn other space turn')
    (hsp : turn.actor.spacesState.space other = some space)
    (hroom : turn.actor.spacesState.nextApplicationRevision + 1 < u64Max) :
    Stands key shard turn'.actor heeded showing := by
  have hnext := hpub.next_eq.trans (saturatingSucc_of_lt hroom)
  obtain ⟨participant, hpart, hhome, hdone⟩ := h.wanted
  obtain ⟨ownership, hown, hacc⟩ := h.owned
  refine ⟨?_, ⟨participant, ?_, hhome, hdone⟩, ⟨ownership, ?_, hacc⟩, ?_⟩
  · obtain ⟨shown, hshn, hsh, hcarried⟩ := h.shown
    by_cases hkey : key = other
    · obtain rfl : shown = space := by
        rw [hkey, hsp] at hshn
        exact (some.inj hshn).symm
      refine ⟨_, (hpub.space_eq key).trans (if_pos hkey), hsh, ?_⟩
      intro revision revisions hfind hle
      simp only [MaterializedSpace.refresh, find?_set] at hfind
      split_ifs at hfind
      · -- The new render carries the participant at the revision it is owned at.
        obtain ⟨rendered, hmem, hid, hrevision⟩ :=
          mem_renderParticipants hpart (hhome.trans hkey) hown
        obtain rfl := (some.inj hfind).symm
        refine ⟨_, hid ▸ find?_revisions (renderParticipants_nodup _ _) hmem _, ?_⟩
        exact hacc.trans hrevision.ge
      · exact hcarried revision revisions hfind hle
    · exact ⟨shown, ((hpub.space_eq key).trans (if_neg hkey)).trans hshn, hsh, hcarried⟩
  · rw [SpacesState.participant, hpub.participants_eq]
    exact hpart
  · rw [hpub.ownership_eq]
    exact hown
  · have hlt := h.published
    omega

variable {turn' : Turn}

theorem Stands.shown_now {rendered : RenderParticipant}
    (hpub : Published turn key space turn') (hsh : space.shard = shard)
    (hpending : Pending heeded.1 turn.actor.spacesState.nextApplicationRevision seen space)
    (hheeded : heeded.1 < turn.actor.spacesState.nextApplicationRevision)
    (hroom : turn.actor.spacesState.nextApplicationRevision + 1 < u64Max)
    (hmem : rendered ∈ turn.actor.renderParticipants key) :
    Stands key shard turn'.actor heeded ⟨turn.actor.spacesState.nextApplicationRevision,
      rendered.participantId, rendered.acceptedRevision⟩ := by
  have hnext := hpub.next_eq.trans (saturatingSucc_of_lt hroom)
  obtain ⟨participant, ownership, hpart, hhome, hown, hacc⟩ :=
    exists_of_mem_renderParticipants hmem
  refine ⟨⟨_, (hpub.space_eq key).trans (if_pos rfl), hsh, ?_⟩, ⟨participant, ?_, hhome, ?_⟩,
    ⟨ownership, ?_, hacc.le⟩, ?_⟩
  · intro revision revisions hfind hle
    simp only [MaterializedSpace.refresh, find?_set] at hfind
    split_ifs at hfind with hrevision
    · obtain rfl := (some.inj hfind).symm
      exact ⟨_, find?_revisions (renderParticipants_nodup _ _) hmem _, le_rfl⟩
    · have hbef := (hpending.after revision revisions hfind).2
      exact absurd hle (not_le.mpr hbef)
  · rw [SpacesState.participant, hpub.participants_eq]
    exact hpart
  · intro hle
    exact absurd hle (not_le.mpr hheeded)
  · rw [hpub.ownership_eq]
    exact hown
  · exact hnext ▸ Nat.lt_succ_self _

theorem Tracks.publish
    (h : Tracks key shard turn.actor (standing key shard base turn.log) heeded seen)
    (hroom : turn.actor.spacesState.nextApplicationRevision + 1 < u64Max) :
    Tracks key shard (turn.publish other).actor (standing key shard base (turn.publish other).log)
      heeded seen := by
  cases hsp : turn.actor.spacesState.space other with
  | none =>
    rw [publish_absent hsp]
    have hnext : turn.actor.spacesState.nextApplicationRevision ≤
        saturatingSucc turn.actor.spacesState.nextApplicationRevision :=
      (saturatingSucc_of_lt hroom).symm ▸ Nat.le_succ _
    exact h.congr (fun _ => rfl) hnext rfl fun showing hmem =>
      (h.stands showing hmem).congr rfl hnext rfl rfl
  | some space =>
    have hpub := publish_published hsp
    have hnext := hpub.next_eq.trans (saturatingSucc_of_lt hroom)
    have hlog : standing key shard base (turn.publish other).log =
        observe key shard (standing key shard base turn.log) (.published space.shard
          ⟨turn.actor.spacesState.nextApplicationRevision, other,
            turn.actor.renderParticipants other⟩) := by
      rw [hpub.log_eq, standing_append]
      rfl
    rw [hlog]
    generalize standing key shard base turn.log = showings at h
    refine ⟨fun showing hmem => ?_, fun other' space' hsp' => ?_, hpub.host_eq ▸ h.first, ?_,
      fun revision hmem => ?_, fun space' hsp' hsh => ?_⟩
    · simp only [observe] at hmem
      split_ifs at hmem with hours
      · obtain ⟨hsh, rfl⟩ := hours
        rcases mem_append.mp hmem with hmem | hmem
        · exact (h.stands showing hmem).publish hpub hsp hroom
        · obtain ⟨rendered, hrendered, rfl⟩ := mem_map.mp hmem
          exact .shown_now hpub hsh (h.pending space hsp hsh) h.heeded_lt hroom hrendered
      · exact (h.stands showing hmem).publish hpub hsp hroom
    · rw [hpub.host_eq]
      rw [hpub.space_eq] at hsp'
      split_ifs at hsp' with hoth
      · obtain rfl := some.inj hsp'
        exact h.created other space hsp
      · exact h.created other' space' hsp'
    · have hheeded := h.heeded_lt
      omega
    · have hseen := h.seen_lt revision hmem
      omega
    · rw [hnext]
      rw [hpub.space_eq] at hsp'
      split_ifs at hsp' with hkey
      · subst hkey
        obtain rfl := some.inj hsp'
        exact (h.pending space hsp hsh).refresh h.heeded_lt _ _ _
      · exact (h.pending space' hsp' hsh).mono (Nat.le_succ _)

theorem Turn.publish_nextApplicationRevision (turn : Turn) (key : String) :
    (turn.publish key).actor.spacesState.nextApplicationRevision =
      saturatingSucc turn.actor.spacesState.nextApplicationRevision := by
  cases hsp : turn.actor.spacesState.space key with
  | none =>
    rw [publish_absent hsp]
    rfl
  | some space => exact (publish_published hsp).next_eq

variable {licence : Licence}

theorem Act.nextApplicationRevision_le (h : Act licence turn turn') (hcoh : Coherent turn.actor)
    (hbd : turn.actor.spacesState.nextApplicationRevision ≤ u64Max) :
    turn.actor.spacesState.nextApplicationRevision ≤
        turn'.actor.spacesState.nextApplicationRevision ∧
      turn'.actor.spacesState.nextApplicationRevision ≤ u64Max := by
  have hsucc : turn.actor.spacesState.nextApplicationRevision ≤
      saturatingSucc turn.actor.spacesState.nextApplicationRevision := by
    unfold saturatingSucc
    omega
  cases h with
  | aside hasd =>
    rw [(hasd.same hcoh).spacesState]
    exact ⟨le_rfl, hbd⟩
  | published key =>
    rw [turn.publish_nextApplicationRevision]
    exact ⟨hsucc, min_le_right _ _⟩
  | left hown hget =>
    rw [revoke_actor]
    exact ⟨le_rfl, hbd⟩
  | replaced state participant credential hown hget hid hlive hav hok happ hhome htold =>
    have hsps := (htold.same (hcoh.claim hown hlive)).spacesState
    rw [hsps]
    exact ⟨le_rfl, hbd⟩
  | reported hrpt hrcl =>
    obtain ⟨space, revisions, hrec⟩ := reconcile_reconciled hrcl
    exact ⟨hrec.nextApplicationRevision_eq.ge, hrec.nextApplicationRevision_eq.trans_le hbd⟩
  | _ => exact ⟨le_rfl, hbd⟩

theorem Tracks.materialize
    (h : Tracks key shard turn.actor showings heeded seen) (incarnationId : Bytes)
    (hnew : turn.actor.spacesState.containsSpace other = false) :
    Tracks key shard (turn.materialize other incarnationId).actor showings heeded seen := by
  have habsent : turn.actor.spacesState.space other = none := contains_eq_false_iff.mp hnew
  have hsps : ∀ other', (turn.materialize other incarnationId).actor.spacesState.space other' =
      if other' = other then some (.new other turn.actor.host.nextShard incarnationId ⟨0, other, []⟩)
      else turn.actor.spacesState.space other' := fun other' => get?_insert _ _ _
  refine ⟨fun showing hmem => ?_, fun other' space hsp => ?_,
    h.first.imp_left fun hlt => hlt.trans (Nat.lt_succ_self _), h.heeded_lt, h.seen_lt,
    fun space hsp hsh => ?_⟩
  · have hstd := h.stands showing hmem
    obtain ⟨space, hsp, hshn⟩ := hstd.shown
    have hkey : key ≠ other := by
      rintro rfl
      rw [habsent] at hsp
      cases hsp
    exact ⟨⟨space, ((hsps key).trans (if_neg hkey)).trans hsp, hshn⟩, hstd.wanted,
      hstd.owned, hstd.published⟩
  · rw [hsps] at hsp
    split_ifs at hsp
    · obtain rfl := some.inj hsp
      exact Nat.lt_succ_self _
    · exact (h.created other' space hsp).trans (Nat.lt_succ_self _)
  · rw [hsps] at hsp
    split_ifs at hsp
    · obtain rfl := some.inj hsp
      obtain ⟨hzero, rfl⟩ := h.first.resolve_left (by
        rw [← hsh]
        exact lt_irrefl _)
      refine ⟨fun _ _ hfind => (by cases hfind), ?_, fun hlt => absurd hlt (Nat.not_lt_zero _), ?_, ?_⟩
      · exact hzero ▸ h.heeded_lt
      · exact fun _ hmem => absurd hmem not_mem_nil
      · exact fun _ hmem => absurd hmem not_mem_nil
    · exact h.pending space hsp hsh

theorem Tracks.closed {showings : List Showing}
    (h : Tracks key shard turn.actor showings heeded seen)
    (hunw : turn.actor.spacesState.wanted other = false) :
    Tracks key shard (turn.setSpaces (turn.actor.spacesState.removeSpace other)).actor showings
      heeded seen := by
  have hsps : ∀ other', (turn.actor.spacesState.removeSpace other).space other' =
      if other' = other then none else turn.actor.spacesState.space other' :=
    fun other' => get?_erase _ _ _
  refine ⟨fun showing hmem => ?_, fun other' space hsp => ?_, h.first, h.heeded_lt, h.seen_lt,
    fun space hsp hsh => ?_⟩
  · have hstd := h.stands showing hmem
    obtain ⟨participant, hget, hhome, -⟩ := hstd.wanted
    have hkey : key ≠ other := by
      rintro rfl
      have hall := any_eq_false.mp hunw participant (mem_of_get? hget)
      exact hall (by simpa using hhome)
    obtain ⟨space, hsp, hshn⟩ := hstd.shown
    exact ⟨⟨space, ((hsps key).trans (if_neg hkey)).trans hsp, hshn⟩, hstd.wanted,
      hstd.owned, hstd.published⟩
  · have hold : (turn.actor.spacesState.removeSpace other).space other' = some space := hsp
    rw [hsps] at hold
    split_ifs at hold
    exact h.created other' space hold
  · have hold : (turn.actor.spacesState.removeSpace other).space key = some space := hsp
    rw [hsps] at hold
    split_ifs at hold
    exact h.pending space hold hsh

theorem Tracks.revised {showings : List Showing} {state : OwnershipState}
    {clientRevision : Nat} (h : Tracks key shard turn.actor showings heeded seen)
    (hget : turn.actor.ownership.get state.entityId = some state)
    (hle : state.clientRevision ≤ clientRevision) :
    Tracks key shard
      (turn.setOwnership (turn.actor.ownership.put { state with clientRevision })).actor showings
      heeded seen := by
  refine h.congr (fun _ => rfl) le_rfl rfl fun showing hmem => ?_
  have hstd := h.stands showing hmem
  refine ⟨hstd.shown, hstd.wanted, ?_, hstd.published⟩
  obtain ⟨ownership, hown, hacc⟩ := hstd.owned
  have hput := get_put turn.actor.ownership { state with clientRevision } showing.participantId
  by_cases hid : showing.participantId = state.entityId
  · obtain rfl : ownership = state := by
      rw [hid, hget] at hown
      exact (some.inj hown).symm
    exact ⟨_, hput.trans (if_pos hid), hacc.trans hle⟩
  · exact ⟨ownership, (hput.trans (if_neg hid)).trans hown, hacc⟩

theorem Tracks.noted {log log' : List Effect} {effect : Effect} (hlog : log' = log ++ [effect])
    (h : Tracks key shard actor (observe key shard (standing key shard base log) effect) heeded seen) :
    Tracks key shard actor (standing key shard base log') heeded seen := by
  rw [hlog, standing_append]
  exact h

theorem Tracks.respecified {participant : ParticipantState} {spec : ParticipantSpec}
    (h : Tracks key shard turn.actor showings heeded seen)
    (hget : turn.actor.spacesState.participant participant.participantId = some participant) :
    Tracks key shard (turn.setSpaces
      (turn.actor.spacesState.insertParticipant { participant with spec })).actor
      (observe key shard showings (.respecified participant.participantId spec.spaceKey.value))
      heeded seen := by
  simp only [observe]
  split_ifs with hkey
  · refine h.congr (fun _ => rfl) le_rfl rfl fun showing hmem => ?_
    exact (h.stands showing hmem).overwritten hget rfl (.inr hkey) rfl rfl
  · refine h.dropped rfl le_rfl rfl fun other hoth => ⟨?_, rfl⟩
    exact (get?_insert _ _ _).trans (if_neg hoth)

theorem Act.tracks (hrpt : ¬licence.reports)
    (h : Act licence turn turn') (hcoh : Coherent turn.actor)
    (hbd : turn.actor.spacesState.nextApplicationRevision ≤ u64Max)
    (hroom : turn'.actor.spacesState.nextApplicationRevision < u64Max)
    (htracks : Tracks key shard turn.actor (standing key shard base turn.log) heeded seen) :
    Tracks key shard turn'.actor (standing key shard base turn'.log) heeded seen := by
  cases h with
  | aside hasd =>
    obtain ⟨effects, hlog, hplain⟩ := hasd.logs hcoh
    rw [hlog, standing_append, standing_of_quiet fun effect hmem => .inl (hplain effect hmem)]
    exact htracks.same (hasd.same hcoh)
  | told hleads => exact .noted rfl ((observe_of_plain (.inr hleads) _).symm ▸ htracks)
  | materialized incarnationId hnew => exact .noted rfl (htracks.materialize incarnationId hnew)
  | published other =>
    refine htracks.publish ?_
    have hsucc := turn.publish_nextApplicationRevision other
    unfold saturatingSucc at hsucc
    omega
  | closed hget hunw => exact .noted rfl (htracks.closed hunw)
  | revised hget hle => exact htracks.revised hget hle
  | respecified hget hhome => exact .noted rfl (htracks.respecified hget)
  | entered state participant credential hnone hid hlive hav hok happ hhome =>
    have hdrp : Tracks key shard (((turn.setOwnership
        (turn.actor.ownership.put state)).setBindings (turn.actor.host.bindings.register
        participant.participantId credential).2).setSpaces
        (turn.actor.spacesState.insertParticipant participant)).actor
        ((standing key shard base turn.log).filter fun showing =>
          showing.participantId ≠ participant.participantId) heeded seen := by
      refine htracks.dropped rfl le_rfl rfl fun other hoth => ⟨?_, ?_⟩
      · exact (get?_insert _ _ _).trans (if_neg hoth)
      · exact (get_put _ _ _).trans (if_neg (hid ▸ hoth))
    refine .noted rfl ?_
    change Tracks key shard _ (filter _ (standing key shard base
      (turn.log ++ [.claimed participant.participantId]))) heeded seen
    rw [standing_append]
    exact hdrp.of_mem fun showing hmem => (mem_filter.mp hmem).1
  | @replaced middle state participant credential previous former hown hget hid hlive hav
      hok happ hhome htold =>
    have hclm := hcoh.claim hown hlive
    have hsame := htold.same hclm
    obtain ⟨effects, hlog, hplain⟩ := htold.logs hclm
    have hlost : Tracks key shard (turn.setOwnership (turn.actor.ownership.put state)).actor
        ((standing key shard base turn.log).filter fun showing =>
          showing.participantId ≠ participant.participantId) heeded seen := by
      refine htracks.dropped rfl le_rfl rfl fun other hoth => ⟨rfl, ?_⟩
      exact (get_put _ _ _).trans (if_neg (hid ▸ hoth))
    have hshowings : standing key shard base middle.log =
        (standing key shard base turn.log).filter fun showing =>
          showing.participantId ≠ participant.participantId := by
      rw [hlog, standing_append, standing_of_quiet fun effect hmem => .inl (hplain effect hmem)]
      exact standing_append base turn.log [.claimed participant.participantId]
    rw [← hshowings] at hlost
    refine .noted rfl ?_
    refine (hlost.same hsame).dropped rfl le_rfl rfl fun other hoth => ⟨?_, rfl⟩
    exact (get?_insert _ _ _).trans (if_neg hoth)
  | @left id state participant hown hget =>
    obtain ⟨effects, hlog, hleads⟩ : Turn.Logs _ _ Effect.leads := revoke_logs
      (((turn.setOwnership
        { turn.actor.ownership with entries := turn.actor.ownership.entries.erase id }).setSpaces
        (turn.actor.spacesState.removeParticipant id)).note (.released id)) id fun _ => rfl
    rw [hlog, standing_append, standing_of_quiet fun effect hmem => .inr (hleads effect hmem),
      revoke_actor]
    refine .noted rfl (htracks.dropped rfl le_rfl rfl fun other hoth => ?_)
    exact ⟨(get?_erase _ _ _).trans (if_neg hoth), (get?_erase _ _ _).trans (if_neg hoth)⟩
  | seated hseats hattach
  | disconnected connection =>
    exact htracks.congr (fun _ => rfl) le_rfl rfl fun showing hmem =>
      (htracks.stands showing hmem).congr rfl le_rfl rfl rfl
  | muted selfMute selfDeaf hget =>
    refine htracks.congr (fun _ => rfl) le_rfl rfl fun showing hmem => ?_
    exact (htracks.stands showing hmem).overwritten hget rfl (.inl rfl) rfl rfl
  | reported hlicensed hrcl => exact absurd hlicensed hrpt

theorem Tracks.endSession (h : Tracks key shard turn.actor showings heeded seen)
    (id : SessionId) : Tracks key shard (turn.endSession id).actor showings heeded seen :=
  h.same ⟨rfl, rfl, rfl, rfl⟩

theorem Deeds.nextApplicationRevision_le (h : Deeds licence turn turn') (hcoh : Coherent turn.actor)
    (hbd : turn.actor.spacesState.nextApplicationRevision ≤ u64Max) :
    turn.actor.spacesState.nextApplicationRevision ≤
        turn'.actor.spacesState.nextApplicationRevision ∧
      turn'.actor.spacesState.nextApplicationRevision ≤ u64Max := by
  refine h.invariant (P := fun turn' => turn.actor.spacesState.nextApplicationRevision ≤
      turn'.actor.spacesState.nextApplicationRevision ∧
    turn'.actor.spacesState.nextApplicationRevision ≤ u64Max) hcoh ?_ ⟨le_rfl, hbd⟩
  intro turn' turn'' hdeed hcoh ⟨hle, hbd⟩
  cases hdeed with
  | act hact =>
    obtain ⟨hle', hbd'⟩ := hact.nextApplicationRevision_le hcoh hbd
    exact ⟨hle.trans hle', hbd'⟩
  | ended hnth => exact ⟨hle, hbd⟩

theorem Deeds.tracks (hrpt : ¬licence.reports)
    (h : Deeds licence turn turn') (hcoh : Coherent turn.actor)
    (hbd : turn.actor.spacesState.nextApplicationRevision ≤ u64Max)
    (hroom : turn'.actor.spacesState.nextApplicationRevision < u64Max)
    (htracks : Tracks key shard turn.actor (standing key shard base turn.log) heeded seen) :
    Tracks key shard turn'.actor (standing key shard base turn'.log) heeded seen := by
  induction h with
  | refl => exact htracks
  | @tail turn' turn'' hdeeds hdeed ih =>
    have hcoh' := Deeds.coherent hdeeds hcoh
    obtain ⟨-, hbd'⟩ := Deeds.nextApplicationRevision_le hdeeds hcoh hbd
    cases hdeed with
    | act hact =>
      have hle := (hact.nextApplicationRevision_le hcoh' hbd').1
      exact hact.tracks hrpt hcoh' hbd' hroom (ih (hle.trans_lt hroom))
    | ended hnth => exact (ih hroom).endSession _

variable {revision : Nat}

theorem find?_filter_after {other : Nat} {history : OrderedMap Nat (OrderedMap String Nat)} :
    (find? (history.filter fun entry => entry.1 > revision) other) =
      if revision < other then history.find? other else none := by
  unfold find?
  rw [get?_filter]
  cases hget : history.get? other with
  | none => simp
  | some entry =>
    have hkey : entry.1 = other := key_of_get? hget
    by_cases hlt : revision < other <;> simp [filter_some, hkey, hlt]

theorem Pending.heard {heeded' next : Nat}
    (h : Pending heeded' next seen space) (haft : heeded' < revision)
    (report : Spaces.ReconcileReport) :
    Pending revision next seen (heard space revision report) where
  after other revisions hfind := by
    rw [SpacesState.heard, find?_filter_after] at hfind
    split_ifs at hfind with hlat
    exact ⟨hlat, (h.after other revisions hfind).2⟩
  current_lt := h.current_lt
  current hlt := (congrArg isSome (find?_filter_after.trans (if_pos hlt))).trans
    (h.current (haft.trans hlt))
  seen_le := h.seen_le
  seen_held other hmem hlt := (congrArg isSome (find?_filter_after.trans (if_pos hlt))).trans
    (h.seen_held other hmem (haft.trans hlt))

variable {revisions : OrderedMap String Nat} {ids : List String} {spacesState : SpacesState}

theorem Stands.heeds (h : Stands key shard actor heeded showing)
    (hrec : actor.spacesState.Reconciled key revision report space revisions ids spacesState) :
    ∃ participant, spacesState.participant showing.participantId = some participant ∧
      participant.space = key ∧ (showing.revision ≤ revision → report.refused.isNone = true →
        showing.accepted ≤ participant.appliedSpecRevision ∧ participant.applicationError = "") := by
  obtain ⟨shown, hshn, -, hcarried⟩ := h.shown
  obtain rfl : shown = space := some.inj (hshn.symm.trans hrec.space_eq)
  obtain ⟨participant, hget, hhome, -⟩ := h.wanted
  have haft := hrec.participant_eq showing.participantId
  rw [hget] at haft
  cases hfind : revisions.find? showing.participantId with
  | none =>
    rw [hfind] at haft
    refine ⟨participant, haft, hhome, fun hle => ?_⟩
    obtain ⟨carried, hsome, -⟩ := hcarried revision revisions hrec.carried hle
    rw [hfind] at hsome
    cases hsome
  | some applied =>
    simp only [hfind, map_some] at haft
    refine ⟨_, haft, ?_, fun hle haccept => ?_⟩
    · rw [ParticipantState.space, entryApplied_spec]
      exact hhome
    · obtain ⟨carried, hsome, hacc⟩ := hcarried revision revisions hrec.carried hle
      obtain rfl : applied = carried := some.inj (hfind.symm.trans hsome)
      have hrefused : report.refused = none := by simpa using haccept
      simp only [entryApplied, hhome, ParticipantState.applied, hrefused, ne_eq,
        not_true_eq_false, if_false]
      exact ⟨hacc.trans (le_max_right _ _), trivial⟩

section

variable (h : Tracks key shard actor showings heeded seen)

include h

theorem Tracks.heeds
    (hrec : actor.spacesState.Reconciled key revision report space revisions ids spacesState)
    (hsh : space.shard = shard) :
    Tracks key shard { actor with spacesState } showings (revision, report.refused.isNone) seen := by
  have hpending := h.pending space hrec.space_eq hsh
  obtain ⟨haft, hbef⟩ := hpending.after revision revisions hrec.carried
  have hnext := hrec.nextApplicationRevision_eq
  refine ⟨fun showing hmem => ?_, fun other space' hsp' => ?_,
    .inl (hsh ▸ h.created key space hrec.space_eq), ?_, ?_, fun space' hsp' _ => ?_⟩
  · have hstd := h.stands showing hmem
    refine ⟨?_, hstd.heeds hrec, hstd.owned, hnext.symm ▸ hstd.published⟩
    obtain ⟨shown, hshn, -, hcarried⟩ := hstd.shown
    obtain rfl : shown = space := some.inj (hshn.symm.trans hrec.space_eq)
    refine ⟨_, (hrec.space_after key).trans (if_pos rfl), hsh, ?_⟩
    intro other revisions' hfind hle
    rw [heard, find?_filter_after] at hfind
    split_ifs at hfind
    exact hcarried other revisions' hfind hle
  · have hold := (hrec.space_after other).symm.trans hsp'
    by_cases hoth : other = key
    · rw [if_pos hoth] at hold
      obtain rfl := some.inj hold
      exact h.created key space hrec.space_eq
    · rw [if_neg hoth] at hold
      exact h.created other space' hold
  · exact hbef.trans_eq hnext.symm
  · exact fun other hmem => (h.seen_lt other hmem).trans_eq hnext.symm
  · have hold := (hrec.space_after key).symm.trans hsp'
    rw [if_pos rfl] at hold
    obtain rfl := some.inj hold
    exact (hpending.heard haft report).mono hnext.ge

theorem Tracks.ignores
    (hrec : actor.spacesState.Reconciled other revision report space revisions ids spacesState)
    (hoth : other = key → space.shard ≠ shard) :
    Tracks key shard { actor with spacesState } showings heeded seen := by
  have hnext := hrec.nextApplicationRevision_eq
  have hdead : ∀ showing ∈ showings, other ≠ key := by
    rintro showing hmem rfl
    obtain ⟨shown, hshn, hsh, -⟩ := (h.stands showing hmem).shown
    obtain rfl : shown = space := some.inj (hshn.symm.trans hrec.space_eq)
    exact hoth rfl hsh
  refine ⟨fun showing hmem => ?_, fun other' space' hsp' => ?_, h.first, ?_, ?_,
    fun space' hsp' hsh => ?_⟩
  · have hne := hdead showing hmem
    have hstd := h.stands showing hmem
    refine ⟨?_, ?_, hstd.owned, hnext.symm ▸ hstd.published⟩
    · rw [(hrec.space_after key).trans (if_neg hne.symm)]
      exact hstd.shown
    · obtain ⟨participant, hget, hhome, hdone⟩ := hstd.wanted
      refine ⟨participant, ?_, hhome, hdone⟩
      have haft := hrec.participant_eq showing.participantId
      rw [hget] at haft
      refine haft.trans ?_
      have hstays : participant.space ≠ other := hhome ▸ hne.symm
      cases revisions.find? showing.participantId with
      | none => rfl
      | some carried => simp [entryApplied, hstays]
  · have hold := (hrec.space_after other').symm.trans hsp'
    by_cases hsame : other' = other
    · rw [if_pos hsame] at hold
      obtain rfl := some.inj hold
      exact h.created other space hrec.space_eq
    · rw [if_neg hsame] at hold
      exact h.created other' space' hold
  · exact h.heeded_lt.trans_eq hnext.symm
  · exact fun revision hmem => (h.seen_lt revision hmem).trans_eq hnext.symm
  · have hold := (hrec.space_after key).symm.trans hsp'
    by_cases hsame : key = other
    · rw [if_pos hsame] at hold
      obtain rfl := some.inj hold
      exact absurd hsh (hoth hsame.symm)
    · rw [if_neg hsame] at hold
      exact (h.pending space' hold hsh).mono hnext.ge

theorem Tracks.unfollowed {heeded' : Nat × Bool}
    (hgone : ∀ space, actor.spacesState.space key = some space → space.shard ≠ shard)
    (hseen : seen ≠ []) (hlt : heeded'.1 < actor.spacesState.nextApplicationRevision) :
    Tracks key shard actor showings heeded' seen := by
  refine ⟨fun showing hmem => ?_, h.created, ?_, hlt, h.seen_lt, fun space hsp hsh => ?_⟩
  · obtain ⟨space, hsp, hsh, -⟩ := (h.stands showing hmem).shown
    exact absurd hsh (hgone space hsp)
  · exact .inl (h.first.resolve_right fun hnever => hseen hnever.2)
  · exact absurd hsh (hgone space hsp)

end

end Followed

end MumbleRuntime.SpacesServer
