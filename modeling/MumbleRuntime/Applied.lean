import MumbleRuntime.Standing

/-!
# What is applied and what was accepted

The report of a render applies the revisions the render carried, by a maximum. A
registration that replaces another starts its revisions anew while renders of the
old one are still unreported, so what is applied stays within what was accepted only
as long as no report applies a revision the present registration has not reached.
-/

namespace MumbleRuntime.SpacesServer

open Library Controller Spaces Option OwnershipRegistry ControllerActor

def Within (actor : ControllerActor) : Prop :=
  ∀ id participant ownership, actor.spacesState.participant id = some participant →
    actor.ownership.get id = some ownership →
    participant.appliedSpecRevision ≤ ownership.clientRevision

/-- An accepted report carries every participant of the Space at a revision its present registration
has reached. -/
def reportsReached (actor : ControllerActor) (input : Input) : Bool :=
  match input.command with
  | .reconciled key revision report =>
    report.refused.isSome || (actor.spacesState.space key).all fun space =>
      (space.renderHistory.find? revision).all fun revisions =>
        revisions.rows.all fun entry =>
          (actor.spacesState.participant entry.1).all fun participant =>
            participant.space ≠ key || (actor.ownership.get entry.1).all fun ownership =>
              entry.2 ≤ ownership.clientRevision
  | _ => true

namespace Within

variable {actor actor' : ControllerActor}

section

variable (h : Within actor)

include h

theorem same (hsame : SameEntities actor actor') : Within actor' := by
  intro id participant ownership hget hown
  rw [hsame.spacesState] at hget
  rw [hsame.ownership] at hown
  exact h id participant ownership hget hown

theorem insertParticipant {participant former : ParticipantState}
    (hformer : actor.spacesState.participant participant.participantId = some former)
    (happ : participant.appliedSpecRevision = former.appliedSpecRevision) :
    Within { actor with spacesState := actor.spacesState.insertParticipant participant } := by
  intro id wanted ownership hget hown
  change (actor.spacesState.participants.insert participant).get? id = some wanted at hget
  rw [Table.get?_insert] at hget
  split_ifs at hget with hid
  · obtain rfl := some.inj hget
    rw [happ]
    exact h id former ownership (hid ▸ hformer) hown
  · exact h id wanted ownership hget hown

theorem enter {participant : ParticipantState} {state : OwnershipState}
    (hid : state.entityId = participant.participantId)
    (happ : participant.appliedSpecRevision = 0) :
    Within { actor with
      ownership := actor.ownership.put state
      spacesState := actor.spacesState.insertParticipant participant } := by
  intro id wanted ownership hget hown
  change (actor.spacesState.participants.insert participant).get? id = some wanted at hget
  rw [Table.get?_insert] at hget
  rw [get_put, hid] at hown
  split_ifs at hget hown
  · obtain rfl := some.inj hget
    exact happ.trans_le (Nat.zero_le _)
  · exact h id wanted ownership hget hown

theorem revise {state : OwnershipState} {clientRevision : Nat}
    (hown : actor.ownership.get state.entityId = some state)
    (hle : state.clientRevision ≤ clientRevision) :
    Within { actor with ownership := actor.ownership.put { state with clientRevision } } := by
  intro id wanted ownership hget hown'
  rw [get_put] at hown'
  split_ifs at hown' with hid
  · obtain rfl := some.inj hown'
    exact (h id wanted state hget (hid ▸ hown)).trans hle
  · exact h id wanted ownership hget hown'

theorem leave (left : String) :
    Within { actor with
      ownership := { actor.ownership with entries := actor.ownership.entries.erase left }
      spacesState := actor.spacesState.removeParticipant left } := by
  intro id wanted ownership hget hown
  change (actor.spacesState.participants.erase left).get? id = some wanted at hget
  change (actor.ownership.entries.erase left).get? id = some ownership at hown
  rw [Table.get?_erase] at hget hown
  split_ifs at hget hown
  exact h id wanted ownership hget hown

theorem reconciled {moment : Moment} {key : String} {revision : Nat}
    {report : Spaces.ReconcileReport} {space : MaterializedSpace}
    {revisions : OrderedMap String Nat} {ids : List String} {spacesState : SpacesState}
    (hrec : actor.spacesState.Reconciled key revision report space revisions ids spacesState)
    (hreached : reportsReached actor ⟨moment, .reconciled key revision report⟩ = true) :
    Within { actor with spacesState } := by
  intro id participant ownership hget hown
  have haft := (hrec.participant_eq id).symm.trans hget
  cases hfind : revisions.find? id with
  | none =>
    rw [hfind] at haft
    exact h id participant ownership haft hown
  | some carried =>
    simp only [hfind] at haft
    obtain ⟨former, hformer, rfl⟩ := map_eq_some_iff.mp haft
    have hold := h id former ownership hformer hown
    unfold SpacesState.entryApplied ParticipantState.applied
    split_ifs with hsp
    · exact hold
    · cases hrefused : report.refused with
      | some error => exact hold
      | none =>
        have hentry : (id, carried) ∈ revisions.rows := OrderedMap.mem_rows_iff_find?.mpr hfind
        simp only [reportsReached, hrefused, isSome_none, Bool.false_or,
          hrec.space_eq, hrec.carried, all_some, List.all_eq_true] at hreached
        have hcarried := hreached (id, carried) hentry
        have hown' : actor.ownership.get id = some ownership := hown
        simp only [hformer, hown', all_some, Bool.or_eq_true, decide_eq_true_eq] at hcarried
        exact max_le hold (hcarried.resolve_left hsp)

end

end Within

theorem Act.within {licence : Licence} {turn turn' : Turn} (hrpt : ¬licence.reports)
    (h : Act licence turn turn') (hcoh : Coherent turn.actor) (hwithin : Within turn.actor) :
    Within turn'.actor := by
  cases h with
  | aside hasd => exact hwithin.same (hasd.same hcoh)
  | published key =>
    intro id participant ownership hget hown
    rw [SpacesState.participant, turn.publish_participants] at hget
    rw [(turn.publish_republished key).ownership] at hown
    exact hwithin id participant ownership hget hown
  | revised hget hle => exact hwithin.revise hget hle
  | respecified hget hhome
  | muted selfMute selfDeaf hget => exact hwithin.insertParticipant hget rfl
  | entered state participant credential hnone hid hlive hav hok happ hhome =>
    exact (hwithin.enter hid happ)
  | replaced state participant credential hown hget hid hlive hav hok happ hhome htold =>
    have hsame := htold.same (hcoh.claim hown hlive)
    intro id wanted ownership hwanted hown'
    refine hwithin.enter hid happ id wanted ownership ?_ ?_
    · have hsps : _ = turn.actor.spacesState := hsame.spacesState
      exact hsps ▸ hwanted
    · have hownership : _ = turn.actor.ownership.put state := hsame.ownership
      exact hownership ▸ hown'
  | left hown hget =>
    rw [Turn.revoke_actor]
    exact hwithin.leave _
  | reported hlicensed hrcl => exact absurd hlicensed hrpt
  | _ => exact hwithin

theorem Deeds.within {licence : Licence} {turn turn' : Turn} (hrpt : ¬licence.reports)
    (h : Deeds licence turn turn') (hcoh : Coherent turn.actor) (hwithin : Within turn.actor) :
    Within turn'.actor := by
  refine h.invariant (P := fun turn => Within turn.actor) hcoh ?_ hwithin
  intro turn turn' hdeed hcoh hwithin
  cases hdeed with
  | act hact => exact hact.within hrpt hcoh hwithin
  | ended hnth => exact hwithin

theorem ControllerActor.turn_within {actor : ControllerActor} {input : Input}
    (hcoh : Coherent actor) (hfr : freshStream actor input = true)
    (hreached : reportsReached actor input = true) (hwithin : Within actor) :
    Within (actor.turn input).actor := by
  by_cases hcmd : ∀ key revision report, input.command ≠ .reconciled key revision report
  · have hdeeds : Deeds .reportless (actor.opening input) (actor.turn input) :=
      turn_deeds hcoh hfr (.inl trivial) (fun _ _ _ => trivial)
        fun key revision report heq => absurd heq (hcmd key revision report)
    exact hdeeds.within id hcoh hwithin
  · push Not at hcmd
    obtain ⟨key, revision, report, hcmd⟩ := hcmd
    obtain ⟨moment, command⟩ := input
    subst hcmd
    cases hrcl : actor.spacesState.reconcile key revision report with
    | none => exact hwithin.same (turn_unrecognised moment hrcl).1
    | some reconciled =>
      obtain ⟨space, revisions, hrec⟩ := SpacesState.reconcile_reconciled hrcl
      obtain ⟨middle, hsame, -, hmiddle, hdeeds⟩ :=
        turn_recognised hcoh .reportless moment hrcl
      exact hdeeds.within id hmiddle ((hwithin.reconciled hrec hreached).same hsame)

/-- A session registers a participant at a revision, a second session takes it over at another, and
the report of the first render comes in. -/
def takenOverInputs (first second : Nat) : List Input :=
  [openInput 1 [1] [] [sampleRegistration [] first "lobby"] 10,
    openInput 2 [1] [] [] 20,
    ⟨calm 0 30, .frame 2 ⟨[2], some (.registerParticipant (sampleBytes 32 20)
      (some ⟨"ada", [2], [], second, some (sampleSpec "lobby")⟩))⟩⟩,
    ⟨calm 0 40, .reconciled "lobby" 1 ⟨1, none⟩⟩]

def takenOverActor (first second : Nat) : ControllerActor :=
  (runActions ControllerActor.step (.spawn sampleConfig [0]) (takenOverInputs first second)).getD
    (.spawn sampleConfig [0])

def appliedAndAccepted (actor : ControllerActor) : List (Nat × Option Nat) :=
  actor.spacesState.participants.rows.map fun participant =>
    (participant.appliedSpecRevision,
      (actor.ownership.get participant.participantId).map OwnershipState.clientRevision)

end MumbleRuntime.SpacesServer
