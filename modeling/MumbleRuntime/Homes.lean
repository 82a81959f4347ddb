import MumbleRuntime.ActorTurns

/-!
# Every desired Space exists

A spec is installed by an acquisition or by a change of a registration, and each
makes sure of the Space first, except the resumption of a registration. Where such
a registration names a Space that exists, so do all.
-/

namespace MumbleRuntime.SpacesServer

open Library Controller Spaces SpacesState ControllerActor Table

def Homed (spaces : SpacesState) : Prop :=
  ∀ id participant, spaces.participant id = some participant →
    spaces.containsSpace participant.space = true

namespace Homed

variable {spaces spaces' : SpacesState}

section

variable (h : Homed spaces)

include h

theorem mono (hpart : ∀ id participant, spaces'.participant id = some participant →
      ∃ participant', spaces.participant id = some participant' ∧
        participant.space = participant'.space)
    (hsp : ∀ id participant, spaces.participant id = some participant →
      spaces.containsSpace participant.space = true →
      spaces'.containsSpace participant.space = true) : Homed spaces' := by
  intro id participant hget
  obtain ⟨participant', hget', hsame⟩ := hpart id participant hget
  rw [hsame]
  exact hsp id participant' hget' (h id participant' hget')

theorem insertParticipant {participant : ParticipantState}
    (hhome : spaces.containsSpace participant.space = true) :
    Homed (spaces.insertParticipant participant) := by
  intro id other hget
  change (spaces.participants.insert participant).get? id = some other at hget
  rw [get?_insert] at hget
  split_ifs at hget with hid
  · cases hget
    exact hhome
  · exact h id other hget

theorem insertSpace (space : MaterializedSpace) : Homed (spaces.insertSpace space) := by
  intro id participant hget
  rw [containsSpace_insertSpace, h id participant hget, Bool.or_true]

theorem removeParticipant (id : String) : Homed (spaces.removeParticipant id) := by
  intro other participant hget
  change (spaces.participants.erase id).get? other = some participant at hget
  rw [get?_erase] at hget
  split_ifs at hget
  exact h other participant hget

theorem removeSpace {key : String} (hunw : spaces.wanted key = false) :
    Homed (spaces.removeSpace key) := by
  intro id participant hget
  have hne : participant.space ≠ key := by
    intro heq
    have hwanted : spaces.wanted key = true :=
      List.any_eq_true.mpr ⟨participant, mem_of_get? hget, by simpa using heq⟩
    rw [hunw] at hwanted
    cases hwanted
  rw [containsSpace_removeSpace, h id participant hget]
  simp [hne]

theorem reconciled {key : String} {applicationRevision : Nat}
    {report : Spaces.ReconcileReport} {space : MaterializedSpace}
    {revisions : OrderedMap String Nat} {ids : List String}
    (hrec : spaces.Reconciled key applicationRevision report space revisions ids spaces') :
    Homed spaces' := by
  refine h.mono ?_ ?_
  · intro id participant hget
    rw [hrec.participant_eq] at hget
    cases hfind : revisions.find? id with
    | none =>
      rw [hfind] at hget
      exact ⟨participant, hget, rfl⟩
    | some appliedRevision =>
      rw [hfind] at hget
      obtain ⟨previous, hprevious, rfl⟩ := Option.map_eq_some_iff.mp hget
      exact ⟨previous, hprevious, by simp [ParticipantState.space]⟩
  · intro id participant hget hctn
    unfold containsSpace
    rw [hrec.materialized_eq]
    refine (containsSpace_insertSpace _ _).trans ?_
    rw [hctn, Bool.or_true]

end

end Homed

theorem Turn.publish_homed (turn : Turn) (key : String) (h : Homed turn.actor.spacesState) :
    Homed (turn.publish key).actor.spacesState := by
  unfold Turn.publish
  dsimp only [takeApplicationRevision]
  split
  · exact h
  · have htkn : Homed turn.actor.spacesState.takeApplicationRevision.2 := h
    exact htkn.insertSpace _

theorem Act.homed {licence : Licence} {turn turn' : Turn} (hroams : ¬licence.roams)
    (h : Act licence turn turn') (hcoh : Coherent turn.actor)
    (hhomed : Homed turn.actor.spacesState) : Homed turn'.actor.spacesState := by
  cases h with
  | aside hasd =>
    rw [(hasd.same hcoh).spacesState]
    exact hhomed
  | materialized incarnationId hnew => exact hhomed.insertSpace _
  | published key => exact turn.publish_homed key hhomed
  | closed hget hunw => exact hhomed.removeSpace hunw
  | respecified hget hhome => exact hhomed.insertParticipant (hhome.resolve_left hroams)
  | entered state participant credential hnone hid hlive hav hok happ hhome =>
    exact hhomed.insertParticipant hhome
  | replaced state participant credential hown hget hid hlive hav hok happ hhome htold =>
    have hsps := (htold.same (hcoh.claim hown hlive)).spacesState
    have hmiddle : Homed _ := hsps.symm ▸ hhomed
    exact hmiddle.insertParticipant (hsps.symm ▸ hhome)
  | left hown hget =>
    rw [Turn.revoke_actor]
    exact hhomed.removeParticipant _
  | @muted participant selfMute selfDeaf hget =>
    have hhome := hhomed participant.participantId participant hget
    exact hhomed.insertParticipant hhome
  | reported hrpt hrcl =>
    obtain ⟨space, revisions, hrec⟩ := reconcile_reconciled hrcl
    exact hhomed.reconciled hrec
  | _ => exact hhomed

theorem ControllerActor.turn_homed {actor : ControllerActor} {input : Input}
    (hcoh : Coherent actor) (hhomed : Homed actor.spacesState)
    (hfr : freshStream actor input = true)
    (hguard : (actor.opening input).homed input.command = true) :
    Homed (actor.turn input).actor.spacesState := by
  have hdeeds : Deeds ⟨False, fun _ => True, True⟩ (actor.opening input) (actor.turn input) :=
    turn_deeds hcoh hfr (.inr hguard) (fun _ _ _ => trivial) fun _ _ _ _ => trivial
  refine hdeeds.invariant (P := fun turn => Homed turn.actor.spacesState) hcoh ?_ hhomed
  intro turn turn' hdeed hcoh hhomed
  cases hdeed with
  | act hact => exact hact.homed not_false hcoh hhomed
  | ended hnth => exact hhomed

/-- While no registration resumes under a newer revision into a Space that does not exist, every
participant's Space is materialized between two commands. -/
theorem desired_spaces_exist (config : ControllerConfig) (controlEpoch : Bytes)
    {actor : ControllerActor}
    (h : Reaches ControllerActor.step (fun actor input => freshStream actor input = true ∧
      (actor.opening input).homed input.command = true) (.spawn config controlEpoch) actor) :
    ∀ participant ∈ actor.spacesState.participants.rows,
      actor.spacesState.containsSpace participant.space = true := by
  have hboth := Reaches.invariant (P := fun actor => Coherent actor ∧ Homed actor.spacesState)
    ⟨.spawn config controlEpoch, fun _ _ hget => by
      simp [ControllerActor.spawn, new, participant] at hget⟩
    (fun actor input actor' ⟨hcoh, hhomed⟩ ⟨hfr, hguard⟩ hstep => by
      refine ⟨ControllerActor.step_coherent hcoh hfr hstep, ?_⟩
      cases hstep
      exact ControllerActor.turn_homed hcoh hhomed hfr hguard) h
  intro participant hmem
  exact hboth.2 _ participant (Table.get?_of_mem hmem)

/-- The participant of `joinedInputs` resumed by a snapshot at revision 2. -/
def resumedInputs (spaceKey : String) : List Input :=
  joinedInputs ++
    [⟨calm 0 20, .frame 1 ⟨[2], some (.syncDesiredState (sampleBytes 32 10)
      (some ⟨1, [sampleRegistration (sampleBytes 32 13) 2 spaceKey], []⟩))⟩⟩]

def resumedActor (spaceKey : String) : ControllerActor :=
  (runActions ControllerActor.step (.spawn sampleConfig [0]) (resumedInputs spaceKey)).getD
    (.spawn sampleConfig [0])

theorem desired_spaces_exist_resumed :
    (resumedActor "lobby").spacesState.participants.rows.map ParticipantState.space = ["lobby"] ∧
    ∀ participant ∈ (resumedActor "lobby").spacesState.participants.rows,
      (resumedActor "lobby").spacesState.containsSpace participant.space = true :=
  ⟨by decide +kernel, desired_spaces_exist sampleConfig [0] (reaches_getD (by decide +kernel))⟩

/-- A snapshot that resumes the participant into a Space nobody was in. -/
theorem resumed_into_missing_space :
    Reaches ControllerActor.step (fun actor input => freshStream actor input = true)
      (.spawn sampleConfig [0]) (resumedActor "arena") ∧
    (resumedActor "arena").spacesState.participants.rows.map ParticipantState.space = ["arena"] ∧
    (resumedActor "arena").spacesState.containsSpace "arena" = false :=
  ⟨reaches_getD (by decide +kernel), by decide +kernel⟩

end MumbleRuntime.SpacesServer
