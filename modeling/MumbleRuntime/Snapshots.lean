import MumbleRuntime.Sparing

/-!
# A snapshot only touches its own session

A snapshot releases what its session owns and it does not list, and then registers what
it lists: under two warrants, of which neither names an entity of another session and
the second releases nothing.
-/

namespace MumbleRuntime.SpacesServer

open Library Controller Spaces ParticipantRegistration Warrant OwnershipRegistry ControllerActor

/-- What is done before the registrations of a snapshot: entities of a list are released. -/
def Warrant.pruning (ids : List String) : Warrant where
  roams := False
  seats _ := False
  reports := False
  revises _ := False
  claims _ := False
  releases id := id ∈ ids
  departs := False

/-- What the registrations of a snapshot may do: claim what they list and nobody owns, and revise
what they list and no other session owns. -/
def Warrant.enrolling (actor : ControllerActor) (sessionId : SessionId) (listed : List String) :
    Warrant where
  roams := True
  seats _ := False
  reports := False
  revises id := id ∈ listed ∧
    ∀ state, actor.ownership.get id = some state → state.owner = sessionId
  claims id := id ∈ listed ∧ actor.ownership.get id = none
  releases _ := False
  departs := False

theorem Warrant.pruning_still (ids : List String) : (pruning ids).Still :=
  ⟨fun _ => id, id, id⟩

theorem Warrant.enrolling_still (actor : ControllerActor) (sessionId : SessionId)
    (listed : List String) : (enrolling actor sessionId listed).Still :=
  ⟨fun _ => id, id, id⟩

namespace Turn

variable (turn : Turn) (sessionId : SessionId)

def unlisted (snapshot : DesiredStateSnapshot) : List String :=
  (turn.actor.ownership.ownedEntities sessionId).filter fun id =>
    !(snapshot.participants.map ParticipantRegistration.participantId).contains id

theorem mem_unlisted {snapshot : DesiredStateSnapshot} {id : String} :
    id ∈ turn.unlisted sessionId snapshot ↔
      (∃ state, turn.actor.ownership.get id = some state ∧ state.owner = sessionId) ∧
        id ∉ snapshot.participants.map participantId := by
  simp [unlisted, mem_ownedEntities]

theorem adoptSnapshot_ownership (snapshot : DesiredStateSnapshot) :
    (turn.adoptSnapshot sessionId snapshot).actor.ownership =
      (turn.releaseAll sessionId (turn.unlisted sessionId snapshot)
        .participantReleased).actor.ownership := by
  unfold adoptSnapshot unlisted
  dsimp only [setCore]
  split <;> rfl

theorem adoptSnapshot_get (hcoh : Coherent turn.actor) (snapshot : DesiredStateSnapshot)
    (id : String) : (turn.adoptSnapshot sessionId snapshot).actor.ownership.get id =
      if id ∈ turn.unlisted sessionId snapshot then none else turn.actor.ownership.get id := by
  rw [adoptSnapshot_ownership]
  refine turn.releaseAll_get sessionId hcoh _ _ (fun id hid state hget => ?_) id
  obtain ⟨⟨state', hget', howr⟩, -⟩ := (turn.mem_unlisted sessionId).mp hid
  rw [hget] at hget'
  cases hget'
  exact howr

theorem enroll_does (snapshot : DesiredStateSnapshot) (requestId : Bytes) :
    Does (.enrolling turn.actor sessionId (snapshot.participants.map participantId)) sessionId turn
      (snapshot.participants.foldl (fun turn registration =>
        turn.registerFromSnapshot sessionId registration requestId) turn) := by
  intro hcoh hlive
  refine turn.registerAll_does sessionId requestId _ (fun turn' hdealings registration hmem => ?_)
    (.inl trivial) hcoh hlive
  have hlst := List.mem_map_of_mem (f := participantId) hmem
  -- What is owned at the start is neither claimed nor released on the way.
  have hheld : ∀ state, turn.actor.ownership.get registration.participantId = some state →
      ∃ clientRevision, turn'.actor.ownership.get registration.participantId =
        some { state with clientRevision } := by
    intro state hget
    refine hdealings.held hcoh (fun hcl => ?_) id hget
    have hnone := hcl.2
    rw [hget] at hnone
    cases hnone
  refine ⟨fun hnone => ⟨hlst, ?_⟩, fun current hcur howr => ⟨hlst, ?_⟩⟩
  · cases hget : turn.actor.ownership.get registration.participantId with
    | none => rfl
    | some state =>
      obtain ⟨clientRevision, hget'⟩ := hheld state hget
      rw [hnone] at hget'
      cases hget'
  · intro state hget
    obtain ⟨clientRevision, hget'⟩ := hheld state hget
    rw [hcur] at hget'
    cases hget'
    exact howr

end Turn

/-- A snapshot leaves the entities of other sessions as they are, releases what its session owns
and it does not list, keeps what its session owns and it lists, and leaves its session with
nothing that it does not list. -/
theorem snapshot_touches_its_session (turn : Turn) (sessionId : SessionId)
    (snapshot : DesiredStateSnapshot) (requestId : Bytes) (hcoherent : Coherent turn.actor)
    (hlive : turn.actor.coreSessions.contains sessionId = true) :
    let after := turn.reconcileSnapshot sessionId (some snapshot) requestId
    let listed := snapshot.participants.map participantId
    (∀ id state, turn.actor.ownership.get id = some state → state.owner ≠ sessionId →
      Untouched id turn.actor after.actor) ∧
    (∀ id state, turn.actor.ownership.get id = some state → state.owner = sessionId →
      if id ∈ listed then
        ∃ clientRevision, after.actor.ownership.get id = some { state with clientRevision }
      else after.actor.ownership.get id = none ∧ after.actor.spacesState.participant id = none ∧
        after.actor.host.bindings.participants.get? id = none) ∧
    (∃ effects, after.log = turn.log ++ effects ∧
      ∀ id, .released id ∈ effects ↔
        (∃ state, turn.actor.ownership.get id = some state ∧ state.owner = sessionId) ∧
          id ∉ listed) ∧
    ∀ id ∈ after.actor.ownership.ownedEntities sessionId, id ∈ listed := by
  intro after listed
  have hadopted : Dealings (.pruning (turn.unlisted sessionId snapshot)) turn
      (turn.adoptSnapshot sessionId snapshot) :=
    turn.adoptSnapshot_does sessionId snapshot (fun _ hid => hid) hcoherent hlive
  have hget := turn.adoptSnapshot_get sessionId hcoherent snapshot
  have hcoherent' := hadopted.coherent hcoherent
  have henrolled : Dealings (.enrolling (turn.adoptSnapshot sessionId snapshot).actor sessionId
      listed) (turn.adoptSnapshot sessionId snapshot) after :=
    (Turn.enroll_does _ sessionId snapshot requestId hcoherent' (hadopted.live hcoherent hlive)).append
      (.of_asides ((Turn.sendSession_asides _ sessionId rfl).append
        (Turn.sendEffectiveSpaceSnapshots_asides _ sessionId)))
  have haft := henrolled.coherent hcoherent'
  generalize turn.adoptSnapshot sessionId snapshot = adopted at hadopted hget hcoherent' henrolled
  -- What was released is not listed, so it is not claimed again.
  have hreleased : ∀ id ∈ turn.unlisted sessionId snapshot,
      after.actor.ownership.get id = none := by
    intro id hid
    refine henrolled.unheld hcoherent' (fun hcl => ?_) ((hget id).trans (if_pos hid))
    exact ((turn.mem_unlisted sessionId).mp hid).2 hcl.1
  have hheld : ∀ id state, id ∉ turn.unlisted sessionId snapshot →
      turn.actor.ownership.get id = some state →
      adopted.actor.ownership.get id = some state ∧
        ¬(Warrant.enrolling adopted.actor sessionId listed).claims id := by
    intro id state hid hst
    have hkept := (hget id).trans (if_neg hid)
    rw [hst] at hkept
    refine ⟨hkept, fun hcl => ?_⟩
    have hnone := hcl.2
    rw [hkept] at hnone
    cases hnone
  refine ⟨fun id state hst howr => ?_, fun id state hst howr => ?_, ?_, ?_⟩
  · have hid : id ∉ turn.unlisted sessionId snapshot := by
      intro hid
      obtain ⟨⟨state', hst', howr'⟩, -⟩ := (turn.mem_unlisted sessionId).mp hid
      rw [hst] at hst'
      cases hst'
      exact howr howr'
    obtain ⟨hkept, hcl⟩ := hheld id state hid hst
    refine (hadopted.untouched hcoherent (Warrant.pruning_still _) ⟨not_false, not_false, hid⟩).trans
      (henrolled.untouched hcoherent' (Warrant.enrolling_still _ _ _)
        ⟨fun hrev => ?_, hcl, not_false⟩)
    exact howr (hrev.2 state hkept)
  · split_ifs with hlst
    · have hid : id ∉ turn.unlisted sessionId snapshot :=
        fun hid => ((turn.mem_unlisted sessionId).mp hid).2 hlst
      obtain ⟨hkept, hcl⟩ := hheld id state hid hst
      exact henrolled.held hcoherent' hcl not_false hkept
    · have hnone := hreleased id ((turn.mem_unlisted sessionId).mpr ⟨⟨state, hst, howr⟩, hlst⟩)
      exact ⟨hnone, haft.absent hnone⟩
  · obtain ⟨effects, hlog, hwarranted, htold⟩ := hadopted.releases hcoherent
    obtain ⟨effects', hlog', hwarranted', -⟩ := henrolled.releases hcoherent'
    refine ⟨effects ++ effects', by rw [hlog', hlog, List.append_assoc], fun id => ?_⟩
    rw [← turn.mem_unlisted sessionId, List.mem_append]
    refine ⟨fun hmem => ?_, fun hid => .inl (htold id ?_ ((hget id).trans (if_pos hid)))⟩
    · exact hmem.elim (hwarranted id) fun hmem => (hwarranted' id hmem).elim
    · obtain ⟨⟨state, hst, -⟩, -⟩ := (turn.mem_unlisted sessionId).mp hid
      simp [hst]
  · intro id hid
    by_contra hlst
    obtain ⟨state, hst, howr⟩ := OwnershipRegistry.mem_ownedEntities.mp hid
    cases hbef : adopted.actor.ownership.get id with
    | none =>
      have hnone := henrolled.unheld hcoherent' (fun hcl => hlst hcl.1) hbef
      rw [hst] at hnone
      cases hnone
    | some held =>
      have hkept := hget id
      rw [hbef] at hkept
      split_ifs at hkept with hunlisted
      obtain ⟨-, hcl⟩ := hheld id held hunlisted hkept.symm
      obtain ⟨clientRevision, hlast⟩ := henrolled.held hcoherent' hcl not_false hbef
      rw [hst] at hlast
      cases hlast
      exact hunlisted ((turn.mem_unlisted sessionId).mpr ⟨⟨held, hkept.symm, howr⟩, hlst⟩)

def neighbourInputs : List Input :=
  joinedInputs ++ [openInput 2 [2] [] [⟨"bob", [2], [], 1, some (sampleSpec "lobby")⟩] 30]

def neighbourActor : ControllerActor :=
  (runActions ControllerActor.step (.spawn sampleConfig [0]) neighbourInputs).getD
    (.spawn sampleConfig [0])

theorem neighbourActor_coherent : Coherent neighbourActor := by
  have hreaches : Reaches step (fun actor input => freshStream actor input = true)
      (.spawn sampleConfig [0]) neighbourActor :=
    reaches_getD (by decide +kernel)
  exact coherent_of_reaches hreaches

theorem snapshot_touches_its_session_neighbour :
    neighbourActor.ownership.ownedEntities 1 = ["ada"] ∧
    Untouched "bob" neighbourActor
      (Turn.reconcileSnapshot ⟨neighbourActor, calm 0 40, 0, 0, []⟩ 1 (some ⟨1, [], []⟩) [3]).actor :=
  ⟨by decide +kernel,
    (snapshot_touches_its_session ⟨neighbourActor, calm 0 40, 0, 0, []⟩ 1 ⟨1, [], []⟩ [3]
      neighbourActor_coherent (by decide +kernel)).1 "bob" ⟨"bob", 2, [2], sampleBytes 32 32, 1⟩
      (by decide +kernel) (by decide)⟩

end MumbleRuntime.SpacesServer
