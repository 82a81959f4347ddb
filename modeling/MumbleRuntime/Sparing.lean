import MumbleRuntime.ActorTurns

/-!
# What a warrant spares

What a warrant does not allow to be revised, claimed or released stays as it is, and
the log tells every release.
-/

namespace MumbleRuntime.SpacesServer

open Library Controller Spaces SpacesServer.Effect Turn OwnershipRegistry Bindings

def Effect.keeps : Effect → Bool
  | .released _ => false
  | _ => true

theorem Effect.keeps_of_plain {effect : Effect}
    (h : effect.plain = true) : effect.keeps = true := by
  cases effect <;> simp_all [plain, keeps]

structure Untouched (id : String) (actor actor' : ControllerActor) : Prop where
  ownership : actor'.ownership.get id = actor.ownership.get id
  spec : (actor'.spacesState.participant id).map ParticipantState.spec =
    (actor.spacesState.participant id).map ParticipantState.spec
  binding : actor'.host.bindings.participants.get? id = actor.host.bindings.participants.get? id

namespace Untouched

variable {id : String} {actor actor' actor'' : ControllerActor}

theorem trans (h : Untouched id actor actor') (h' : Untouched id actor' actor'') :
    Untouched id actor actor'' :=
  ⟨h'.ownership.trans h.ownership, h'.spec.trans h.spec, h'.binding.trans h.binding⟩

theorem of_republished (h : Republished actor actor') : Untouched id actor actor' := by
  refine ⟨by rw [h.ownership], ?_, by rw [h.host]⟩
  rw [SpacesState.participant, h.participants]
  rfl

end Untouched

namespace Turn

variable (turn : Turn)

theorem foldl_logs {α : Type*} {p : Effect → Bool} {step : Turn → α → Turn} (items : List α)
    (hstep : ∀ (turn : Turn) (item : α), turn.Logs (step turn item) p) :
    turn.Logs (items.foldl step turn) p := by
  induction items generalizing turn with
  | nil => exact .of_eq rfl
  | cons item items ih => exact (hstep turn item).trans (ih (step turn item))

theorem refreshSpace_keeps (key : String) : turn.Logs (turn.refreshSpace key) keeps := by
  refine (turn.publish_logs key fun _ _ => rfl).trans ?_
  unfold refreshSpace
  generalize turn.publish key = turn'
  unfold broadcastSpaceSnapshot
  cases turn'.actor.spaceSnapshot key with
  | none => exact .of_eq rfl
  | some snapshot =>
    refine turn'.foldl_logs _ fun turn sessionId => ?_
    exact (turn.sendSession_spoken sessionId _).logs.mono fun _ => keeps_of_plain

theorem followSpace_keeps (connection : Option ConnectionId) (key : String) :
    turn.Logs (turn.followSpace connection key) keeps := by
  unfold followSpace
  cases connection with
  | none => exact .of_eq rfl
  | some connection =>
    cases turn.actor.spacesState.space key with
    | none => exact .of_eq rfl
    | some space => exact .note rfl rfl

theorem reveal_keeps (participant : ParticipantState) (oldSpace : Option String) :
    turn.Logs (turn.reveal participant oldSpace) keeps := by
  cases oldSpace with
  | none => exact turn.refreshSpace_keeps participant.space
  | some oldSpace =>
    simp only [reveal]
    split_ifs with hmoved
    · exact ((turn.refreshSpace_keeps oldSpace).trans (refreshSpace_keeps _ _)).trans
        (followSpace_keeps _ _ _)
    · exact turn.refreshSpace_keeps participant.space

theorem applySpec_keeps (participantId : String) (spec : ParticipantSpec) :
    turn.Logs (turn.applySpec participantId spec) keeps := by
  unfold applySpec
  cases turn.actor.spacesState.replaceParticipantSpec participantId spec with
  | none => exact .of_eq rfl
  | some change =>
    obtain ⟨change, spacesState⟩ := change
    have hnoted : turn.Logs ((turn.setSpaces spacesState).note
        (.respecified participantId change.desiredSpaceKey)) keeps := .note rfl rfl
    have hfst := hnoted.trans (refreshSpace_keeps _ change.previousSpaceKey)
    dsimp only
    split_ifs with hmoved
    · exact (hfst.trans (refreshSpace_keeps _ _)).trans (followSpace_keeps _ _ _)
    · exact hfst

theorem dropReplaced_keeps (attachment : Attachment) :
    turn.Logs (turn.dropReplaced attachment) keeps := by
  unfold dropReplaced
  cases attachment.replacedConnection with
  | none => exact .of_eq rfl
  | some previous => exact .note rfl rfl

theorem left_keeps (id space : String) :
    ∃ effects, (((((turn.setOwnership { turn.actor.ownership with
        entries := turn.actor.ownership.entries.erase id }).setSpaces
        (turn.actor.spacesState.removeParticipant id)).note (.released id)).revoke id).refreshSpace
        space).log = turn.log ++ .released id :: effects ∧
      ∀ effect ∈ effects, effect.keeps = true := by
  obtain ⟨effects, hlog, hall⟩ := (revoke_logs (((turn.setOwnership { turn.actor.ownership with
    entries := turn.actor.ownership.entries.erase id }).setSpaces
    (turn.actor.spacesState.removeParticipant id)).note (.released id)) id fun _ => rfl).trans
    (refreshSpace_keeps _ space)
  refine ⟨effects, hlog.trans ?_, hall⟩
  simp [note, setSpaces, setOwnership]

theorem seat_keeps (connection : ConnectionId) (participantId : String) :
    turn.Logs (turn.seat connection participantId) keeps := by
  unfold seat
  cases turn.actor.spacesState.participant participantId with
  | none => exact .note rfl rfl
  | some current =>
    have hstatus : ∀ turn : Turn, turn.Logs (turn.sendStatus participantId) keeps := by
      intro turn
      unfold sendStatus
      cases turn.actor.spacesState.participant participantId with
      | none => exact .of_eq rfl
      | some participant =>
        cases turn.actor.ownership.get participantId with
        | none => exact .of_eq rfl
        | some ownership =>
          exact (turn.sendSession_spoken _ _).logs.mono fun _ => keeps_of_plain
    exact ((turn.refreshSpace_keeps current.space).trans (hstatus _)).trans (.note rfl rfl)

end Turn

variable {warrant : Warrant} {turn turn' : Turn} {id : String}

structure Warrant.Still (warrant : Warrant) : Prop where
  seats : ∀ connection, ¬warrant.seats connection
  departs : ¬warrant.departs
  reports : ¬warrant.reports

structure Warrant.Spares (warrant : Warrant) (id : String) : Prop where
  revises : ¬warrant.revises id
  claims : ¬warrant.claims id
  releases : ¬warrant.releases id

/-- What may become of the ownership of an entity under a warrant; a release is told. -/
inductive Holding (warrant : Warrant) (effects : List Effect) (id : String) :
    Option OwnershipState → Option OwnershipState → Prop
  | kept (held : Option OwnershipState) : Holding warrant effects id held held
  | revised {state : OwnershipState} (clientRevision : Nat) (hrevises : warrant.revises id) :
      Holding warrant effects id (some state) (some { state with clientRevision })
  | claimed (held : Option OwnershipState) (state : OwnershipState) (hclaims : warrant.claims id) :
      Holding warrant effects id held (some state)
  | released (held : Option OwnershipState) (hreleases : warrant.releases id)
      (htold : .released id ∈ effects) : Holding warrant effects id held none

structure Accounts (warrant : Warrant) (turn turn' : Turn) (effects : List Effect) : Prop where
  log : turn'.log = turn.log ++ effects
  warranted : ∀ id, .released id ∈ effects → warrant.releases id
  holding : ∀ id, Holding warrant effects id (turn.actor.ownership.get id)
    (turn'.actor.ownership.get id)

theorem Accounts.of_keeps (hlogs : turn.Logs turn' keeps)
    (hholding : ∀ effects id, Holding warrant effects id (turn.actor.ownership.get id)
      (turn'.actor.ownership.get id)) : ∃ effects, Accounts warrant turn turn' effects := by
  obtain ⟨effects, hlog, hall⟩ := hlogs
  exact ⟨effects, hlog, fun id hmem => absurd (hall _ hmem) (by simp [keeps]), hholding effects⟩

theorem Accounts.of_kept (hlogs : turn.Logs turn' keeps)
    (hownership : turn'.actor.ownership = turn.actor.ownership) :
    ∃ effects, Accounts warrant turn turn' effects := by
  refine Accounts.of_keeps hlogs fun effects id => ?_
  rw [hownership]
  exact .kept _

theorem Holding.put {effects : List Effect} (ownership : OwnershipRegistry) (state : OwnershipState)
    (hcl : warrant.claims state.entityId) (id : String) :
    Holding warrant effects id (ownership.get id) ((ownership.put state).get id) := by
  rw [get_put]
  split_ifs with hid
  · exact .claimed _ _ (hid ▸ hcl)
  · exact .kept _

theorem Dealing.accounts (h : Dealing warrant turn turn') (hcoh : Coherent turn.actor) :
    ∃ effects, Accounts warrant turn turn' effects := by
  cases h with
  | aside hasd =>
    exact Accounts.of_kept ((hasd.logs hcoh).mono fun _ => keeps_of_plain)
      (hasd.same hcoh).ownership
  | materialized hdrawn hnew
  | closed hget hunw => exact Accounts.of_kept (.note rfl rfl) rfl
  | published key => exact Accounts.of_kept (turn.publish_logs key fun _ _ => rfl) (turn.publish_republished key).ownership
  | @revised state clientRevision hrev hget hle =>
    refine Accounts.of_keeps (.of_eq rfl) fun effects id => ?_
    change Holding warrant effects id _
      ((turn.actor.ownership.put { state with clientRevision }).get id)
    rw [get_put]
    split_ifs with hid
    · rw [hid, hget]
      exact .revised clientRevision (hid ▸ hrev)
    · exact .kept _
  | respecified hrev hget hhome =>
    exact Accounts.of_kept (turn.applySpec_keeps _ _) (turn.applySpec_republished _ hget).ownership
  | entered state participant credential hcl hnone hid hlive hav hok happ hhome =>
    have hclm : turn.Logs (turn.note (.claimed participant.participantId)) keeps :=
      .note rfl rfl
    refine Accounts.of_keeps (.trans ?_ (reveal_keeps _ _ _)) fun effects id => ?_
    · exact hclm.trans (.note rfl rfl)
    · rw [(reveal_republished _ _ _).ownership]
      exact .put _ state hcl id
  | @replaced middle state participant credential previous former hcl hown hget hid hlive
      hav hok happ hhome htold =>
    have hcoh' := hcoh.claim hown hlive
    have hclm : turn.Logs ((turn.setOwnership (turn.actor.ownership.put state)).note
        (.claimed participant.participantId)) keeps := .note rfl rfl
    have hplain := (htold.logs hcoh').mono fun _ => keeps_of_plain
    refine Accounts.of_keeps (.trans ?_ (reveal_keeps _ _ _)) fun effects id => ?_
    · exact (hclm.trans hplain).trans (.note rfl rfl)
    · rw [(reveal_republished _ _ _).ownership]
      change Holding warrant effects id _ (middle.actor.ownership.get id)
      rw [(htold.same hcoh').ownership]
      exact .put _ state hcl id
  | @left released state participant hrel hown hget =>
    obtain ⟨effects, hlog, hall⟩ := left_keeps turn released participant.space
    refine ⟨_, hlog, ?_, fun id => ?_⟩
    · intro id hmem
      rcases List.mem_cons.mp hmem with heq | hmem
      · cases heq
        exact hrel
      · exact absurd (hall _ hmem) (by simp [keeps])
    · rw [(refreshSpace_republished _ _).ownership, revoke_actor]
      change Holding warrant _ id _ ((turn.actor.ownership.entries.erase released).get? id)
      rw [Table.get?_erase]
      split_ifs with hid
      · exact .released _ (hid ▸ hrel) (hid ▸ List.mem_cons_self)
      · exact .kept _
  | @seated credential connection attachment bindings hseats hattach =>
    have hdrp : turn.Logs ((turn.setBindings bindings).dropReplaced attachment) keeps :=
      (turn.setBindings bindings).dropReplaced_keeps attachment
    refine Accounts.of_kept (hdrp.trans (seat_keeps _ _ _)) ?_
    rw [(seat_republished _ _ _).ownership, dropReplaced_actor]
    rfl
  | disconnected hdeparts hbd hget =>
    exact Accounts.of_kept (refreshSpace_keeps _ _) (refreshSpace_republished _ _).ownership
  | muted selfMute selfDeaf hget
  | reported hrpt hrcl => exact Accounts.of_kept (.of_eq rfl) rfl

theorem Dealing.untouched (h : Dealing warrant turn turn') (hcoh : Coherent turn.actor)
    (hstill : warrant.Still) (hspares : warrant.Spares id) :
    Untouched id turn.actor turn'.actor := by
  obtain ⟨effects, haccounts⟩ := h.accounts hcoh
  have hkept := haccounts.holding id
  generalize hheld : turn.actor.ownership.get id = held at hkept
  generalize hheld' : turn'.actor.ownership.get id = held' at hkept
  have hownership : turn'.actor.ownership.get id = turn.actor.ownership.get id := by
    rw [hheld, hheld']
    cases hkept with
    | kept _ => rfl
    | revised _ hrev => exact absurd hrev hspares.revises
    | claimed _ _ hcl => exact absurd hcl hspares.claims
    | released _ hrel _ => exact absurd hrel hspares.releases
  cases h with
  | aside hasd => exact .of_republished (.of_same (hasd.same hcoh))
  | published key => exact .of_republished (turn.publish_republished key)
  | @respecified participant spec hrev hget hhome =>
    have hne : id ≠ participant.participantId := fun hid => hspares.revises (hid ▸ hrev)
    have happ := turn.applySpec_republished spec hget
    refine ⟨hownership, ?_, by rw [happ.host]; rfl⟩
    rw [SpacesState.participant, happ.participants]
    exact congrArg (Option.map _) ((SpacesState.participant_insertParticipant _ id).trans (if_neg hne))
  | entered state participant credential hcl hnone hid hlive hav hok happ hhome =>
    have hne : id ≠ participant.participantId := fun h => hspares.claims (h ▸ hid ▸ hcl)
    have hrevealed := reveal_republished ((((((turn.setOwnership
      (turn.actor.ownership.put state)).note (.claimed participant.participantId)).setBindings
      (turn.actor.host.bindings.register participant.participantId credential).2).setSpaces
      (turn.actor.spacesState.insertParticipant participant)).note
      (.registered participant.participantId))) participant none
    refine ⟨hownership, ?_, ?_⟩
    · rw [SpacesState.participant, hrevealed.participants]
      exact congrArg (Option.map _) ((SpacesState.participant_insertParticipant _ id).trans (if_neg hne))
    · rw [hrevealed.host]
      exact (get?_register hok id).trans (if_neg hne)
  | @replaced middle state participant credential previous former hcl hown hget hid hlive
      hav hok happ hhome htold =>
    have hne : id ≠ participant.participantId := fun h => hspares.claims (h ▸ hid ▸ hcl)
    have hsame := htold.same (hcoh.claim hown hlive)
    have hhost : middle.actor.host = turn.actor.host := hsame.host
    have hsps : middle.actor.spacesState = turn.actor.spacesState := hsame.spacesState
    have hrevealed := reveal_republished (((middle.setBindings
      (middle.actor.host.bindings.register participant.participantId credential).2).setSpaces
      (middle.actor.spacesState.insertParticipant participant)).note
      (.registered participant.participantId)) participant (some former.space)
    refine ⟨hownership, ?_, ?_⟩
    · rw [SpacesState.participant, hrevealed.participants, ← hsps]
      exact congrArg (Option.map _) ((SpacesState.participant_insertParticipant _ id).trans (if_neg hne))
    · rw [hrevealed.host, ← hhost]
      rw [← hhost] at hok
      exact (get?_register hok id).trans (if_neg hne)
  | @left released state participant hrel hown hget =>
    have hne : id ≠ released := fun h => hspares.releases (h ▸ hrel)
    have hrefreshed := refreshSpace_republished ((((turn.setOwnership
      { turn.actor.ownership with
        entries := turn.actor.ownership.entries.erase released }).setSpaces
      (turn.actor.spacesState.removeParticipant released)).note (.released released)).revoke
      released) participant.space
    refine ⟨hownership, ?_, ?_⟩
    · rw [SpacesState.participant, hrefreshed.participants, revoke_actor]
      exact congrArg (Option.map _) ((Table.get?_erase _ _ _).trans (if_neg hne))
    · rw [hrefreshed.host, revoke_actor]
      exact (get?_remove id).trans (if_neg hne)
  | seated hseats hattach => exact absurd hseats (hstill.seats _)
  | disconnected hdeparts hbd hget => exact absurd hdeparts hstill.departs
  | @muted participant selfMute selfDeaf hget =>
    refine ⟨hownership, ?_, rfl⟩
    change ((turn.actor.spacesState.participants.insert
      { participant with selfMute, selfDeaf }).get? id).map ParticipantState.spec = _
    rw [Table.get?_insert]
    split_ifs with hid
    · rw [hid, hget]
      rfl
    · rfl
  | reported hrpt hrcl => exact absurd hrpt hstill.reports
  | _ => exact ⟨hownership, rfl, rfl⟩

namespace Dealings

section

variable (h : Dealings warrant turn turn') (hcoh : Coherent turn.actor)

include h hcoh

theorem untouched (hstill : warrant.Still)
    (hspares : warrant.Spares id) : Untouched id turn.actor turn'.actor := by
  refine h.invariant (P := fun turn' => Untouched id turn.actor turn'.actor) hcoh ?_ ⟨rfl, rfl, rfl⟩
  intro turn turn' hdealing hcoh huntouched
  exact huntouched.trans (hdealing.untouched hcoh hstill hspares)

theorem held (hcl : ¬warrant.claims id) (hrel : ¬warrant.releases id) {state : OwnershipState}
    (hget : turn.actor.ownership.get id = some state) :
    ∃ clientRevision, turn'.actor.ownership.get id = some { state with clientRevision } := by
  refine h.invariant (P := fun turn' => ∃ clientRevision,
    turn'.actor.ownership.get id = some { state with clientRevision }) hcoh ?_
    ⟨state.clientRevision, hget⟩
  intro turn turn' hdealing hcoh ⟨clientRevision, hget⟩
  obtain ⟨effects, haccounts⟩ := hdealing.accounts hcoh
  have hholding := haccounts.holding id
  rw [hget] at hholding
  generalize turn'.actor.ownership.get id = held at hholding ⊢
  cases hholding with
  | kept
  | revised clientRevision hrev => exact ⟨clientRevision, rfl⟩
  | claimed _ state hcl' => exact absurd hcl' hcl
  | released _ hrel' htold => exact absurd hrel' hrel

theorem unheld (hcl : ¬warrant.claims id) (hget : turn.actor.ownership.get id = none) :
    turn'.actor.ownership.get id = none := by
  refine h.invariant (P := fun turn' => turn'.actor.ownership.get id = none) hcoh ?_ hget
  intro turn turn' hdealing hcoh hget
  obtain ⟨effects, haccounts⟩ := hdealing.accounts hcoh
  have hholding := haccounts.holding id
  rw [hget] at hholding
  generalize turn'.actor.ownership.get id = held at hholding ⊢
  cases hholding with
  | kept => rfl
  | claimed _ state hcl' => exact absurd hcl' hcl
  | released _ hrel htold => rfl

theorem releases :
    ∃ effects, turn'.log = turn.log ++ effects ∧
      (∀ id, .released id ∈ effects → warrant.releases id) ∧
      ∀ id, turn.actor.ownership.get id ≠ none → turn'.actor.ownership.get id = none →
        .released id ∈ effects := by
  refine h.invariant (P := fun turn' => ∃ effects, turn'.log = turn.log ++ effects ∧
    (∀ id, .released id ∈ effects → warrant.releases id) ∧
    ∀ id, turn.actor.ownership.get id ≠ none → turn'.actor.ownership.get id = none →
      .released id ∈ effects) hcoh ?_ ⟨[], by simp, by simp, fun _ h h' => absurd h' h⟩
  intro turn' turn'' hdealing hcoh ⟨effects, hlog, hwarranted, htold⟩
  obtain ⟨effects', haccounts⟩ := hdealing.accounts hcoh
  refine ⟨effects ++ effects', by rw [haccounts.log, hlog, List.append_assoc], ?_, ?_⟩
  · intro id hmem
    rcases List.mem_append.mp hmem with hmem | hmem
    · exact hwarranted id hmem
    · exact haccounts.warranted id hmem
  · intro id hheld hnone
    rw [List.mem_append]
    by_cases hmiddle : turn'.actor.ownership.get id = none
    · exact .inl (htold id hheld hmiddle)
    · have hholding := haccounts.holding id
      rw [hnone] at hholding
      generalize turn'.actor.ownership.get id = held at hholding hmiddle
      cases hholding with
      | kept => exact absurd rfl hmiddle
      | released _ hrel htold => exact .inr htold

end

end Dealings

end MumbleRuntime.SpacesServer
