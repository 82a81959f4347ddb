import MumbleRuntime.Rosters

/-!
# A snapshot is determined by its revision

Between two dealings no Space is stale, since each dealing refreshes the Spaces whose
roster it changes. So what is sent of an incarnation of a Space at one revision is the
same at every time, and the revision never falls.
-/

namespace MumbleRuntime.SpacesServer

open Library Controller Spaces SpacesState ControllerActor List Bindings Table Turn

/-- The answers to the draws of sixteen bytes, up to the last draw of a turn. -/
def Turn.incarnations (turn : Turn) : List Bytes :=
  (List.range turn.drawn).filterMap fun n => turn.moment.entropy n 16

structure Turn.Later (turn turn' : Turn) : Prop where
  moment : turn'.moment = turn.moment
  drawn : turn.drawn ≤ turn'.drawn

namespace Turn.Later

variable {turn turn' turn'' : Turn}

theorem trans (h : turn.Later turn') (h' : turn'.Later turn'') : turn.Later turn'' :=
  ⟨h'.moment.trans h.moment, h.drawn.trans h'.drawn⟩

theorem incarnations (h : turn.Later turn') : turn.incarnations <+: turn'.incarnations := by
  obtain ⟨more, hmore⟩ := Nat.exists_eq_add_of_le h.drawn
  rw [Turn.incarnations, Turn.incarnations, h.moment, hmore, range_add, filterMap_append]
  exact prefix_append _ _

end Turn.Later

section Later

variable {licence : Licence} {turn turn' : Turn}

theorem Turn.Uncached.later {id : SessionId} {frame : ServerFrame}
    (h : turn.Uncached id frame turn') : turn.Later turn' := by
  cases h <;> exact ⟨rfl, le_rfl⟩

theorem Aside.later (h : Aside turn turn') (hcoh : Coherent turn.actor) : turn.Later turn' := by
  cases h with
  | drew => exact ⟨rfl, Nat.le_succ _⟩
  | @sent sessionId frame hhonest =>
    have hspoken := turn.sendSession_spoken sessionId frame
    generalize turn.sendSession sessionId frame = turn' at hspoken ⊢
    cases hspoken with
    | unrecorded => exact ⟨rfl, le_rfl⟩
    | unasked hunasked hunc => exact hunc.later
    | completed hask hcmp hunc => exact ⟨hunc.later.moment, hunc.later.drawn⟩
  | replayed hrpl => exact (turn.sendSessionUncached_uncached _ _).later
  | attached hlive hfr =>
    obtain ⟨session, hget⟩ := hcoh.session_of_live hlive
    rw [attachStream_eq hget]
    exact ⟨rfl, le_rfl⟩
  | streamClosed stream =>
    rcases turn.streamClosed_cases stream hcoh with heq | ⟨session, hget, -, heq⟩ <;>
      rw [heq] <;> exact ⟨rfl, le_rfl⟩
  | _ => exact ⟨rfl, le_rfl⟩

theorem Asides.later (h : Asides turn turn') (hcoh : Coherent turn.actor) : turn.Later turn' := by
  induction h with
  | refl => exact ⟨rfl, le_rfl⟩
  | tail hasides hasd ih => exact ih.trans (hasd.later (Asides.coherent hasides hcoh))

theorem Act.later (h : Act licence turn turn') (hcoh : Coherent turn.actor) : turn.Later turn' := by
  cases h with
  | aside hasd => exact hasd.later hcoh
  | published key =>
    unfold publish
    dsimp only
    split <;> exact ⟨rfl, le_rfl⟩
  | @replaced middle state participant credential previous former hown hget hid hlive hav
      hok happ hhome htold =>
    have htold := htold.later (hcoh.claim hown hlive)
    exact ⟨htold.moment, htold.drawn⟩
  | left hown hget =>
    unfold revoke
    dsimp only
    split <;> exact ⟨rfl, le_rfl⟩
  | _ => exact ⟨rfl, le_rfl⟩

theorem Acts.later (h : Acts licence turn turn') (hcoh : Coherent turn.actor) :
    turn.Later turn' := by
  induction h with
  | refl => exact ⟨rfl, le_rfl⟩
  | tail hacts hact ih => exact ih.trans (hact.later (Acts.coherent hacts hcoh))

end Later

variable {participant : ParticipantState} {key : String}

section Walk

variable {warrant : Warrant} {base : List Effect} {issued : List Bytes} {turn turn' : Turn}

section

variable (h : Accurate base noneStale issued turn)

include h

theorem Accurate.materialize {incarnationId : Bytes} (hfr : incarnationId ∉ issued) :
    Accurate base noneStale (issued ++ [incarnationId]) (turn.materialize key incarnationId) := by
  obtain ⟨book, hbook⟩ := h
  have hlogged := hbook.silent [.created turn.actor.host.nextShard key] (by simp [Effect.sends])
  rw [append_assoc] at hlogged
  have hsp : ∀ other, (turn.materialize key incarnationId).actor.spacesState.space other =
      if other = key then some (.new key turn.actor.host.nextShard incarnationId ⟨0, key, []⟩)
      else turn.actor.spacesState.space other := fun other => get?_insert _ _ _
  refine ⟨book, hlogged.amend (subset_append_left _ _) (fun _ _ _ => id)
    (fun other space hget => ?_) fun label => ?_⟩
  · rw [hsp] at hget
    split_ifs at hget
    · cases hget
      exact ⟨by simp [MaterializedSpace.new], Nat.zero_le _⟩
    · exact ⟨mem_append_left _ (hbook.live other space hget).1, (hbook.live other space hget).2⟩
  · change Amended _ _ _ _ (turn.actor.shown label)
      (((turn.materialize key incarnationId).actor.spacesState.space label.1).bind _)
    rw [hsp]
    split_ifs with hkey
    · simp only [Option.bind_some]
      split_ifs with hincarnation
      · refine .opened _ fun state hst => hfr ?_
        have hknown := hbook.known label state hst
        rwa [← hincarnation] at hknown
      · exact .gone _
    · exact .same _ id

theorem Accurate.close {shard : ShardId} :
    Accurate base noneStale issued ((turn.setSpaces (turn.actor.spacesState.removeSpace key)).note
      (.destroyed shard "empty Space grace elapsed")) := by
  obtain ⟨book, hbook⟩ := h
  have hsp : ∀ other, (turn.actor.spacesState.removeSpace key).space other =
      if other = key then none else turn.actor.spacesState.space other :=
    fun other => get?_erase _ _ _
  refine note_accurate rfl ⟨book, hbook.amend (List.Subset.refl issued) (fun _ _ _ => id)
    (fun other space hget => ?_) fun label => ?_⟩
  · change (turn.actor.spacesState.removeSpace key).space other = some space at hget
    rw [hsp] at hget
    split_ifs at hget
    exact hbook.live other space hget
  · change Amended _ _ _ _ _ (((turn.actor.spacesState.removeSpace key).space label.1).bind _)
    rw [hsp]
    split_ifs with hkey
    · exact .gone _
    · exact .same _ id

theorem Accurate.report {revision : Nat} {report : Spaces.ReconcileReport}
    {ids : List String} {spacesState : SpacesState}
    (hrcl : turn.actor.spacesState.reconcile key revision report = some (ids, spacesState)) :
    Accurate base noneStale issued (turn.setSpaces spacesState) := by
  obtain ⟨book, hbook⟩ := h
  obtain ⟨space, revisions, hrec⟩ := reconcile_reconciled hrcl
  have hsp := hrec.space_after
  have hroster : ∀ other, (turn.setSpaces spacesState).actor.roster other =
      turn.actor.roster other := by
    intro other
    refine filterMap_congr fun id => ?_
    change (spacesState.participant id).bind _ = (turn.actor.spacesState.participant id).bind _
    rw [hrec.participant_eq id]
    cases revisions.find? id with
    | none => rfl
    | some applied =>
      rw [Option.bind_map]
      refine Option.bind_congr fun participant _ => ?_
      simp only [rosterEntry, ParticipantState.space, Function.comp_apply,
        entryApplied_spec, entryApplied_participantId]
      rfl
  refine ⟨book, hbook.amend (List.Subset.refl issued) (fun _ _ _ => id)
    (fun other space' hget => ?_) fun label => ?_⟩
  · change spacesState.space other = some space' at hget
    rw [hsp] at hget
    split_ifs at hget with hoth
    · cases hget
      exact hbook.live key space hrec.space_eq
    · exact hbook.live other space' hget
  · have hshn : (turn.setSpaces spacesState).actor.shown label = turn.actor.shown label := by
      change ((spacesState.space label.1).bind _) = _
      rw [hsp, hroster]
      split_ifs with hkey
      · rw [shown, hkey, hrec.space_eq]
        rfl
      · rfl
    rw [hshn]
    exact .same _ id

theorem Accurate.single {stale : String → Prop} (id : String) (hlog : turn'.log = turn.log)
    (hreliable : turn'.actor.reliable = turn.actor.reliable)
    (hsp : ∀ key, turn'.actor.spacesState.space key = turn.actor.spacesState.space key)
    (hpart : ∀ other, other ≠ id →
      turn'.actor.spacesState.participant other = turn.actor.spacesState.participant other)
    (hconn : ∀ other, other ≠ id →
      turn'.actor.host.bindings.connection other = turn.actor.host.bindings.connection other)
    (hbef : ∀ participant, turn.actor.spacesState.participant id = some participant →
      stale participant.space)
    (haft : ∀ participant, turn'.actor.spacesState.participant id = some participant →
      stale participant.space) : Accurate base stale issued turn' := by
  refine h.change hlog hreliable hsp (fun key hkey => ?_) fun _ => False.elim
  exact roster_of_others hpart hconn
    (fun participant hget heq => hkey (heq ▸ hbef participant hget))
    fun participant hget heq => hkey (heq ▸ haft participant hget)

end

theorem Accurate.refreshed (h : Accurate base (fun other => other = key) issued turn) :
    Accurate base noneStale issued (turn.refreshSpace key) :=
  (refreshSpace_accurate key h).mono (List.Subset.refl issued) fun _ hstl => hstl.2 hstl.1

section

variable (h : Accurate base noneStale issued turn)

include h

theorem Accurate.install {former : Option ParticipantState} {credential : String}
    (hformer : turn.actor.spacesState.participant participant.participantId = former)
    (hok : (turn.actor.host.bindings.register participant.participantId credential).1 = .ok ()) :
    Accurate base noneStale issued ((((turn.setBindings
      (turn.actor.host.bindings.register participant.participantId credential).2).setSpaces
      (turn.actor.spacesState.insertParticipant participant)).note
      (.registered participant.participantId)).reveal participant
      (former.map ParticipantState.space)) := by
  refine reveal_accurate participant _ (note_accurate rfl ?_)
  refine h.single participant.participantId rfl rfl (fun _ => rfl)
    (fun other hoth => (participant_insertParticipant _ other).trans (if_neg hoth))
    (fun other _ => connection_register hok other) (fun before hbef => ?_)
    (fun after haft => ?_)
  · rw [hformer] at hbef
    exact .inl (by rw [hbef]; rfl)
  · have hinstalled := (participant_insertParticipant participant
      participant.participantId).symm.trans haft
    rw [if_pos rfl] at hinstalled
    cases hinstalled
    exact .inr rfl

theorem Accurate.leave {id : String} {ownership : OwnershipRegistry}
    (hget : turn.actor.spacesState.participant id = some participant) :
    Accurate base noneStale issued (((((turn.setOwnership ownership).setSpaces
      (turn.actor.spacesState.removeParticipant id)).note (.released id)).revoke id).refreshSpace
      participant.space) := by
  have hrmv : Accurate base (fun key => key = participant.space) issued
      ((((turn.setOwnership ownership).setSpaces
        (turn.actor.spacesState.removeParticipant id)).setBindings
        (turn.actor.host.bindings.remove id).2).note (.released id)) := by
    refine note_accurate rfl (h.single id rfl rfl (fun _ => rfl)
      (fun other hoth => (participant_removeParticipant _ other).trans (if_neg hoth))
      (fun other hoth => (connection_remove other).trans (if_neg hoth))
      (fun before hbef => ?_) (fun after haft => ?_))
    · rw [hget] at hbef
      cases hbef
      rfl
    · have hnone := (participant_removeParticipant id id).symm.trans haft
      rw [if_pos rfl] at hnone
      cases hnone
  refine Accurate.refreshed ?_
  unfold revoke
  dsimp only
  split
  · exact note_accurate rfl hrmv
  · exact hrmv

theorem Accurate.seat {credential : String} {connection : ConnectionId} {attachment : Attachment}
    {bindings : Bindings} (hcoh : Coherent turn.actor)
    (hattach : turn.actor.host.bindings.attach credential connection = (.ok attachment, bindings)) :
    Accurate base noneStale issued (((turn.setBindings bindings).dropReplaced attachment).seat
      connection attachment.participantId) := by
  have hatt := attach_attached hattach
  obtain ⟨participant, hget⟩ := containsParticipant_iff.mp
    ((hcoh.entities.bound attachment.participantId).symm.trans hatt.held)
  have hbd : Accurate base (fun key => key = participant.space) issued
      (turn.setBindings bindings) := by
    refine h.single attachment.participantId rfl rfl (fun _ => rfl) (fun _ _ => rfl)
      (fun other hoth => (hatt.connection_eq other).trans (if_neg hoth)) ?_ ?_ <;>
    · intro before hbef
      change turn.actor.spacesState.participant attachment.participantId = some before at hbef
      rw [hget] at hbef
      cases hbef
      rfl
  have hdrp : Accurate base (fun key => key = participant.space) issued
      ((turn.setBindings bindings).dropReplaced attachment) := by
    unfold dropReplaced
    cases attachment.replacedConnection with
    | none => exact hbd
    | some previous => exact note_accurate rfl hbd
  have hget' : ((turn.setBindings bindings).dropReplaced attachment).actor.spacesState.participant
      attachment.participantId = some participant := by
    rw [dropReplaced_actor]
    exact hget
  unfold Turn.seat
  simp only [hget']
  refine note_accurate rfl ?_
  exact sendStatus_accurate _ hdrp.refreshed

theorem Accurate.disconnect {connection : ConnectionId} {id : String} (hcoh : Coherent turn.actor)
    (hbd : turn.actor.host.bindings.participant connection = some id)
    (hget : turn.actor.spacesState.participant id = some participant) :
    Accurate base noneStale issued ((turn.setBindings
      (turn.actor.host.bindings.disconnect connection)).refreshSpace participant.space) := by
  have hcons := hcoh.entities.consistent
  refine Accurate.refreshed (h.single id rfl rfl (fun _ => rfl) (fun _ _ => rfl)
    (fun other hoth => ?_) ?_ ?_)
  · change (turn.actor.host.bindings.disconnect connection).connection other = _
    rw [hcons.connection_disconnect, if_neg]
    intro hconn
    have hholder := (hcons.connections connection other).mpr hconn
    rw [hbd] at hholder
    exact hoth (Option.some.inj hholder).symm
  all_goals
    intro before hbef
    change turn.actor.spacesState.participant id = some before at hbef
    rw [hget] at hbef
    cases hbef
    rfl

end

theorem Dealing.accurate {before : List Bytes} (h : Dealing warrant turn turn')
    (hcoh : Coherent turn.actor) (hfr : (before ++ turn'.incarnations).Nodup)
    (haccu : Accurate base noneStale (before ++ turn.incarnations) turn) :
    Accurate base noneStale (before ++ turn'.incarnations) turn' := by
  have hiss : before ++ turn.incarnations ⊆ before ++ turn'.incarnations := fun bytes hmem =>
    (mem_append.mp hmem).elim (mem_append_left _) fun hmem =>
      mem_append_right _ ((h.acts.later hcoh).incarnations.subset hmem)
  have hmono : Accurate base noneStale (before ++ turn.incarnations) turn' →
      Accurate base noneStale (before ++ turn'.incarnations) turn' :=
    fun haccu => haccu.mono hiss fun _ => id
  cases h with
  | aside hasd => exact hmono (hasd.accurate hcoh haccu)
  | @materialized key incarnationId hdrawn hnew =>
    have hdrew : ({ turn with drawn := turn.drawn + 1 }.materialize key incarnationId).incarnations =
        turn.incarnations ++ [incarnationId] := by
      change (range (turn.drawn + 1)).filterMap (fun n => turn.moment.entropy n 16) = _
      rw [range_succ, filterMap_append]
      simp [incarnations, hdrawn]
    rw [hdrew, ← append_assoc] at hfr ⊢
    have hnotmem : incarnationId ∉ before ++ turn.incarnations := fun hmem =>
      (nodup_append.mp hfr).2.2 _ hmem _ mem_cons_self rfl
    have hdrawnAccurate : Accurate base noneStale (before ++ turn.incarnations)
        { turn with drawn := turn.drawn + 1 } := haccu
    exact hdrawnAccurate.materialize hnotmem
  | published key =>
    exact hmono ((publish_accurate key haccu).mono (List.Subset.refl _) fun _ h => h.1)
  | closed hget hunw => exact hmono haccu.close
  | revised hrev hget hle =>
    exact hmono (haccu.change rfl rfl (fun _ => rfl) (fun _ _ => rfl) fun _ => id)
  | respecified hrev hget hhome => exact hmono (applySpec_accurate _ hget haccu)
  | @entered state participant credential hcl hnone hid hlive hav hok happ hhome =>
    have hclm : Accurate base noneStale (before ++ turn.incarnations)
        ((turn.setOwnership (turn.actor.ownership.put state)).note
          (.claimed participant.participantId)) :=
      note_accurate rfl (haccu.change rfl rfl (fun _ => rfl) (fun _ _ => rfl) fun _ => id)
    have hformer := (hcoh.absent (hid ▸ hnone)).1
    exact hmono (hclm.install hformer hok)
  | @replaced middle state participant credential previous former hcl hown hget hid hlive
      hav hok happ hhome htold =>
    have hcoh' := hcoh.claim hown hlive
    have hclm : Accurate base noneStale (before ++ turn.incarnations)
        ((turn.setOwnership (turn.actor.ownership.put state)).note
          (.claimed participant.participantId)) :=
      note_accurate rfl (haccu.change rfl rfl (fun _ => rfl) (fun _ _ => rfl) fun _ => id)
    have hsame := htold.same hcoh'
    have hhost : middle.actor.host = turn.actor.host := hsame.host
    have hsps : middle.actor.spacesState = turn.actor.spacesState := hsame.spacesState
    exact hmono ((htold.accurate hcoh' hclm).install (hsps.symm ▸ hget) (hhost.symm ▸ hok))
  | left hrel hown hget => exact hmono (haccu.leave hget)
  | seated hseats hattach => exact hmono (haccu.seat hcoh hattach)
  | disconnected hdeparts hbd hget => exact hmono (haccu.disconnect hcoh hbd hget)
  | @muted participant selfMute selfDeaf hget =>
    refine hmono (haccu.change rfl rfl (fun _ => rfl) (fun key _ => ?_) fun _ => id)
    refine filterMap_congr fun id => ?_
    rw [show ((turn.setSpaces (turn.actor.spacesState.insertParticipant
      { participant with selfMute, selfDeaf })).actor.spacesState.participants.get? id) = _ from
      participant_insertParticipant _ id]
    split_ifs with hid
    · rw [hid, show turn.actor.spacesState.participants.get? participant.participantId = _ from hget]
      rfl
    · rfl
  | reported hrpt hrcl => exact hmono (haccu.report hrcl)

theorem Passages.accurate {before : List Bytes} (h : Passages warrant turn turn')
    (hcoh : Coherent turn.actor) (hfr : (before ++ turn'.incarnations).Nodup)
    (haccu : Accurate base noneStale (before ++ turn.incarnations) turn) :
    Accurate base noneStale (before ++ turn'.incarnations) turn' := by
  induction h with
  | refl => exact haccu
  | tail hpassages hlast ih =>
    have hcoh' := Passages.coherent hpassages hcoh
    cases hlast with
    | dealt hdealing =>
      have hprefix := (hdealing.acts.later hcoh').incarnations
      have hfr' := hfr.sublist ((prefix_append_right_inj before).mpr hprefix).sublist
      exact hdealing.accurate hcoh' hfr (ih hfr')
    | ended hnth =>
      obtain ⟨book, hbook⟩ := ih hfr
      refine ⟨book, hbook.records, hbook.known, hbook.live, fun id requestId frame hrpl => ?_,
        hbook.sent, hbook.ordered⟩
      exact hbook.recorded id requestId frame (ReliableCommands.replay_of_removeSession hrpl)

end Walk

structure Chronicle where
  actor : ControllerActor
  log : List Effect
  incarnations : List Bytes

namespace Chronicle

def start (config : ControllerConfig) (controlEpoch : Bytes) : Chronicle :=
  ⟨.spawn config controlEpoch, [], []⟩

def step (chronicle : Chronicle) (input : Input) : Option Chronicle :=
  let turn := chronicle.actor.turn input
  some ⟨turn.actor, chronicle.log ++ turn.log, chronicle.incarnations ++ turn.incarnations⟩

def fresh (chronicle : Chronicle) (input : Input) : Bool :=
  freshStream chronicle.actor input &&
    decide (chronicle.incarnations ++ (chronicle.actor.turn input).incarnations).Nodup

def Sent (chronicle : Chronicle) (snapshot : SpaceSnapshot) : Prop :=
  ∃ id stream frame, .sent id stream frame ∈ chronicle.log ∧ frame.snapshot? = some snapshot

structure Faithful (chronicle : Chronicle) : Prop where
  coherent : Coherent chronicle.actor
  booked : ∃ book,
    Booked noneStale chronicle.incarnations chronicle.actor chronicle.log book

theorem Faithful.start (config : ControllerConfig) (controlEpoch : Bytes) :
    (start config controlEpoch).Faithful := by
  refine ⟨.spawn config controlEpoch, fun _ _ => False, ⟨?_, ?_, ?_⟩, ?_, ?_, ?_, ?_, ?_⟩
  · exact fun hbook => hbook.elim
  · exact fun hbook => hbook.elim
  · exact fun _ hbook => hbook.elim
  · exact fun _ _ hbook => hbook.elim
  · exact fun _ _ hsp => by
      simp [Chronicle.start, spawn, new, space] at hsp
  · exact fun _ _ _ hrpl => by
      simp [Chronicle.start, spawn, ReliableCommands.new, ReliableCommands.replay] at hrpl
  · exact fun _ _ _ _ hmem => by cases hmem
  · exact fun _ => .nil

theorem Faithful.step {chronicle chronicle' : Chronicle} {input : Input} (h : chronicle.Faithful)
    (hfr : chronicle.fresh input = true) (hstep : chronicle.step input = some chronicle') :
    chronicle'.Faithful := by
  obtain ⟨hstream, hdrawn⟩ := Bool.and_eq_true_iff.mp hfr
  cases hstep
  obtain ⟨book, hbook⟩ := h.booked
  have hpasses : Passages Licence.any.warrant (chronicle.actor.opening input)
      (chronicle.actor.turn input) :=
    turn_passes h.coherent hstream (.inl trivial) (fun _ _ _ => trivial) fun _ _ _ _ => trivial
  have hopening : Accurate chronicle.log noneStale
      (chronicle.incarnations ++ (chronicle.actor.opening input).incarnations)
      (chronicle.actor.opening input) := by
    refine ⟨book, ?_⟩
    simpa [opening, Turn.incarnations] using hbook
  exact ⟨hpasses.coherent h.coherent,
    hpasses.accurate h.coherent (of_decide_eq_true hdrawn) hopening⟩

end Chronicle

/-- In every run with fresh incarnation ids a snapshot is determined by its Space, incarnation and
revision, and the snapshots a session is brought never fall back. -/
theorem snapshot_determined_by_revision (config : ControllerConfig) (controlEpoch : Bytes)
    {chronicle : Chronicle}
    (h : Reaches Chronicle.step (fun chronicle input => chronicle.fresh input = true)
      (.start config controlEpoch) chronicle) :
    (∀ snapshot snapshot', chronicle.Sent snapshot → chronicle.Sent snapshot' →
      snapshot.spaceKey = snapshot'.spaceKey → snapshot.incarnationId = snapshot'.incarnationId →
      snapshot.spaceRevision = snapshot'.spaceRevision → snapshot.spaceRevision < u64Max →
      snapshot.participants = snapshot'.participants) ∧
    ∀ id, (announced id chronicle.log).Pairwise fun snapshot later =>
      snapshot.spaceKey = later.spaceKey → snapshot.incarnationId = later.incarnationId →
        snapshot.spaceRevision ≤ later.spaceRevision := by
  have hfaithful : chronicle.Faithful := Reaches.invariant (P := Chronicle.Faithful)
    (.start config controlEpoch) (fun _ _ _ hfaithful hfr hstep => hfaithful.step hfr hstep) h
  obtain ⟨book, hbook⟩ := hfaithful.booked
  refine ⟨?_, fun id => (hbook.ordered id).imp fun hprecedes hkey hincarnation =>
    hprecedes (Prod.ext hkey hincarnation)⟩
  rintro snapshot snapshot' ⟨id, stream, frame, hmem, hframe⟩ ⟨id', stream', frame', hmem', hframe'⟩
    hkey hincarnation hrevision hlt
  have htold := hbook.sent id stream frame snapshot hmem hframe
  have htold' := hbook.sent id' stream' frame' snapshot' hmem' hframe'
  have hlabel : snapshot.label = snapshot'.label := Prod.ext hkey hincarnation
  rw [← hlabel, SpaceSnapshot.state, ← hrevision] at htold'
  exact hbook.records.determined htold htold' hlt

def joinedChronicle : Chronicle :=
  (runActions Chronicle.step (.start sampleConfig [0]) joinedInputs).getD (.start sampleConfig [0])

theorem snapshot_determined_by_revision_joined :
    (announced 1 joinedChronicle.log).map SpaceSnapshot.spaceRevision = [1, 1] ∧
    (announced 1 joinedChronicle.log).Pairwise fun snapshot later =>
      snapshot.spaceKey = later.spaceKey → snapshot.incarnationId = later.incarnationId →
        snapshot.spaceRevision ≤ later.spaceRevision :=
  ⟨by decide +kernel,
    (snapshot_determined_by_revision sampleConfig [0] (reaches_getD (by decide +kernel))).2 1⟩

/-- Of an incarnation that is still open, a snapshot that was sent, or is kept to be sent
again, is never ahead of the actor, and at the actor's own revision it shows the
participants as the actor has them: no change of a roster goes without a revision. -/
theorem snapshot_at_current_revision (config : ControllerConfig) (controlEpoch : Bytes)
    {chronicle : Chronicle}
    (h : Reaches Chronicle.step (fun chronicle input => chronicle.fresh input = true)
      (.start config controlEpoch) chronicle) {snapshot current : SpaceSnapshot}
    (hsent : chronicle.Sent snapshot ∨ ∃ id requestId frame,
      chronicle.actor.reliable.replay id requestId = some frame ∧ frame.snapshot? = some snapshot)
    (hcur : chronicle.actor.spaceSnapshot current.spaceKey = some current)
    (hlabel : current.label = snapshot.label) :
    snapshot.spaceRevision ≤ current.spaceRevision ∧
      (snapshot.spaceRevision = current.spaceRevision → snapshot.spaceRevision < u64Max →
        snapshot.participants = current.participants) := by
  have hfaithful : chronicle.Faithful := Reaches.invariant (P := Chronicle.Faithful)
    (.start config controlEpoch) (fun _ _ _ hfaithful hfr hstep => hfaithful.step hfr hstep) h
  obtain ⟨book, hbook⟩ := hfaithful.booked
  have htold : book snapshot.label snapshot.state := by
    rcases hsent with ⟨id, stream, frame, hmem, hframe⟩ | ⟨id, requestId, frame, hrpl, hframe⟩
    · exact hbook.sent id stream frame snapshot hmem hframe
    · exact (hbook.recorded id requestId frame hrpl).2 snapshot hframe
  have hshn := (shown_of_snapshot hcur).1
  rw [hlabel] at hshn
  refine ⟨hbook.records.behind htold hshn, fun hrevision hlt => ?_⟩
  rw [SpaceSnapshot.state, ← hrevision] at hshn
  exact hbook.records.faithful (fun hstl => hstl) htold hshn hlt

def lobbySnapshot : SpaceSnapshot :=
  ⟨"lobby", List.replicate 16 12, 1, [⟨"ada", "Ada", false, false, false⟩], 0⟩

theorem snapshot_at_current_revision_joined :
    joinedChronicle.actor.spaceSnapshot "lobby" = some lobbySnapshot ∧
      lobbySnapshot.spaceRevision ≤ lobbySnapshot.spaceRevision :=
  ⟨by decide +kernel, (@snapshot_at_current_revision sampleConfig [0] joinedChronicle
    (reaches_getD (by decide +kernel)) lobbySnapshot lobbySnapshot
    (.inl ⟨1, 1, ⟨[], .spaceSnapshot lobbySnapshot⟩, by decide +kernel, rfl⟩)
    (by decide +kernel) rfl).1⟩

end MumbleRuntime.SpacesServer
