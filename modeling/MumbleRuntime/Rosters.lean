import MumbleRuntime.ActorTurns
import MumbleRuntime.Library.Versions

/-!
# Rosters, and what was sent of them

The roster of a Space changes with specs, bindings and registrations, and a Space
whose roster changed is stale until it is published anew, which raises its revision.
Whatever is sent of a Space that is not stale can be booked.
-/

namespace MumbleRuntime.SpacesServer

open Library Controller Spaces ControllerActor List Option SpacesState ReliableCommands Effect
open List.Subset

namespace ControllerActor

variable (actor : ControllerActor) (key : String)

def rosterEntry (participant : ParticipantState) : Option SpaceParticipant :=
  if participant.space = key then
    some
      { participantId := participant.participantId
        displayName := participant.spec.displayName
        serverMute := participant.spec.serverMute
        serverDeaf := participant.spec.serverDeaf
        connected := (actor.host.bindings.connection participant.participantId).isSome }
  else none

def roster : List SpaceParticipant :=
  actor.spacesState.participants.rows.filterMap (actor.rosterEntry key)

def shown (label : String × Bytes) : Option (Nat × List SpaceParticipant) :=
  (actor.spacesState.space label.1).bind fun space =>
    if space.incarnationId = label.2 then some (space.spaceRevision, actor.roster label.1) else none

theorem spaceSnapshot_eq : actor.spaceSnapshot key = (actor.spacesState.space key).map fun space =>
    ⟨key, space.incarnationId, space.spaceRevision, actor.roster key, space.publishedGeneration⟩ := by
  have hroster : (actor.spacesState.participants.rows.filter fun participant =>
      participant.space = key).map (fun participant =>
        ({ participantId := participant.participantId
           displayName := participant.spec.displayName
           serverMute := participant.spec.serverMute
           serverDeaf := participant.spec.serverDeaf
           connected := (actor.host.bindings.connection participant.participantId).isSome } :
          SpaceParticipant)) = actor.roster key := by
    unfold roster
    generalize actor.spacesState.participants.rows = rows
    induction rows with
    | nil => rfl
    | cons row rows ih =>
      rw [filterMap_cons, rosterEntry]
      by_cases hsp : row.space = key
      · rw [filter_cons_of_pos (by simpa using hsp), map_cons, ih, if_pos hsp]
      · rw [filter_cons_of_neg (by simpa using hsp), ih, if_neg hsp]
  rw [← hroster]
  rfl

variable {actor key}

theorem roster_of_others {actor' : ControllerActor} {id : String}
    (hpart : ∀ other, other ≠ id →
      actor'.spacesState.participant other = actor.spacesState.participant other)
    (hconn : ∀ other, other ≠ id →
      actor'.host.bindings.connection other = actor.host.bindings.connection other)
    (hbef : ∀ participant, actor.spacesState.participant id = some participant →
      participant.space ≠ key)
    (haft : ∀ participant, actor'.spacesState.participant id = some participant →
      participant.space ≠ key) : actor'.roster key = actor.roster key := by
  refine Table.filterMap_congr fun other => ?_
  change (actor'.spacesState.participant other).bind (actor'.rosterEntry key) =
    (actor.spacesState.participant other).bind (actor.rosterEntry key)
  by_cases hoth : other = id
  · have habsent : ∀ (actor : ControllerActor), (∀ participant,
        actor.spacesState.participant id = some participant → participant.space ≠ key) →
        (actor.spacesState.participant id).bind (actor.rosterEntry key) = none := by
      intro actor hsp
      rw [bind_eq_none_iff]
      exact fun participant hget => if_neg (hsp participant hget)
    rw [hoth, habsent actor hbef, habsent actor' haft]
  · rw [hpart other hoth]
    cases hget : actor.spacesState.participant other with
    | none => rfl
    | some participant =>
      have hid : participant.participantId = other := Table.key_of_get? hget
      simp only [bind_some, rosterEntry, hid, hconn other hoth]

end ControllerActor

def SpaceSnapshot.label (snapshot : SpaceSnapshot) : String × Bytes :=
  (snapshot.spaceKey, snapshot.incarnationId)

def SpaceSnapshot.state (snapshot : SpaceSnapshot) : Nat × List SpaceParticipant :=
  (snapshot.spaceRevision, snapshot.participants)

variable {snapshot : SpaceSnapshot}

theorem ControllerActor.shown_of_snapshot {actor : ControllerActor}
    (h : actor.spaceSnapshot snapshot.spaceKey = some snapshot) :
    actor.shown snapshot.label = some snapshot.state ∧
      ∃ space, actor.spacesState.space snapshot.spaceKey = some space ∧
        space.incarnationId = snapshot.incarnationId := by
  rw [spaceSnapshot_eq, map_eq_some_iff] at h
  obtain ⟨space, hsp, heq⟩ := h
  rw [← heq] at hsp ⊢
  refine ⟨?_, space, hsp, rfl⟩
  simp [shown, SpaceSnapshot.label, SpaceSnapshot.state, hsp]

def Effect.announces (id : SessionId) : Effect → Option SpaceSnapshot
  | .sent session _ ⟨[], .spaceSnapshot snapshot⟩ => if session = id then some snapshot else none
  | _ => none

variable {id : SessionId} {effect : Effect}

theorem Effect.announces_eq_some (h : effect.announces id = some snapshot) :
    ∃ stream, effect = .sent id stream ⟨[], .spaceSnapshot snapshot⟩ := by
  unfold announces at h
  split at h
  · split_ifs at h with hid
    cases h
    exact ⟨_, by rw [hid]⟩
  · cases h

theorem Effect.announces_of_not_sends (h : effect.sends = false) : effect.announces id = none := by
  cases hannounces : effect.announces id with
  | none => rfl
  | some snapshot =>
    obtain ⟨stream, rfl⟩ := announces_eq_some hannounces
    cases h

def announced (id : SessionId) (log : List Effect) : List SpaceSnapshot :=
  log.filterMap (Effect.announces id)

def SpaceSnapshot.Precedes (snapshot later : SpaceSnapshot) : Prop :=
  snapshot.label = later.label → snapshot.spaceRevision ≤ later.spaceRevision

/-- Everything that was or may be sent again is in a book that agrees with the Spaces. -/
structure Booked (stale : String → Prop) (issued : List Bytes) (actor : ControllerActor)
    (log : List Effect) (book : String × Bytes → Nat × List SpaceParticipant → Prop) : Prop where
  records : Records u64Max (fun label => stale label.1) actor.shown book
  known : ∀ label state, book label state → label.2 ∈ issued
  live : ∀ key space, actor.spacesState.space key = some space →
    space.incarnationId ∈ issued ∧ space.spaceRevision ≤ u64Max
  recorded : ∀ id requestId frame, actor.reliable.replay id requestId = some frame →
    frame.requestId.isEmpty = false ∧
      ∀ snapshot, frame.snapshot? = some snapshot → book snapshot.label snapshot.state
  sent : ∀ id stream frame snapshot, .sent id stream frame ∈ log →
    frame.snapshot? = some snapshot → book snapshot.label snapshot.state
  ordered : ∀ id, (announced id log).Pairwise SpaceSnapshot.Precedes

variable {frame : ServerFrame}

namespace Booked

variable {stale stale' : String → Prop} {issued issued' : List Bytes}
  {actor actor' : ControllerActor} {log : List Effect}
  {book : String × Bytes → Nat × List SpaceParticipant → Prop}

section

variable (h : Booked stale issued actor log book)

include h

theorem amend (hiss : issued ⊆ issued')
    (hrpl : ∀ id requestId frame, actor'.reliable.replay id requestId = some frame →
      actor.reliable.replay id requestId = some frame)
    (hlive : ∀ key space, actor'.spacesState.space key = some space →
      space.incarnationId ∈ issued' ∧ space.spaceRevision ≤ u64Max)
    (hamended : ∀ label, Amended u64Max (book label) (stale label.1) (stale' label.1)
      (actor.shown label) (actor'.shown label)) : Booked stale' issued' actor' log book where
  records := h.records.amend hamended
  known label state hbook := hiss (h.known label state hbook)
  live := hlive
  recorded id requestId frame hframe := h.recorded id requestId frame (hrpl id requestId frame hframe)
  sent := h.sent
  ordered := h.ordered

theorem silent (effects : List Effect) (heffects : ∀ effect ∈ effects, effect.sends = false) :
    Booked stale issued actor (log ++ effects) book := by
  have hannounced : ∀ id, announced id (log ++ effects) = announced id log := by
    intro id
    have hnil : effects.filterMap (announces id) = [] :=
      filterMap_eq_nil_iff.mpr fun effect hmem =>
        announces_of_not_sends (heffects effect hmem)
    rw [announced, filterMap_append, hnil, append_nil, announced]
  refine ⟨h.records, h.known, h.live, h.recorded, fun id stream frame snapshot hmem => ?_,
    fun id => hannounced id ▸ h.ordered id⟩
  rcases mem_append.mp hmem with hmem | hmem
  · exact h.sent id stream frame snapshot hmem
  · cases heffects _ hmem

theorem send (id : SessionId) (stream : StreamId)
    (hbooked : ∀ snapshot, frame.snapshot? = some snapshot → book snapshot.label snapshot.state)
    (hcur : frame.requestId.isEmpty = true → ∀ snapshot, frame.snapshot? = some snapshot →
      actor.shown snapshot.label = some snapshot.state) :
    Booked stale issued actor (log ++ [.sent id stream frame]) book := by
  refine ⟨h.records, h.known, h.live, h.recorded, fun id' stream' frame' snapshot hmem hsnap => ?_,
    fun other => ?_⟩
  · rcases mem_append.mp hmem with hmem | hmem
    · exact h.sent id' stream' frame' snapshot hmem hsnap
    · cases mem_singleton.mp hmem
      exact hbooked snapshot hsnap
  · rw [announced, filterMap_append]
    refine pairwise_append.mpr ⟨h.ordered other, ?_, ?_⟩
    · cases hannounces : (Effect.sent id stream frame).announces other <;> simp [hannounces]
    -- What was announced before is in the book, so it is behind what is current.
    · intro earlier hearlier later hlat hlabel
      obtain ⟨last, hlast, hlat⟩ := mem_filterMap.mp hlat
      rw [mem_singleton.mp hlast] at hlat
      obtain ⟨effect, heffect, hannounces⟩ := mem_filterMap.mp hearlier
      obtain ⟨stream', rfl⟩ := announces_eq_some hannounces
      obtain ⟨stream'', heq⟩ := announces_eq_some hlat
      cases heq
      have hbook := h.sent _ stream' _ earlier heffect rfl
      have hshn := hcur rfl later rfl
      rw [← hlabel] at hshn
      exact h.records.behind hbook hshn

theorem tell (hsnap : actor.spaceSnapshot snapshot.spaceKey = some snapshot)
    (hfr : ¬stale snapshot.spaceKey) :
    Booked stale issued actor log fun label state =>
      book label state ∨ (label = snapshot.label ∧ state = snapshot.state) := by
  obtain ⟨hshn, space, hsp, hincarnation⟩ := shown_of_snapshot hsnap
  refine ⟨h.records.tell hfr hshn, ?_, h.live, ?_, ?_, h.ordered⟩
  · rintro label state (hbook | ⟨rfl, rfl⟩)
    · exact h.known label state hbook
    · change snapshot.incarnationId ∈ issued
      rw [← hincarnation]
      exact (h.live _ space hsp).1
  · intro id requestId frame hrpl
    obtain ⟨hask, hbooked⟩ := h.recorded id requestId frame hrpl
    exact ⟨hask, fun snapshot hsnap => .inl (hbooked snapshot hsnap)⟩
  · exact fun id stream frame snapshot hmem hsnap => .inl (h.sent id stream frame snapshot hmem hsnap)

theorem shown_le {label : String × Bytes}
    {state : Nat × List SpaceParticipant} (hshn : actor.shown label = some state) :
    state.1 ≤ u64Max := by
  obtain ⟨space, hsp, hst⟩ := bind_eq_some_iff.mp hshn
  split_ifs at hst
  cases hst
  exact (h.live label.1 space hsp).2

end

end Booked

section Shown

variable {top : Nat} {told : String × Bytes → Nat × List SpaceParticipant → Prop}
  {stale stale' : String → Prop} {actor actor' : ControllerActor}

theorem ControllerActor.shown_amended
    (hsp : ∀ key, actor'.spacesState.space key = actor.spacesState.space key)
    (hroster : ∀ key, ¬stale' key → actor'.roster key = actor.roster key)
    (hstl : ∀ key, stale key → stale' key) (label : String × Bytes) :
    Amended top (told label) (stale label.1) (stale' label.1) (actor.shown label)
      (actor'.shown label) := by
  simp only [shown, hsp]
  cases actor.spacesState.space label.1 with
  | none => exact .gone _
  | some space =>
    simp only [bind_some]
    split_ifs with hincarnation
    · by_cases hkey : stale' label.1
      · exact .changed hkey
      · rw [hroster label.1 hkey]
        exact .kept (hstl label.1)
    · exact .gone _

theorem Republished.roster_eq (h : Republished actor actor') (key : String) :
    actor'.roster key = actor.roster key := by
  have hentry : actor'.rosterEntry key = actor.rosterEntry key := by
    funext participant
    rw [rosterEntry, h.host]
    rfl
  rw [roster, h.participants, hentry]
  rfl

end Shown

/-- What was sent before a turn and in it is in some book that agrees with the Spaces. -/
def Accurate (base : List Effect) (stale : String → Prop) (issued : List Bytes) (turn : Turn) : Prop :=
  ∃ book, Booked stale issued turn.actor (base ++ turn.log) book

namespace Turn

variable {base : List Effect} {stale : String → Prop} {issued : List Bytes} {turn turn' : Turn}

theorem Uncached.booked
    {book : String × Bytes → Nat × List SpaceParticipant → Prop} (h : turn.Uncached id frame turn')
    (hbook : Booked stale issued turn.actor (base ++ turn.log) book)
    (hbooked : ∀ snapshot, frame.snapshot? = some snapshot → book snapshot.label snapshot.state)
    (hcur : frame.requestId.isEmpty = true → ∀ snapshot, frame.snapshot? = some snapshot →
      turn.actor.shown snapshot.label = some snapshot.state) :
    Booked stale issued turn'.actor (base ++ turn'.log) book := by
  cases h with
  | silent => exact hbook
  | sent stream =>
    simp only [note, ← append_assoc]
    exact hbook.send id stream hbooked hcur
  | dropped stream =>
    simp only [note, setCore, ← append_assoc]
    have hsil := hbook.silent [.dropped id stream frame] (by simp [sends])
    exact ⟨hsil.records, hsil.known, hsil.live, hsil.recorded, hsil.sent, hsil.ordered⟩
  | hungUp session hget =>
    exact ⟨hbook.records, hbook.known, hbook.live, hbook.recorded, hbook.sent, hbook.ordered⟩

theorem sendSession_accurate (id : SessionId)
    (hhonest : ∀ snapshot, frame.snapshot? = some snapshot →
      turn.actor.spaceSnapshot snapshot.spaceKey = some snapshot ∧ ¬stale snapshot.spaceKey)
    (h : Accurate base stale issued turn) : Accurate base stale issued
    (turn.sendSession id frame) := by
  obtain ⟨book, hbook⟩ := h
  -- The snapshot of the frame, if there is one, is booked first.
  obtain ⟨book, hbook, hbooked⟩ : ∃ book, Booked stale issued turn.actor (base ++ turn.log) book ∧
      ∀ snapshot, frame.snapshot? = some snapshot → book snapshot.label snapshot.state := by
    cases hsnap : frame.snapshot? with
    | none => exact ⟨book, hbook, by simp⟩
    | some snapshot =>
      obtain ⟨hcur, hfr⟩ := hhonest snapshot hsnap
      exact ⟨_, hbook.tell hcur hfr, by rintro _ ⟨⟩; exact .inr ⟨rfl, rfl⟩⟩
  have hcur : ∀ snapshot, frame.snapshot? = some snapshot →
      turn.actor.shown snapshot.label = some snapshot.state := fun snapshot hsnap =>
    (shown_of_snapshot (hhonest snapshot hsnap).1).1
  refine ⟨book, ?_⟩
  have hspoken := turn.sendSession_spoken id frame
  generalize turn.sendSession id frame = turn' at hspoken ⊢
  cases hspoken with
  | unrecorded =>
    simp only [note, setCore, ← append_assoc]
    have hsil := hbook.silent [.unrecorded id frame] (by simp [sends])
    exact ⟨hsil.records, hsil.known, hsil.live, hsil.recorded, hsil.sent, hsil.ordered⟩
  | unasked hunasked hunc => exact hunc.booked hbook hbooked fun _ => hcur
  | @completed _ reliable hask hcmp hunc =>
    refine hunc.booked ?_ hbooked fun _ => hcur
    simp only [note, ← append_assoc]
    refine Booked.silent ?_ [.recorded id frame] (by simp [sends])
    refine ⟨hbook.records, hbook.known, hbook.live, ?_, hbook.sent, hbook.ordered⟩
    intro other requestId cached hrpl
    have hreliable : reliable = (turn.actor.reliable.complete id frame.requestId frame).2 := by
      rw [hcmp]
    rw [hreliable] at hrpl
    rcases replay_of_complete hrpl with hbef | ⟨-, -, rfl⟩
    · exact hbook.recorded other requestId cached hbef
    · exact ⟨hask, hbooked⟩

theorem note_accurate (hsil : effect.sends = false)
    (h : Accurate base stale issued turn) : Accurate base stale issued (turn.note effect) := by
  obtain ⟨book, hbook⟩ := h
  refine ⟨book, ?_⟩
  have hnoted := hbook.silent [effect] (by simpa using hsil)
  rwa [append_assoc] at hnoted

end Turn

namespace Accurate

variable {base : List Effect} {stale stale' : String → Prop} {issued issued' : List Bytes}
  {turn turn' : Turn}

theorem change (h : Accurate base stale issued turn) (hlog : turn'.log = turn.log)
    (hreliable : turn'.actor.reliable = turn.actor.reliable)
    (hsp : ∀ key, turn'.actor.spacesState.space key = turn.actor.spacesState.space key)
    (hroster : ∀ key, ¬stale' key → turn'.actor.roster key = turn.actor.roster key)
    (hstl : ∀ key, stale key → stale' key) : Accurate base stale' issued turn' := by
  obtain ⟨book, hbook⟩ := h
  refine ⟨book, hlog ▸ hbook.amend (refl issued) (fun _ _ _ hrpl => hreliable ▸ hrpl)
    (fun key space hget => hbook.live key space ((hsp key).symm.trans hget)) ?_⟩
  exact shown_amended hsp hroster hstl

theorem mono (h : Accurate base stale issued turn) (hiss : issued ⊆ issued')
    (hstl : ∀ key, stale key → stale' key) : Accurate base stale' issued' turn := by
  obtain ⟨book, hbook⟩ := h
  refine ⟨book, hbook.amend hiss (fun _ _ _ hrpl => hrpl) (fun key space hget => ?_) ?_⟩
  · exact ⟨hiss (hbook.live key space hget).1, (hbook.live key space hget).2⟩
  · exact shown_amended (fun _ => rfl) (fun _ _ => rfl) hstl

end Accurate

abbrev noneStale : String → Prop := fun _ => False

section Walk

variable {base : List Effect} {stale : String → Prop} {issued : List Bytes} {turn turn' : Turn}

theorem Aside.accurate (h : Aside turn turn') (hcoh : Coherent turn.actor)
    (haccu : Accurate base noneStale issued turn) : Accurate base noneStale issued turn' := by
  cases h with
  | noted hplain hsil hunrecorded => exact Turn.note_accurate hsil haccu
  | sent sessionId hhonest =>
    exact Turn.sendSession_accurate sessionId
      (fun snapshot hsnap => ⟨hhonest snapshot hsnap, not_false⟩) haccu
  | replayed hrpl =>
    obtain ⟨book, hbook⟩ := haccu
    obtain ⟨hask, hbooked⟩ := hbook.recorded _ _ _ hrpl
    refine ⟨book, (turn.sendSessionUncached_uncached _ _).booked hbook hbooked fun hunasked => ?_⟩
    rw [hask] at hunasked
    cases hunasked
  | began hid hnext hctn =>
    obtain ⟨book, hbook⟩ := haccu
    refine ⟨book, hbook.records, hbook.known, hbook.live, fun other requestId frame hrpl => ?_,
      hbook.sent, hbook.ordered⟩
    exact hbook.recorded other requestId frame (replay_of_attachSession hrpl)
  | attached hlive hfr =>
    obtain ⟨session, hget⟩ := hcoh.session_of_live hlive
    rw [Turn.attachStream_eq hget]
    exact haccu.change rfl rfl (fun _ => rfl) (fun _ _ => rfl) fun _ => id
  | streamClosed stream =>
    rcases turn.streamClosed_cases stream hcoh with heq | ⟨session, hget, -, heq⟩ <;> rw [heq]
    · exact haccu
    · exact haccu.change rfl rfl (fun _ => rfl) (fun _ _ => rfl) fun _ => id
  | _ => exact haccu.change rfl rfl (fun _ => rfl) (fun _ _ => rfl) fun _ => id

theorem Asides.accurate (h : Asides turn turn') (hcoh : Coherent turn.actor)
    (haccu : Accurate base noneStale issued turn) : Accurate base noneStale issued turn' := by
  induction h with
  | refl => exact haccu
  | tail hasides hasd ih => exact hasd.accurate (Asides.coherent hasides hcoh) ih

namespace Turn

theorem publish_shown (turn : Turn) (key : String) (label : String × Bytes) :
    (turn.publish key).actor.shown label = if label.1 = key then
      (turn.actor.shown label).map fun state => (saturatingSucc state.1, state.2)
    else turn.actor.shown label := by
  simp only [shown, publish_space, (turn.publish_republished key).roster_eq]
  split_ifs with hkey
  · rw [hkey]
    cases turn.actor.spacesState.space key with
    | none => rfl
    | some space =>
      simp only [map_some, bind_some, MaterializedSpace.refresh]
      split_ifs <;> rfl
  · rfl

theorem publish_accurate (key : String) (h : Accurate base stale issued turn) :
    Accurate base (fun other => stale other ∧ other ≠ key) issued (turn.publish key) := by
  obtain ⟨book, hbook⟩ := h
  have hlogged : Booked stale issued turn.actor (base ++ (turn.publish key).log) book := by
    obtain ⟨effects, hlog, hsil⟩ : turn.Logs (turn.publish key) fun effect => !effect.sends :=
      turn.publish_logs key fun _ _ => rfl
    rw [hlog, ← append_assoc]
    exact hbook.silent effects fun effect hmem => by simpa using hsil effect hmem
  refine ⟨book, hlogged.amend (refl issued) (fun _ _ _ hrpl => ?_)
    (fun other space hget => ?_) fun label => ?_⟩
  · rwa [publish_reliable] at hrpl
  · rw [publish_space] at hget
    split_ifs at hget with hoth
    · obtain ⟨before, hbef, rfl⟩ := map_eq_some_iff.mp hget
      exact ⟨(hbook.live key before hbef).1, min_le_right _ _⟩
    · exact hbook.live other space hget
  · rw [publish_shown]
    split_ifs with hkey
    · cases hshn : turn.actor.shown label with
      | none => exact .gone _
      | some state =>
        have hle : state.1 ≤ u64Max := hbook.shown_le hshn
        exact .raised (by simp only [saturatingSucc]; omega) (by simp only [saturatingSucc]; omega)
    · exact .same _ fun hstl => ⟨hstl, hkey⟩

theorem broadcastSpaceSnapshot_accurate (key : String) (hfr : ¬stale key)
    (h : Accurate base stale issued turn) :
    Accurate base stale issued (turn.broadcastSpaceSnapshot key) := by
  unfold broadcastSpaceSnapshot
  cases hsnap : turn.actor.spaceSnapshot key with
  | none => exact h
  | some snapshot =>
    have hkey : snapshot.spaceKey = key := by
      obtain ⟨space, -, rfl⟩ := map_eq_some_iff.mp hsnap
      rfl
    have hkept : ∀ turn' : Turn, SameEntities turn.actor turn'.actor →
        turn'.actor.spaceSnapshot snapshot.spaceKey = some snapshot := fun turn' hsame => by
      rw [hsame.spaceSnapshot_eq, hkey, hsnap]
    generalize (turn.actor.sessions.rows.map ControllerSession.id).filter _ = sessions
    induction sessions generalizing turn with
    | nil => exact h
    | cons id sessions ih =>
      have hsame := turn.sendSession_same id ⟨[], .spaceSnapshot snapshot⟩
      refine ih (sendSession_accurate id ?_ h) ?_ fun turn' hsame' => hkept turn' (hsame.trans hsame')
      · rintro other ⟨⟩
        exact ⟨hkept turn (.refl _), hkey ▸ hfr⟩
      · rw [← hkey]
        exact hkept _ hsame

theorem refreshSpace_accurate (key : String) (h : Accurate base stale issued turn) :
    Accurate base (fun other => stale other ∧ other ≠ key) issued (turn.refreshSpace key) :=
  broadcastSpaceSnapshot_accurate key (fun hstl => hstl.2 rfl) (publish_accurate key h)

theorem followSpace_accurate (connection : Option ConnectionId) (key : String)
    (h : Accurate base stale issued turn) :
    Accurate base stale issued (turn.followSpace connection key) := by
  unfold followSpace
  cases connection with
  | none => exact h
  | some connection =>
    cases turn.actor.spacesState.space key with
    | none => exact h
    | some space => exact note_accurate rfl h

theorem sendStatus_accurate (id : String) (h : Accurate base stale issued turn) :
    Accurate base stale issued (turn.sendStatus id) := by
  unfold sendStatus
  cases turn.actor.spacesState.participant id with
  | none => exact h
  | some participant =>
    cases turn.actor.ownership.get id with
    | none => exact h
    | some ownership => exact sendSession_accurate _ (by simp [ServerFrame.snapshot?]) h

theorem refresh_both (key key' : String) (connection : Turn → Option ConnectionId)
    (h : Accurate base (fun other => other = key ∨ other = key') issued turn) :
    Accurate base noneStale issued (if key' ≠ key then
      ((turn.refreshSpace key).refreshSpace key').followSpace
        (connection ((turn.refreshSpace key).refreshSpace key')) key'
      else turn.refreshSpace key) := by
  split_ifs with hne
  · refine followSpace_accurate _ _ ((refreshSpace_accurate key' (refreshSpace_accurate key h)).mono
      (refl issued) fun other hstl => ?_)
    rcases hstl with ⟨⟨rfl | rfl, hoth⟩, hoth'⟩
    · exact hoth rfl
    · exact hoth' rfl
  · refine (refreshSpace_accurate key h).mono (refl issued) fun other hstl => ?_
    rcases hstl with ⟨rfl | rfl, hoth⟩
    · exact hoth rfl
    · exact hne hoth

theorem reveal_accurate (participant : ParticipantState) (oldSpace : Option String)
    (h : Accurate base (fun key => oldSpace = some key ∨ key = participant.space) issued turn) :
    Accurate base noneStale issued (turn.reveal participant oldSpace) := by
  cases oldSpace with
  | none =>
    refine (refreshSpace_accurate participant.space h).mono (refl issued) ?_
    rintro key ⟨hnone | hkey, hne⟩
    · cases hnone
    · exact hne hkey
  | some oldSpace =>
    have hboth := refresh_both oldSpace participant.space
      (fun turn => turn.actor.host.bindings.connection participant.participantId)
      (h.mono (refl issued) fun key hkey =>
        hkey.imp_left fun heq => (some.inj heq).symm)
    unfold reveal
    by_cases hne : oldSpace = participant.space
    · simpa [hne] using hboth
    · simpa [hne, Ne.symm hne] using hboth

theorem applySpec_accurate {participant : ParticipantState} (spec : ParticipantSpec)
    (hget : turn.actor.spacesState.participant participant.participantId = some participant)
    (h : Accurate base noneStale issued turn) :
    Accurate base noneStale issued (turn.applySpec participant.participantId spec) := by
  have hchg : Accurate base (fun key => key = participant.space ∨ key = spec.spaceKey.value)
      issued (turn.setSpaces
        (turn.actor.spacesState.insertParticipant { participant with spec })) := by
    refine h.change rfl rfl (fun _ => rfl) (fun key hkey => ?_) fun _ => False.elim
    rw [not_or] at hkey
    refine roster_of_others
      (fun other hoth => (participant_insertParticipant _ other).trans (if_neg hoth))
      (fun _ _ => rfl)
      (fun former hformer => ?_) (fun former hformer => ?_)
    · rw [hget] at hformer
      cases hformer
      exact Ne.symm hkey.1
    · have hspec := (participant_insertParticipant { participant with spec }
        participant.participantId).symm.trans hformer
      rw [if_pos rfl] at hspec
      cases hspec
      exact Ne.symm hkey.2
  have hnoted : Accurate base (fun key => key = participant.space ∨ key = spec.spaceKey.value)
      issued ((turn.setSpaces
        (turn.actor.spacesState.insertParticipant { participant with spec })).note
        (.respecified participant.participantId spec.spaceKey.value)) :=
    note_accurate rfl hchg
  unfold applySpec replaceParticipantSpec
  simp only [hget, map_some]
  exact refresh_both _ _ (fun _ => turn.actor.host.bindings.connection participant.participantId) hnoted

end Turn

end Walk

end MumbleRuntime.SpacesServer
