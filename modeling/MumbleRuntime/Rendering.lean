import MumbleRuntime.Standing

/-!
# Renders and their reports

One Space's shard renders what the actor last published for it. The report of a
turn waits in a slot in which the next one replaces it; a bridge takes it out and
sends it to the actor, in order. The actor forgets a render at the first report it
gets of it, so a render that is refused and then accepted is recorded as refused.
-/

namespace MumbleRuntime.SpacesServer

open Library Controller Spaces ControllerActor Option SpacesState
open List hiding isEmpty_iff

/-- The actor, the shard of one Space and what lies between them. The turns that ended, the reports
the actor has had and the showings that stand are kept for the statements. -/
structure Rendering where
  actor : ControllerActor
  rendering : Option Nat
  slot : Option (Nat × Spaces.ReconcileReport)
  queue : List (Nat × Spaces.ReconcileReport)
  turns : List (Nat × Bool)
  processed : List (Nat × Bool)
  showings : List Showing

inductive RenderingAction
  | command (input : Input)
  | render
  | finish (report : Spaces.ReconcileReport)
  | take
  | deliver (moment : Moment)

variable {report : Spaces.ReconcileReport}

namespace Rendering

def start (config : ControllerConfig) (controlEpoch : Bytes) : Rendering where
  actor := .spawn config controlEpoch
  rendering := none
  slot := none
  queue := []
  turns := []
  processed := []
  showings := []

section Followed

variable (key : String) (shard : ShardId) (state : Rendering)

def foreign : ActorCommand → Bool
  | .reconciled other revision _ =>
    other ≠ key || (state.actor.spacesState.space key).all fun space =>
      space.shard ≠ shard || (space.renderHistory.find? revision).isNone
  | _ => true

def commanded (input : Input) : Rendering :=
  { state with
    actor := (state.actor.turn input).actor
    showings := standing key shard state.showings (state.actor.turn input).log }

def step : RenderingAction → Option Rendering
  | .command input =>
    if state.foreign key shard input.command then some (state.commanded key shard input) else none
  | .render =>
    if state.rendering.isSome then none
    else (state.actor.spacesState.space key).bind fun space =>
      if space.shard = shard then
        some { state with rendering := some space.desired.applicationRevision }
      else none
  | .finish report =>
    state.rendering.map fun revision =>
      { state with
        rendering := none
        slot := some (revision, report)
        turns := state.turns ++ [(revision, report.refused.isNone)] }
  | .take =>
    state.slot.map fun report => { state with slot := none, queue := state.queue ++ [report] }
  | .deliver moment =>
    match state.queue with
    | [] => none
    | (revision, report) :: queue =>
      some { state.commanded key shard ⟨moment, .reconciled key revision report⟩ with
        queue
        processed := state.processed ++ [(revision, report.refused.isNone)] }

def fresh : RenderingAction → Bool
  | .command input => freshStream state.actor input
  | _ => true

end Followed

def heed (heeded : Nat × Bool) (report : Nat × Bool) : Nat × Bool :=
  if heeded.1 < report.1 then report else heeded

/-- The newest revision the actor had a report of, and what its first report said. -/
def heeded (state : Rendering) : Nat × Bool := state.processed.foldl heed (0, false)

def seen (state : Rendering) : List Nat := state.turns.map Prod.fst ++ state.rendering.toList

def lastTurn (state : Rendering) (revision : Nat) : Option Bool :=
  ((state.turns.filter fun turn => turn.1 = revision).getLast?).map Prod.snd

def settled (state : Rendering) : Bool := state.slot.isNone && state.queue.isEmpty

/-- The reports on their way are of renders that were begun, the newest last, and the renders that
were begun are tracked. -/
structure Lined (key : String) (shard : ShardId) (state : Rendering) : Prop where
  tracks : Tracks key shard state.actor state.showings state.heeded state.seen
  queued : ∀ report ∈ state.queue, report.1 ∈ state.seen
  slotted : ∀ report ∈ state.slot, report.1 ∈ state.seen ∧ ∀ turn ∈ state.turns, turn.1 ≤ report.1
  rendered : ∀ revision ∈ state.rendering, ∀ turn ∈ state.turns, turn.1 ≤ revision
  covered : state.slot = none → ∀ turn ∈ state.turns,
    turn.1 ≤ state.heeded.1 ∨ ∃ report ∈ state.queue, turn.1 ≤ report.1

structure Sound (key : String) (shard : ShardId) (state : Rendering) : Prop where
  coherent : Coherent state.actor
  bound : state.actor.spacesState.nextApplicationRevision ≤ u64Max
  lined : state.actor.spacesState.nextApplicationRevision < u64Max → Lined key shard state

variable {key : String} {shard : ShardId} {state state' : Rendering} {heeded : Nat × Bool}
  {seen : List Nat}

theorem heed_le (heeded report : Nat × Bool) : heeded.1 ≤ (heed heeded report).1 ∧
    report.1 ≤ (heed heeded report).1 := by
  unfold heed
  split_ifs with hlt
  · exact ⟨hlt.le, le_rfl⟩
  · exact ⟨le_rfl, not_lt.mp hlt⟩

theorem Sound.start (config : ControllerConfig) (controlEpoch : Bytes) :
    Sound key shard (start config controlEpoch) where
  coherent := .spawn config controlEpoch
  bound := show 1 ≤ u64Max by decide
  lined _ := by
    refine ⟨⟨fun _ hmem => absurd hmem not_mem_nil, fun _ _ hsp => (by cases hsp),
      .inr ⟨rfl, rfl⟩, Nat.one_pos, fun _ hmem => absurd hmem not_mem_nil,
      fun _ hsp => (by cases hsp)⟩, ?_, ?_, ?_, ?_⟩
    · exact fun _ hmem => absurd hmem not_mem_nil
    · exact fun _ hmem => (by cases hmem)
    · exact fun _ hmem => (by cases hmem)
    · exact fun _ _ hmem => absurd hmem not_mem_nil

variable {input : Input}

theorem Sound.unreported (h : Sound key shard state) (hfr : freshStream state.actor input = true)
    (hcmd : ∀ other revision report, input.command ≠ .reconciled other revision report)
    (hroom : (state.actor.turn input).actor.spacesState.nextApplicationRevision < u64Max)
    (htracks : Tracks key shard state.actor state.showings heeded seen) :
    Tracks key shard (state.actor.turn input).actor
      (standing key shard state.showings (state.actor.turn input).log) heeded seen := by
  have hdeeds : Deeds .reportless (state.actor.opening input) (state.actor.turn input) :=
    turn_deeds h.coherent hfr (.inl trivial) (fun _ _ _ => trivial)
      fun other revision report heq => absurd heq (hcmd other revision report)
  exact hdeeds.tracks id h.coherent h.bound hroom htracks

variable {moment : Moment} {revision : Nat}

theorem Sound.unrecognised {other : String}
    (hrcl : state.actor.spacesState.reconcile other revision report = none)
    (htracks : Tracks key shard state.actor state.showings heeded seen) :
    Tracks key shard (state.actor.turn ⟨moment, .reconciled other revision report⟩).actor
      (standing key shard state.showings
        (state.actor.turn ⟨moment, .reconciled other revision report⟩).log) heeded seen := by
  obtain ⟨hsame, hlog⟩ := turn_unrecognised moment hrcl
  rw [hlog]
  exact htracks.same hsame

theorem Sound.recognised (h : Sound key shard state) {other : String}
    {ids : List String} {spacesState : SpacesState}
    (hrcl : state.actor.spacesState.reconcile other revision report = some (ids, spacesState))
    (hroom : (state.actor.turn
      ⟨moment, .reconciled other revision report⟩).actor.spacesState.nextApplicationRevision < u64Max)
    (htracks : Tracks key shard { state.actor with spacesState } state.showings heeded seen) :
    Tracks key shard (state.actor.turn ⟨moment, .reconciled other revision report⟩).actor
      (standing key shard state.showings
        (state.actor.turn ⟨moment, .reconciled other revision report⟩).log) heeded seen := by
  obtain ⟨space, revisions, hrec⟩ := reconcile_reconciled hrcl
  obtain ⟨middle, hsame, hlog, hcoh, hdeeds⟩ :=
    turn_recognised h.coherent .reportless moment hrcl
  have hbd : middle.actor.spacesState.nextApplicationRevision ≤ u64Max := by
    rw [hsame.spacesState]
    exact hrec.nextApplicationRevision_eq.trans_le h.bound
  refine hdeeds.tracks id hcoh hbd hroom ?_
  rw [hlog]
  exact htracks.same hsame

theorem turn_room {actor : ControllerActor} (hcoh : Coherent actor)
    (hfr : freshStream actor input = true)
    (hbd : actor.spacesState.nextApplicationRevision ≤ u64Max) :
    Coherent (actor.turn input).actor ∧
      actor.spacesState.nextApplicationRevision ≤
        (actor.turn input).actor.spacesState.nextApplicationRevision ∧
      (actor.turn input).actor.spacesState.nextApplicationRevision ≤ u64Max := by
  have hdeeds : Deeds .any (actor.opening input) (actor.turn input) :=
    turn_deeds hcoh hfr (.inl trivial) (fun _ _ _ => trivial) fun _ _ _ _ => trivial
  exact ⟨hdeeds.coherent hcoh, hdeeds.nextApplicationRevision_le hcoh hbd⟩

section

variable (h : Sound key shard state)

include h

theorem Sound.commanded (hfr : freshStream state.actor input = true)
    (hforeign : state.foreign key shard input.command = true) :
    Sound key shard (state.commanded key shard input) := by
  obtain ⟨hcoh, hle, hbd⟩ := turn_room h.coherent hfr h.bound
  refine ⟨hcoh, hbd, fun hroom => ?_⟩
  have hlined := h.lined (hle.trans_lt hroom)
  refine ⟨?_, hlined.queued, hlined.slotted, hlined.rendered, hlined.covered⟩
  by_cases hcmd : ∀ other revision report, input.command ≠ .reconciled other revision report
  · exact h.unreported hfr hcmd hroom hlined.tracks
  · push Not at hcmd
    obtain ⟨other, revision, report, hcmd⟩ := hcmd
    obtain ⟨moment, command⟩ := input
    subst hcmd
    cases hrcl : state.actor.spacesState.reconcile other revision report with
    | none => exact Sound.unrecognised hrcl hlined.tracks
    | some reconciled =>
      obtain ⟨space, revisions, hrec⟩ := reconcile_reconciled hrcl
      refine h.recognised hrcl hroom (hlined.tracks.ignores hrec ?_)
      rintro rfl
      simpa [foreign, hrec.space_eq, hrec.carried] using hforeign

theorem Sound.rendering {space : MaterializedSpace} (hrendering : state.rendering = none)
    (hsp : state.actor.spacesState.space key = some space) (hsh : space.shard = shard) :
    Sound key shard { state with rendering := some space.desired.applicationRevision } := by
  refine ⟨h.coherent, h.bound, fun hroom => ?_⟩
  have hlined := h.lined hroom
  have hpending := hlined.tracks.pending space hsp hsh
  have hold : ∀ revision ∈ state.seen, revision ∈
      (Rendering.seen { state with rendering := some space.desired.applicationRevision }) := by
    intro revision hmem
    simp only [Rendering.seen, hrendering, toList_none, append_nil] at hmem
    exact mem_append_left _ hmem
  have hcases : ∀ revision ∈
      (Rendering.seen { state with rendering := some space.desired.applicationRevision }),
      revision ∈ state.seen ∨ revision = space.desired.applicationRevision := by
    intro revision hmem
    rcases mem_append.mp hmem with hmem | hmem
    · exact .inl (mem_append_left _ hmem)
    · exact .inr (mem_singleton.mp hmem)
  have hturns : ∀ turn ∈ state.turns, turn.1 ≤ space.desired.applicationRevision := by
    intro turn hmem
    exact hpending.seen_le _ (mem_append_left _ (mem_map_of_mem hmem))
  refine ⟨⟨hlined.tracks.stands, hlined.tracks.created,
    .inl (hsh ▸ hlined.tracks.created key space hsp), hlined.tracks.heeded_lt, ?_, ?_⟩, ?_, ?_,
    ?_, hlined.covered⟩
  · intro revision hmem
    rcases hcases revision hmem with hmem | rfl
    · exact hlined.tracks.seen_lt revision hmem
    · exact hpending.current_lt
  · intro space' hsp' _
    obtain rfl : space' = space := some.inj (hsp'.symm.trans hsp)
    refine ⟨hpending.after, hpending.current_lt, hpending.current, ?_, ?_⟩
    · intro revision hmem
      rcases hcases revision hmem with hmem | rfl
      · exact hpending.seen_le revision hmem
      · exact le_rfl
    · intro revision hmem hlt
      rcases hcases revision hmem with hmem | rfl
      · exact hpending.seen_held revision hmem hlt
      · exact hpending.current hlt
  · exact fun report hmem => hold _ (hlined.queued report hmem)
  · exact fun report hmem => ⟨hold _ (hlined.slotted report hmem).1, (hlined.slotted report hmem).2⟩
  · intro revision hmem turn hturn
    obtain rfl := some.inj hmem
    exact hturns turn hturn

theorem Sound.finished {revision : Nat} (hrendering : state.rendering = some revision) :
    Sound key shard { state with
      rendering := none
      slot := some (revision, report)
      turns := state.turns ++ [(revision, report.refused.isNone)] } := by
  refine ⟨h.coherent, h.bound, fun hroom => ?_⟩
  have hlined := h.lined hroom
  have hseen : Rendering.seen { state with
      rendering := none
      slot := some (revision, report)
      turns := state.turns ++ [(revision, report.refused.isNone)] } = state.seen := by
    simp [Rendering.seen, hrendering]
  have hmem : revision ∈ state.seen := by simp [Rendering.seen, hrendering]
  refine ⟨hseen.symm ▸ hlined.tracks, hseen.symm ▸ hlined.queued, ?_, fun _ hnone => (by cases hnone),
    fun hnone => (by cases hnone)⟩
  intro report' hreport'
  obtain rfl := some.inj hreport'
  refine ⟨hseen.symm ▸ hmem, fun turn hturn => ?_⟩
  rcases mem_append.mp hturn with hturn | hturn
  · exact hlined.rendered revision hrendering turn hturn
  · exact (congrArg Prod.fst (mem_singleton.mp hturn)).le

theorem Sound.taken {report : Nat × Spaces.ReconcileReport} (hslot : state.slot = some report) :
    Sound key shard { state with slot := none, queue := state.queue ++ [report] } := by
  refine ⟨h.coherent, h.bound, fun hroom => ?_⟩
  have hlined := h.lined hroom
  obtain ⟨hmem, hturns⟩ := hlined.slotted report hslot
  refine ⟨hlined.tracks, ?_, fun _ hnone => (by cases hnone), hlined.rendered, ?_⟩
  · intro report' hreport'
    rcases mem_append.mp hreport' with hreport' | hreport'
    · exact hlined.queued report' hreport'
    · exact mem_singleton.mp hreport' ▸ hmem
  · intro _ turn hturn
    exact .inr ⟨report, mem_append_right _ (mem_singleton_self _), hturns turn hturn⟩

end

theorem Lined.unheeded (h : Lined key shard state) (hseen : revision ∈ state.seen)
    (hrcl : state.actor.spacesState.reconcile key revision report = none) :
    Tracks key shard state.actor state.showings
      (heed state.heeded (revision, report.refused.isNone)) state.seen := by
  unfold heed
  split_ifs with hlt
  · refine h.tracks.unfollowed (fun space hsp hsh => ?_) (ne_nil_of_mem hseen)
      (h.tracks.seen_lt revision hseen)
    have hheld := (h.tracks.pending space hsp hsh).seen_held revision hseen hlt
    obtain ⟨revisions, hfind⟩ := isSome_iff_exists.mp hheld
    simp [reconcile, hsp, MaterializedSpace.reconcile, hfind] at hrcl
  · exact h.tracks

theorem Lined.heeds (h : Lined key shard state)
    {space : MaterializedSpace} {revisions : OrderedMap String Nat} {ids : List String}
    {spacesState : SpacesState} (hseen : revision ∈ state.seen)
    (hrec : state.actor.spacesState.Reconciled key revision report space revisions ids
      spacesState) :
    Tracks key shard { state.actor with spacesState } state.showings
      (heed state.heeded (revision, report.refused.isNone)) state.seen := by
  by_cases hsh : space.shard = shard
  · have haft := ((h.tracks.pending space hrec.space_eq hsh).after revision revisions
      hrec.carried).1
    rw [heed, if_pos haft]
    exact h.tracks.heeds hrec hsh
  · have hignored := h.tracks.ignores hrec fun _ => hsh
    unfold heed
    split_ifs
    · refine hignored.unfollowed (fun space' hsp' => ?_) (ne_nil_of_mem hseen)
        (hignored.seen_lt revision hseen)
      have hold := (hrec.space_after key).symm.trans hsp'
      rw [if_pos rfl] at hold
      obtain rfl := some.inj hold
      exact hsh
    · exact hignored

theorem Sound.delivered (h : Sound key shard state) {queue : List (Nat × Spaces.ReconcileReport)}
    (hque : state.queue = (revision, report) :: queue) :
    Sound key shard { state.commanded key shard ⟨moment, .reconciled key revision report⟩ with
      queue
      processed := state.processed ++ [(revision, report.refused.isNone)] } := by
  have hfr : freshStream state.actor ⟨moment, .reconciled key revision report⟩ = true := rfl
  obtain ⟨hcoh, hle, hbd⟩ := turn_room h.coherent hfr h.bound
  refine ⟨hcoh, hbd, fun hroom => ?_⟩
  have hlined := h.lined (hle.trans_lt hroom)
  have hseen : revision ∈ state.seen := hlined.queued (revision, report) (hque ▸ mem_cons_self)
  have hheeded : Rendering.heeded { state.commanded key shard
      ⟨moment, .reconciled key revision report⟩ with
      queue
      processed := state.processed ++ [(revision, report.refused.isNone)] } =
      heed state.heeded (revision, report.refused.isNone) := foldl_append
  refine ⟨?_, fun report' hmem => hlined.queued report' (hque ▸ mem_cons_of_mem _ hmem),
    hlined.slotted, hlined.rendered, fun hslot turn hturn => ?_⟩
  · rw [hheeded]
    cases hrcl : state.actor.spacesState.reconcile key revision report with
    | none => exact Sound.unrecognised hrcl (hlined.unheeded hseen hrcl)
    | some reconciled =>
      obtain ⟨space, revisions, hrec⟩ := reconcile_reconciled hrcl
      exact h.recognised hrcl hroom (hlined.heeds hseen hrec)
  · rw [hheeded]
    obtain ⟨hkept, hcounted⟩ := heed_le state.heeded (revision, report.refused.isNone)
    rcases hlined.covered hslot turn hturn with hdone | ⟨report', hmem, hle⟩
    · exact .inl (hdone.trans hkept)
    · rw [hque] at hmem
      rcases mem_cons.mp hmem with rfl | hmem
      · exact .inl (hle.trans hcounted)
      · exact .inr ⟨report', hmem, hle⟩

theorem Sound.step (h : Sound key shard state) {action : RenderingAction}
    (hfr : state.fresh action = true) (hstep : state.step key shard action = some state') :
    Sound key shard state' := by
  cases action with
  | command input =>
    simp only [Rendering.step] at hstep
    split_ifs at hstep with hforeign
    cases hstep
    exact h.commanded hfr hforeign
  | render =>
    simp only [Rendering.step] at hstep
    split_ifs at hstep with hrendering
    obtain ⟨space, hsp, hmine⟩ := bind_eq_some_iff.mp hstep
    split_ifs at hmine with hsh
    cases hmine
    exact h.rendering (by simpa using hrendering) hsp hsh
  | finish report =>
    obtain ⟨revision, hrendering, rfl⟩ := map_eq_some_iff.mp hstep
    exact h.finished hrendering
  | take =>
    obtain ⟨report, hslot, rfl⟩ := map_eq_some_iff.mp hstep
    exact h.taken hslot
  | deliver moment =>
    simp only [Rendering.step] at hstep
    cases hque : state.queue with
    | nil =>
      rw [hque] at hstep
      cases hstep
    | cons report queue =>
      rw [hque] at hstep
      cases hstep
      exact h.delivered hque

end Rendering

/-- In every run: where every report was processed and the first report the actor had of the newest
revision was an acceptance, what an accepted render showed is recorded. -/
theorem accepted_render_recorded (key : String) (shard : ShardId) (config : ControllerConfig)
    (controlEpoch : Bytes) {state : Rendering}
    (h : Reaches (Rendering.step key shard) (fun state action => state.fresh action = true)
      (.start config controlEpoch) state)
    (hroom : state.actor.spacesState.nextApplicationRevision < u64Max)
    (hfirst : state.heeded.2 = true) (hsettled : state.settled = true) {revision : Nat}
    (hlast : state.lastTurn revision = some true) :
    ∀ showing ∈ state.showings, showing.revision = revision →
      ∃ participant, state.actor.spacesState.participant showing.participantId = some participant ∧
        participant.space = key ∧ showing.accepted ≤ participant.appliedSpecRevision ∧
        participant.applicationError = "" := by
  have hsnd : state.Sound key shard := Reaches.invariant (P := Rendering.Sound key shard)
    (.start config controlEpoch) (fun _ _ _ hsnd hfr hstep => hsnd.step hfr hstep) h
  have hlined := hsnd.lined hroom
  rw [Rendering.settled, Bool.and_eq_true, Option.isNone_iff_eq_none, List.isEmpty_iff] at hsettled
  obtain ⟨turn, hturn, -⟩ := Option.map_eq_some_iff.mp hlast
  obtain ⟨hmem, hrevision⟩ := List.mem_filter.mp (List.mem_of_getLast? hturn)
  have hcounted : revision ≤ state.heeded.1 := by
    rcases hlined.covered hsettled.1 turn hmem with hdone | ⟨report, hqueued, -⟩
    · exact (of_decide_eq_true hrevision).symm.trans_le hdone
    · rw [hsettled.2] at hqueued
      cases hqueued
  intro showing hshowing hshn
  obtain ⟨participant, hget, hhome, hdone⟩ := (hlined.tracks.stands showing hshowing).wanted
  obtain ⟨hacc, herr⟩ := hdone (hshn.trans_le hcounted) hfirst
  exact ⟨participant, hget, hhome, hacc, herr⟩

/-- A participant joins; its first render is accepted, or refused and accepted after. -/
def renderedRuns (refused : Option String) : List RenderingAction :=
  [.command (openInput 1 [1] [] [sampleRegistration [] 1 "lobby"] 10),
    .render, .finish ⟨1, refused⟩, .take, .deliver (calm 1 20),
    .render, .finish ⟨2, none⟩, .take, .deliver (calm 2 30)]

def renderedSample (refused : Option String) : Rendering :=
  (runActions (Rendering.step "lobby" 0) (.start sampleConfig [0]) (renderedRuns refused)).getD
    (.start sampleConfig [0])

theorem accepted_render_recorded_twice :
    (renderedSample none).showings = [⟨1, "ada", 1⟩] ∧
    ∃ participant, (renderedSample none).actor.spacesState.participant "ada" = some participant ∧
      participant.space = "lobby" ∧ 1 ≤ participant.appliedSpecRevision ∧
      participant.applicationError = "" :=
  ⟨by decide +kernel,
    accepted_render_recorded "lobby" 0 sampleConfig [0]
      (reaches_getD (by decide +kernel)) (by decide +kernel)
      (by decide +kernel) (by decide +kernel) (by decide +kernel) ⟨1, "ada", 1⟩ (by decide +kernel)
      rfl⟩

/-- A render that is refused and then accepted stays recorded as refused. -/
theorem refused_then_accepted_unrecorded :
    ∃ state, Reaches (Rendering.step "lobby" 0) (fun state action => state.fresh action = true)
        (.start sampleConfig [0]) state ∧
      state.actor.spacesState.nextApplicationRevision < u64Max ∧ state.settled = true ∧
      state.lastTurn 1 = some true ∧ state.showings = [⟨1, "ada", 1⟩] ∧
      (state.actor.spacesState.participant "ada").map (fun participant =>
        (participant.space, participant.appliedSpecRevision, participant.applicationError)) =
        some ("lobby", 0, "the view is refused") :=
  ⟨renderedSample (some "the view is refused"),
    reaches_getD (by decide +kernel), by decide +kernel,
    by decide +kernel⟩

end MumbleRuntime.SpacesServer
