import Mathlib.Data.List.Induction
import Mathlib.Data.String.Basic
import MumbleRuntime.Shard

/-!
# The logic of a Space: one root channel and one audio domain

A Space renders the latest snapshot the controller published: every participant
bound to a connection stands in the root and hears every other one. What the
shard tells the Space about its connections is reported back, and a departure
the controller could not take is kept and reported again.
-/

namespace MumbleRuntime.Spaces

open Library List

structure RenderParticipant where
  participantId : String
  connection : Option ConnectionId
  displayName : String
  serverMute : Bool
  serverDeaf : Bool
  selfMute : Bool
  selfDeaf : Bool
  acceptedRevision : Nat
  deriving DecidableEq, Repr

structure RenderState where
  applicationRevision : Nat
  spaceKey : String
  participants : List RenderParticipant
  deriving DecidableEq, Repr

inductive SpaceEventKind
  | connected
  | disconnected
  | selfState (selfMute selfDeaf : Bool)
  deriving DecidableEq, Repr

structure SpaceEvent where
  connection : ConnectionId
  kind : SpaceEventKind
  deriving DecidableEq, Repr

structure SpaceReport where
  spaceKey : String
  event : SpaceEvent
  deriving DecidableEq, Repr

class SpaceReporter (R : Type*) where
  tryReport : R → SpaceReport → Bool × R

structure SnapshotReader (α : Type*) where
  current : α
  renderedRevision : Nat

def SnapshotReader.latest (reader : SnapshotReader RenderState) :
    RenderState × SnapshotReader RenderState :=
  (reader.current, { reader with renderedRevision := reader.current.applicationRevision })

structure ControllerSpaceLogic (R : Type*) where
  spaceKey : String
  desired : SnapshotReader RenderState
  reporter : R
  selfState : OrderedMap ConnectionId (Bool × Bool)
  undeliveredDepartures : List ConnectionId

def RenderState.bound (state : RenderState) : List ConnectionId :=
  state.participants.filterMap RenderParticipant.connection

namespace ControllerSpaceLogic

variable {R : Type*}

def new (spaceKey : String) (desired : SnapshotReader RenderState) (reporter : R) :
    ControllerSpaceLogic R where
  spaceKey := spaceKey
  desired := desired
  reporter := reporter
  selfState := .empty
  undeliveredDepartures := []

def entry (logic : ControllerSpaceLogic R) (connection : ConnectionId) : Bool × Bool :=
  let published :=
    match logic.desired.current.participants.find? (fun p => p.connection = some connection) with
    | some participant => (participant.selfMute, participant.selfDeaf)
    | none => (false, false)
  (logic.selfState.find? connection).getD published

def report [SpaceReporter R] (logic : ControllerSpaceLogic R) (event : SpaceEvent) :
    ControllerSpaceLogic R :=
  let (accepted, reporter) := SpaceReporter.tryReport logic.reporter ⟨logic.spaceKey, event⟩
  if accepted = false ∧ event.kind = .disconnected then
    { logic with
      reporter
      undeliveredDepartures := logic.undeliveredDepartures ++ [event.connection] }
  else { logic with reporter }

def flushDepartures [SpaceReporter R] (logic : ControllerSpaceLogic R) : ControllerSpaceLogic R :=
  logic.undeliveredDepartures.foldl
    (fun logic connection => logic.report ⟨connection, .disconnected⟩)
    { logic with undeliveredDepartures := [] }

def flags (logic : ControllerSpaceLogic R) (connection : ConnectionId)
    (participant : RenderParticipant) : UserFlags :=
  let (selfMute, selfDeaf) :=
    (logic.selfState.find? connection).getD (participant.selfMute, participant.selfDeaf)
  { mute := participant.serverMute, deaf := participant.serverDeaf, selfMute, selfDeaf }

def renderParticipant (logic : ControllerSpaceLogic R) (root : ChannelRef) (out : ShardBuilder)
    (participant : RenderParticipant) : ShardBuilder :=
  match participant.connection with
  | none => out
  | some connection =>
    let (user, out) := out.user root (.connection connection) participant.displayName .same
    out.userFlags user (logic.flags connection participant)

def renderDesired (logic : ControllerSpaceLogic R) (desired : RenderState) (out : ShardBuilder) :
    ShardBuilder :=
  let (root, out) := out.root desired.spaceKey
  let out := desired.participants.foldl (logic.renderParticipant root) out
  { out with audio := out.audio.domain 0 desired.bound }

def render [SpaceReporter R] (logic : ControllerSpaceLogic R) (out : ShardBuilder) :
    ControllerSpaceLogic R × ShardBuilder :=
  let logic := logic.flushDepartures
  let (desired, reader) := logic.desired.latest
  let logic := { logic with desired := reader }
  (logic, logic.renderDesired desired out)

def observation (_logic : ControllerSpaceLogic R) (_connection : ConnectionId) : ScopeSet :=
  (ScopeSet.new [Scope.root]).toOption.getD ScopeSet.none

def observations (logic : ControllerSpaceLogic R) (attached : OrderedSet ConnectionId) :
    Observations := fun connection =>
  if attached.contains connection then some (logic.observation connection) else none

def observe [SpaceReporter R] (logic : ControllerSpaceLogic R) (event : VoiceEvent) (out : Reply) :
    ControllerSpaceLogic R × Reply :=
  let logic := logic.flushDepartures
  match event with
  | .connected connection => (logic.report ⟨connection, .connected⟩, out)
  | .disconnected connection _ =>
    let logic := { logic with selfState := logic.selfState.erase connection }
    (logic.report ⟨connection, .disconnected⟩, out)
  | .migrated connection _ => ({ logic with selfState := logic.selfState.erase connection }, out)
  | .requestedSelfState connection selfMute selfDeaf =>
    let published := logic.entry connection
    let current := (selfMute.getD published.1, selfDeaf.getD published.2)
    let logic := { logic with selfState := logic.selfState.set connection current }
    (logic.report ⟨connection, .selfState current.1 current.2⟩, out)
  | .said connection audience text =>
    (logic, { out with spoken := out.spoken ++ [⟨some connection, audience, text⟩] })
  | .requestedChannel .. | .invokedAction .. => (logic, out)

theorem report_desired [SpaceReporter R] (logic : ControllerSpaceLogic R) (event : SpaceEvent) :
    (logic.report event).desired = logic.desired := by
  simp only [report]
  split_ifs <;> rfl

theorem flushDepartures_desired [SpaceReporter R] (logic : ControllerSpaceLogic R) :
    logic.flushDepartures.desired = logic.desired := by
  suffices h : ∀ (pending : List ConnectionId) (logic : ControllerSpaceLogic R),
      (pending.foldl (fun logic connection => logic.report ⟨connection, .disconnected⟩)
        logic).desired = logic.desired from h _ _
  intro pending
  induction pending with
  | nil => intro logic; rfl
  | cons connection rest ih => intro logic; rw [foldl_cons, ih, report_desired]

end ControllerSpaceLogic

/-- A reporter together with the answers it has given. -/
structure Tracked (R : Type*) where
  reporter : R
  answers : List (SpaceReport × Bool)

instance {R : Type*} [SpaceReporter R] : SpaceReporter (Tracked R) where
  tryReport tracked report :=
    let (accepted, reporter) := SpaceReporter.tryReport tracked.reporter report
    (accepted, ⟨reporter, tracked.answers ++ [(report, accepted)]⟩)

def delivery (answer : SpaceReport × Bool) : Option ConnectionId :=
  if answer.2 = true ∧ answer.1.event.kind = .disconnected then some answer.1.event.connection
  else none

/-- A call on the logic, made while `current` is what the controller last published. -/
inductive LogicCall
  | observe (current : RenderState) (event : VoiceEvent) (out : Reply)
  | render (current : RenderState) (out : ShardBuilder)

def LogicCall.departed : LogicCall → List ConnectionId
  | .observe _ (.disconnected connection _) _ => [connection]
  | _ => []

namespace ControllerSpaceLogic

variable {R : Type*}

def call [SpaceReporter R] (logic : ControllerSpaceLogic R) : LogicCall → ControllerSpaceLogic R
  | .observe current event out =>
    ({ logic with desired := { logic.desired with current } }.observe event out).1
  | .render current out =>
    ({ logic with desired := { logic.desired with current } }.render out).1

/-- What was delivered or kept grew by the departures handed in, and what is kept
grew only if an answer was a refusal. -/
def Reported (logic logic' : ControllerSpaceLogic (Tracked R)) (departed : List ConnectionId) :
    Prop :=
  ∃ answers, logic'.reporter.answers = logic.reporter.answers ++ answers ∧
    (answers.filterMap delivery ++ logic'.undeliveredDepartures).Perm
      (logic.undeliveredDepartures ++ departed) ∧
    ((∀ answer ∈ answers, answer.2 = true) →
      logic'.undeliveredDepartures = logic.undeliveredDepartures)

variable {logic middle logic' : ControllerSpaceLogic (Tracked R)}
  {departed later : List ConnectionId}

theorem Reported.refl (logic : ControllerSpaceLogic (Tracked R)) : Reported logic logic [] :=
  ⟨[], by simp⟩

theorem Reported.trans (h : Reported logic middle departed) (h' : Reported middle logic' later) :
    Reported logic logic' (departed ++ later) := by
  obtain ⟨answers, heq, hperm, hkept⟩ := h
  obtain ⟨answers', heq', hperm', hkept'⟩ := h'
  refine ⟨answers ++ answers', by rw [heq', heq, append_assoc], ?_, fun hall => ?_⟩
  · rw [filterMap_append, append_assoc, ← append_assoc logic.undeliveredDepartures]
    refine (hperm'.append_left _).trans ?_
    rw [← append_assoc]
    exact hperm.append_right later
  · rw [hkept' fun answer h => hall answer (mem_append_right _ h),
      hkept fun answer h => hall answer (mem_append_left _ h)]

variable [SpaceReporter R]

theorem report_reported (event : SpaceEvent) :
    Reported logic (logic.report event)
      (if event.kind = .disconnected then [event.connection] else []) := by
  refine ⟨[(⟨logic.spaceKey, event⟩,
    (SpaceReporter.tryReport logic.reporter.reporter ⟨logic.spaceKey, event⟩).1)], ?_⟩
  simp only [report, SpaceReporter.tryReport]
  cases (SpaceReporter.tryReport logic.reporter.reporter ⟨logic.spaceKey, event⟩).1 <;>
    by_cases hkind : event.kind = .disconnected <;>
    simp [hkind, delivery, (perm_append_singleton _ _).symm]

theorem flushDepartures_reported :
    Reported { logic with undeliveredDepartures := [] } logic.flushDepartures
      logic.undeliveredDepartures := by
  suffices h : ∀ (pending : List ConnectionId) (logic : ControllerSpaceLogic (Tracked R)),
      Reported logic (pending.foldl (fun logic connection =>
        logic.report ⟨connection, .disconnected⟩) logic) pending from h _ _
  intro pending
  induction pending with
  | nil => exact Reported.refl
  | cons connection rest ih =>
    intro logic
    exact (report_reported ⟨connection, .disconnected⟩).trans (ih _)

theorem call_reported (call : LogicCall) :
    Reported { logic with undeliveredDepartures := [] } (logic.call call)
      (logic.undeliveredDepartures ++ call.departed) := by
  cases call with
  | observe current event out =>
    refine Reported.trans
      (@flushDepartures_reported R { logic with desired := { logic.desired with current } } _) ?_
    cases event with
    | connected connection => exact report_reported ⟨connection, .connected⟩
    | disconnected connection reason => exact report_reported ⟨connection, .disconnected⟩
    | requestedSelfState connection mute deaf => exact report_reported ⟨connection, .selfState _ _⟩
    | _ => exact Reported.refl _
  | render current out =>
    refine (append_nil _).symm ▸ ?_
    exact @flushDepartures_reported R { logic with desired := { logic.desired with current } } _

theorem departures_delivered_once (spaceKey : String) (desired : SnapshotReader RenderState)
    (reporter : R) :
    let after : List LogicCall → ControllerSpaceLogic (Tracked R) :=
      List.foldl call (new spaceKey desired ⟨reporter, []⟩)
    (∀ calls : List LogicCall, (calls.flatMap LogicCall.departed).Perm
      ((after calls).reporter.answers.filterMap delivery ++ (after calls).undeliveredDepartures)) ∧
    ∀ calls call,
      (∀ answer ∈ (after (calls ++ [call])).reporter.answers.drop
        (after calls).reporter.answers.length, answer.2 = true) →
      (after (calls ++ [call])).undeliveredDepartures = [] := by
  intro after
  have hstep : ∀ calls call, after (calls ++ [call]) = (after calls).call call :=
    fun calls call => List.foldl_append
  refine ⟨fun calls => ?_, fun calls call hall => ?_⟩
  · induction calls using List.reverseRecOn with
    | nil => exact .refl _
    | append_singleton calls call ih =>
      obtain ⟨answers, heq, hperm, -⟩ := @call_reported R (after calls) _ call
      rw [hstep, heq, List.filterMap_append, List.flatMap_append, List.flatMap_singleton,
        List.append_assoc]
      refine (ih.append_right _).trans ?_
      rw [List.append_assoc]
      exact hperm.symm.append_left _
  · obtain ⟨answers, heq, -, hkept⟩ := @call_reported R (after calls) _ call
    rw [hstep] at hall ⊢
    rw [heq, List.drop_left] at hall
    exact hkept hall

end ControllerSpaceLogic

end MumbleRuntime.Spaces
