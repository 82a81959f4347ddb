import MumbleRuntime.Steps

/-!
# The published routing table

The table a shard publishes is always the compilation of the inputs it last
recorded as declared. A turn that returns early records nothing, so the table is
the one of the turn's own render exactly when the declaration has not moved.
-/

namespace MumbleRuntime
open Library MumbleRuntime.Runtime

namespace Shard

def Compiled (shard : Shard) : Prop :=
  shard.routing =
    Routing.compile shard.declaredAudio shard.sessionOf shard.since shard.declaredSilence

def Declares (shard : Shard) (rendered : Rendered) : Prop :=
  rendered.audio = shard.declaredAudio ∧ rendered.sessionOf = shard.sessionOf ∧
    rendered.silence = shard.declaredSilence

theorem Compiled.recast {shard shard' : Shard} (h : shard.Compiled) (hsame : Recast shard shard') :
    shard'.Compiled :=
  (hsame.get Compiled rfl).symm ▸ h

theorem publish_compiled {shard : Shard} (h : shard.Compiled) (rendered : Rendered) :
    (shard.publish rendered).Compiled ∧ (shard.publish rendered).Declares rendered := by
  unfold publish
  dsimp only
  generalize (if (Plan.plan shard.view rendered.view).isEmpty then shard.version
    else shard.version + 1) = version
  generalize (if (Plan.plan shard.view rendered.view).isEmpty then shard.journal
    else shard.journal.push (Plan.plan shard.view rendered.view)) = journal
  split_ifs with hchg
  · exact ⟨rfl, rfl, rfl, rfl⟩
  · simp only [not_or, not_not] at hchg
    obtain ⟨hsince, haudio, hsessions, hsilence⟩ := hchg
    refine ⟨?_, haudio, hsessions, hsilence⟩
    unfold Compiled
    rw [hsince]
    exact h

theorem reconcile_compiled {shard : Shard} (h : shard.Compiled) (ids : IdAllocator)
    (logic : ShardLogic) : (shard.reconcile ids logic).1.Compiled := by
  unfold reconcile
  dsimp only
  split
  · exact h
  · split_ifs
    · exact h
    · exact (publish_compiled h _).1

end Shard

theorem compiled_of_reaches {allowed : Runtime → Event → Prop} {runtime : Runtime}
    (h : Reaches step allowed start runtime) :
    ∀ id shard, runtime.shards.get? id = some shard → shard.Compiled := by
  refine h.invariant (P := fun runtime => ∀ id shard, runtime.shards.get? id = some shard →
    shard.Compiled) ?_ ?_
  · intro id shard hsh
    cases hsh
  · intro runtime event runtime' hinv _ hstep id shard' hsh'
    rcases (step_stepped hstep).shards id shard' hsh' with
      ⟨-, rfl⟩ | ⟨shard, hsh, hbecomes⟩
    · rfl
    · rcases hbecomes.recast_or_turned with hsame | ⟨logic, -, rfl⟩
      · exact (hinv id shard hsh).recast hsame
      · exact Shard.reconcile_compiled (hinv id shard hsh) _ _

/-- After an accepted turn the published table is the one of the turn's own
render, provided a turn that returns early declares the same audio as before. -/
theorem published_audio_current {runtime : Runtime}
    (hreach : Reaches Runtime.step (fun _ _ => True) Runtime.start runtime) {id : ShardId}
    {shard : Shard} (hshard : runtime.shards.get? id = some shard) (logic : ShardLogic)
    {rendered : Rendered}
    (hok : (shard.rendering runtime.ids logic).finish (shard.observations logic) = .ok rendered)
    (hdeclared : shard.unchanged logic rendered = true → shard.Declares rendered) :
    (shard.reconcile runtime.ids logic).2.2.refused = none ∧
      (shard.reconcile runtime.ids logic).1.routing =
        Routing.compile rendered.audio rendered.sessionOf
          (shard.reconcile runtime.ids logic).1.since rendered.silence := by
  have hcompiled := compiled_of_reaches hreach id shard hshard
  unfold Shard.reconcile
  dsimp only
  rw [hok]
  dsimp only
  split_ifs with hunchanged
  · obtain ⟨haudio, hsessions, hsilence⟩ := hdeclared hunchanged
    refine ⟨rfl, ?_⟩
    rw [haudio, hsessions, hsilence]
    exact hcompiled
  · obtain ⟨hpub, haudio, hsessions, hsilence⟩ := Shard.publish_compiled hcompiled rendered
    refine ⟨rfl, ?_⟩
    rw [haudio, hsessions, hsilence]
    exact hpub

section Withdrawn

def pairLogic (more : List BuildCall) : ShardLogic where
  render :=
    [.root "Lobby", .user ⟨rootChannel, Scope.root⟩ (.connection 1) "ann" .same,
      .user ⟨rootChannel, Scope.root⟩ (.connection 2) "bob" .same] ++ more
  observation _ := denSee

def pairEvents : List Event :=
  [.create, .connect 1, .arrive 1 {}, .connect 1, .arrive 2 {},
    .turn 1 (pairLogic [.audioEdge 1 2])]

def pairRuntime : Runtime := (runActions Runtime.step Runtime.start pairEvents).getD Runtime.start

def pairShard : Shard := (pairRuntime.shards.get? 1).getD (Shard.new 1)

def pairRendered (more : List BuildCall) : Rendered :=
  Rendered.ofBuilder (pairShard.rendering pairRuntime.ids (pairLogic more))

theorem pairRuntime_run : runActions step start pairEvents = some pairRuntime :=
  eq_some_getD (by decide +kernel)

theorem pairRuntime_reached : Reaches step (fun _ _ => True) start pairRuntime :=
  reaches_of_run pairRuntime_run (allAllowed_true _ _)

theorem pairShard_get : pairRuntime.shards.get? 1 = some pairShard := eq_some_getD
    (by decide +kernel)

end Withdrawn

def swappedCalls : List BuildCall :=
  [.audioEdge 2 1, .channelPosition ⟨rootChannel, Scope.root⟩ 1]

theorem published_audio_current_swapped :
    (pairShard.reconcile pairRuntime.ids (pairLogic swappedCalls)).1.routing.receivers 1 = [] ∧
      (pairShard.reconcile pairRuntime.ids (pairLogic swappedCalls)).1.routing =
        Routing.compile (pairRendered swappedCalls).audio (pairRendered swappedCalls).sessionOf
          (pairShard.reconcile pairRuntime.ids (pairLogic swappedCalls)).1.since
          (pairRendered swappedCalls).silence :=
  ⟨by decide +kernel,
    (published_audio_current pairRuntime_reached pairShard_get (pairLogic swappedCalls)
      (ShardBuilder.finish_of_isSome (by decide +kernel))
      (fun h => absurd h (by decide +kernel))).2⟩

/-- The render of the second turn declares no audio at all and is accepted, and
the second connection still hears the first. -/
theorem withdrawn_route_stays :
    Reaches Runtime.step (fun _ _ => True) Runtime.start pairRuntime ∧
      pairRuntime.shards.get? 1 = some pairShard ∧
      (pairShard.rendering pairRuntime.ids (pairLogic [])).finish
        (pairShard.observations (pairLogic [])) = .ok (pairRendered []) ∧
      (pairShard.reconcile pairRuntime.ids (pairLogic [])).2.2.refused = none ∧
      (pairRendered []).audio = AudioRelation.empty ∧
      (pairShard.reconcile pairRuntime.ids (pairLogic [])).1.routing.receivers 1 = [2] ∧
      (pairShard.reconcile pairRuntime.ids (pairLogic [])).1.routing ≠
        Routing.compile (pairRendered []).audio (pairRendered []).sessionOf
          (pairShard.reconcile pairRuntime.ids (pairLogic [])).1.since (pairRendered []).silence := by
  refine ⟨pairRuntime_reached, pairShard_get, ShardBuilder.finish_of_isSome (by decide +kernel), ?_⟩
  decide +kernel

end MumbleRuntime
