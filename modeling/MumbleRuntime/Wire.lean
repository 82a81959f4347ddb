import MumbleRuntime.Reception
import MumbleRuntime.PlanSchedule
import MumbleRuntime.Composed

/-!
# The wire encoding of a replan

A client merges what it is sent, so sending an element whole erases every stale
field but one: an empty list of links changes nothing. The messages of a replan
lead from the client model of one view to that of the other exactly when no
channel that changes its scope loses all its links.
-/

namespace MumbleRuntime
open Library ClientModel AttachedConnection Plan PlanOp ShardView Table List Option Emit

namespace ShardView

def expected (view : ShardView) : ClientModel :=
  ⟨ClientModel.new.channels.extend view.shown.channels, view.shown.users⟩

/-- What a connection holds of an accepted turn under a non-empty observation. -/
def HeldBy (shard : ShardId) (connection : ConnectionId) (view : ShardView) : Prop :=
  ∃ (ids : IdAllocator) (calls : List BuildCall) (observations : Observations)
    (rendered : Rendered) (see : ScopeSet),
    HandlesIssued (fun builder call => (builder.call call).1) (ShardBuilder.new ids shard) [] calls ∧
      ((ShardBuilder.new ids shard).render calls).finish observations = .ok rendered ∧
      observations connection = some see ∧ see.isEmpty = false ∧
      view = rendered.composedFor connection see

def Unlinks (before after : ShardView) : Prop :=
  ∃ id old new, before.channels.get? id = some old ∧ after.channels.get? id = some new ∧
    old.scope ≠ new.scope ∧ old.links.isEmpty = false ∧ new.links.isEmpty = true

theorem HeldBy.root {shard : ShardId} {connection : ConnectionId} {view : ShardView}
    (h : view.HeldBy shard connection) :
    view.channels.contains rootChannel = true := by
  obtain ⟨ids, calls, observations, rendered, see, hiss, hok, hsee, hnonempty, rfl⟩ := h
  obtain ⟨apart, hsnd⟩ := sound_of_render hiss hok hsee
  obtain ⟨root, hroot, -, hsc⟩ := hsnd.root
  have hsees : see.sees root.scope = true := by
    rw [hsc]
    exact ScopeSet.sees_root hnonempty
  exact contains_iff.mpr ⟨root, hsnd.composed_of_view hroot hsees⟩

theorem expected_channel (view : ShardView) (id : ChannelId) :
    view.expected.channels.get? id =
      ((view.channels.get? id).map Channel.shown).or (new.channels.get? id) := by
  rw [← shown_channel]
  exact get?_extend ..

theorem new_channel {id : ChannelId} (h : id ≠ rootChannel) : new.channels.get? id = none := by
  simp [new, rootDefault, h]

theorem expected_of_root {view : ShardView} (h : view.channels.contains rootChannel = true) :
    view.expected = view.shown := by
  refine eq_iff.mpr ⟨fun id => ?_, fun session => rfl⟩
  rw [expected_channel, ← shown_channel]
  by_cases hid : id = rootChannel
  · subst hid
    obtain ⟨root, hroot⟩ := contains_iff.mp h
    rw [shown_channel, hroot]
    rfl
  · rw [new_channel hid, or_none]

theorem holds_expected (view : ShardView) : view.expected.Holds view.shown where
  users _ := rfl
  channels id := by
    rw [expected_channel, ← shown_channel]
    by_cases hid : id = rootChannel
    · cases hshn : view.shown.channels.get? id with
      | none => exact .inr ⟨hid, rfl⟩
      | some channel => exact .inl rfl
    · rw [new_channel hid, or_none]
      exact .inl rfl

theorem expected_root (view : ShardView) :
    ∃ root, view.expected.channels.get? rootChannel = some root ∧ root.parent = none := by
  rw [expected_channel]
  cases hroot : view.channels.get? rootChannel with
  | none => exact ⟨rootDefault, rfl, rfl⟩
  | some root =>
    refine ⟨root.shown, rfl, ?_⟩
    have hid : root.id = rootChannel := key_of_get? hroot
    simp [Channel.shown, hid]

end ShardView

variable {before after : ShardView}

theorem mem_replanOps_create {channel : Channel} :
    .createChannel channel ∈ replanOps before after ↔
      after.channels.get? channel.id = some channel ∧
        arrives before after channel.id = true := by
  rw [← transition_all, transition_eq, mem_append]
  constructor
  · rintro (hplacing | hrest)
    · rcases mem_append.mp hplacing with hcreation | hupdate
      · obtain ⟨scope, hmem, -⟩ := mem_kept_iff.mp hcreation
        obtain ⟨other, heq, -, hget, harrives⟩ := mem_creations.mp hmem
        cases heq
        exact ⟨hget, harrives⟩
      · obtain ⟨scope, hmem, -⟩ := mem_kept_iff.mp hupdate
        obtain ⟨old, new, heq, -⟩ := of_mem_updated hmem
        cases heq
    · rcases mem_append.mp hrest with hseating | hdrop
      · exact absurd rfl ((settles_seating hseating).2 channel.id)
      · obtain ⟨-, id, heq, -⟩ := settles_drop hdrop
        cases heq
  · rintro ⟨hget, harrives⟩
    refine .inl (mem_append_left _ (mem_kept_iff.mpr ⟨channel.scope, ?_, rfl⟩))
    exact mem_creations.mpr ⟨channel, rfl, rfl, hget, harrives⟩

theorem unlinks_expected_iff :
    before.expected.Unlinks (replanOps before after) ↔ before.Unlinks after := by
  constructor
  · rintro ⟨channel, hmem, hemp, held, hheld, hlinked⟩
    obtain ⟨hget, harrives⟩ := mem_replanOps_create.mp hmem
    rw [expected_channel] at hheld
    cases hold : before.channels.get? channel.id with
    | none =>
      rw [hold, map_none, none_or] at hheld
      by_cases hid : channel.id = rootChannel
      · rw [hid] at hheld
        obtain rfl : rootDefault = held := some.inj hheld
        cases hlinked
      · rw [new_channel hid] at hheld
        cases hheld
    | some old =>
      rw [hold, map_some, some_or] at hheld
      obtain rfl := some.inj hheld
      refine ⟨channel.id, old, channel, hold, hget, ?_, hlinked, hemp⟩
      simpa [arrives, hget, hold] using harrives
  · rintro ⟨id, old, new, hold, hnew, hsc, hlinked, hemp⟩
    obtain rfl : new.id = id := key_of_get? hnew
    refine ⟨new, mem_replanOps_create.mpr ⟨hnew, ?_⟩, hemp, old.shown, ?_, hlinked⟩
    · simp [arrives, hnew, hold, hsc]
    · rw [expected_channel, hold]
      rfl

theorem foldl_tellChannel_singleton {ops : List PlanOp} {id : ChannelId}
    {write : Write ClientChannel} (h : ops.filterMap (channelWrite id) = [write])
    (cell : Option ClientChannel) :
    ∃ op : PlanOp, op.channelWrite id = some write ∧
      ops.foldl (fun cell op => op.tellChannel id cell) cell = op.tellChannel id cell := by
  have hnone : ∀ (more : List PlanOp) (cell : Option ClientChannel),
      more.filterMap (channelWrite id) = [] →
      more.foldl (fun cell op => op.tellChannel id cell) cell = cell := by
    intro more
    induction more with
    | nil => intro cell _; rfl
    | cons op rest ih =>
      intro cell hmore
      have hop : op.channelWrite id = none :=
        filterMap_eq_nil_iff.mp hmore op mem_cons_self
      rw [filterMap_cons_none hop] at hmore
      rw [foldl_cons, tellChannel_of_none hop, ih cell hmore]
  induction ops generalizing cell with
  | nil => cases h
  | cons op rest ih =>
    cases hop : op.channelWrite id with
    | none =>
      rw [filterMap_cons_none hop] at h
      rw [foldl_cons, tellChannel_of_none hop]
      exact ih h cell
    | some first =>
      rw [filterMap_cons_some hop] at h
      obtain ⟨rfl, hrest⟩ := cons.inj h
      exact ⟨op, hop, hnone rest _ hrest⟩

theorem links_kept {self : SessionId} (h : before.expected.Unlinks (replanOps before after)) :
    ∃ id held shown,
      (before.expected.applyAll (emit (replanOps before after) self)).channels.get?
        id = some held ∧ held.links.isEmpty = false ∧
      after.shown.channels.get? id = some shown ∧ shown.links.isEmpty = true := by
  obtain ⟨channel, hmem, hemp, old, hold, hlinked⟩ := h
  obtain ⟨hget, -⟩ := mem_replanOps_create.mp hmem
  have hset : .set channel.shown ∈ (replanOps before after).filterMap (channelWrite channel.id) :=
    mem_filterMap.mpr ⟨.createChannel channel, hmem, by simp [channelWrite]⟩
  have hone : (replanOps before after).filterMap
      (channelWrite channel.id) = [.set channel.shown] := by
    rcases (channelCell channel.id).replan_simple before after with hdrops | ⟨value, hval⟩ |
      ⟨-, hpatches⟩
    · cases hdrops _ hset
    · have hsingle : (replanOps before after).filterMap
          (channelWrite channel.id) = [.set value] := hval
      rw [hsingle, mem_singleton] at hset
      rw [hsingle, hset]
    · cases (hpatches _ hset).1
  obtain ⟨op, hwr, htold⟩ := foldl_tellChannel_singleton hone (some old)
  have hst : (before.expected.applyAll
      (emit (replanOps before after) self)).channels.get? channel.id =
      op.tellChannel channel.id (some old) := by
    rw [applyAll_emit_channels, applyAll_emitOp_channels, hold, htold]
  have hcreate : ∃ other : Channel, op = .createChannel other ∧ other.id = channel.id ∧
      other.links = channel.links := by
    cases op with
    | createChannel other =>
      simp only [channelWrite] at hwr
      split_ifs at hwr with heq
      have hshn : other.shown = channel.shown := by simpa using hwr
      exact ⟨other, rfl, heq, congrArg ClientChannel.links hshn⟩
    | updateChannel patch
    | removeChannel other =>
      simp only [channelWrite] at hwr
      split_ifs at hwr
      cases hwr
    | _ => cases hwr
  obtain ⟨other, rfl, hid, hlinks⟩ := hcreate
  refine ⟨channel.id, mergeChannel (createdChannel other) old, channel.shown, ?_, ?_, ?_, hemp⟩
  · rw [hst]
    simp only [tellChannel, hid, if_true]
    rfl
  · have hnone : (createdChannel other).links.isEmpty = true := by
      change other.links.isEmpty = true
      rw [hlinks, hemp]
    have hkept : (mergeChannel (createdChannel other) old).links = old.links := by
      simp only [mergeChannel, hnone, if_true]
      apply OrderedSet.ext_contains
      simp [createdChannel]
    rw [hkept]
    exact hlinked
  · rw [shown_channel, hget]
    rfl

/-- The messages of a replan lead from the client of one view to the client of the
other exactly when no channel that changes its scope loses all its links. -/
theorem wire_converges_iff {shard : ShardId} {connection : ConnectionId} {before after : ShardView}
    (hbefore : before = ShardView.empty ∨ before.HeldBy shard connection)
    (hafter : after.HeldBy shard connection) (self : SessionId) :
    before.expected.applyAll (Emit.emit (AttachedConnection.replanOps before after) self) =
      after.expected ↔ ¬before.Unlinks after := by
  rw [← unlinks_expected_iff, expected_of_root hafter.root]
  constructor
  · intro hsame hunlinks
    obtain ⟨id, held, shown, hheld, hlinked, hshn, hemp⟩ := links_kept hunlinks
    rw [hsame, hshn] at hheld
    obtain rfl := Option.some.inj hheld
    rw [hemp] at hlinked
    cases hlinked
  · intro hlinks
    have hhd := before.holds_expected.emit before.expected_root self
      (fun id => (channelCell id).replan_simple before after) hlinks
    rw [replan_converges] at hhd
    refine eq_iff.mpr ⟨fun id => ?_, hhd.users⟩
    rcases hhd.channels id with hsame | ⟨hid, hnone⟩
    · exact hsame
    · obtain ⟨root, hroot⟩ := contains_iff.mp hafter.root
      rw [hid, shown_channel, hroot] at hnone
      cases hnone

section Doors

def doorBuilder : ShardBuilder :=
  (ShardBuilder.new IdAllocator.new 0).render
    [.root "Lobby", .channel ⟨rootChannel, Scope.root⟩ 7 "Den" .same,
      .channel ⟨rootChannel, Scope.root⟩ 8 "Nook" .same,
      .channelLink ⟨1, Scope.root⟩ ⟨2, Scope.root⟩]

def closedBuilder : ShardBuilder :=
  (ShardBuilder.new doorBuilder.ids 0).render
    [.root "Lobby", .channel ⟨rootChannel, Scope.root⟩ 7 "Den" .same,
      .channel ⟨rootChannel, Scope.root⟩ 8 "Nook" .same]

def narrowedBuilder : ShardBuilder :=
  (ShardBuilder.new doorBuilder.ids 0).render
    [.root "Lobby", .channel ⟨rootChannel, Scope.root⟩ 7 "Den" (.into 5),
      .channel ⟨rootChannel, Scope.root⟩ 8 "Nook" .same]

def observesFifth : ScopeSet := ⟨Table.ofList [⟨[5], by decide⟩], by decide⟩

def doorView (builder : ShardBuilder) : ShardView :=
  (Rendered.ofBuilder builder).composedFor 1 observesFifth

theorem door_held {ids : IdAllocator} {calls : List BuildCall}
    (hiss : HandlesIssued (fun builder call => (builder.call call).1)
      (ShardBuilder.new ids 0) [] calls)
    (hok : (((ShardBuilder.new ids 0).render calls).finish
      fun _ => some observesFifth).toOption.isSome = true) :
    (doorView ((ShardBuilder.new ids 0).render calls)).HeldBy 0 1 :=
  ⟨ids, calls, fun _ => some observesFifth, _, observesFifth, hiss,
    ShardBuilder.finish_of_isSome hok, rfl, by decide, rfl⟩

theorem wire_converges_iff_closed :
    (doorView doorBuilder).HeldBy 0 1 ∧ (doorView closedBuilder).HeldBy 0 1 ∧
      (doorView doorBuilder).expected.applyAll
        (Emit.emit (AttachedConnection.replanOps (doorView doorBuilder) (doorView closedBuilder))
          1) = (doorView closedBuilder).expected := by
  have hbef : (doorView doorBuilder).HeldBy 0 1 :=
    door_held (by decide +kernel) (by decide +kernel)
  have haft : (doorView closedBuilder).HeldBy 0 1 :=
    door_held (by decide +kernel) (by decide +kernel)
  refine ⟨hbef, haft, (wire_converges_iff (.inr hbef) haft 1).mpr ?_⟩
  rintro ⟨id, old, new, hold, hnew, hsc, -⟩
  have hbroad : ∀ channel ∈ (doorView doorBuilder).channels.rows ++
      (doorView closedBuilder).channels.rows, channel.scope = Scope.root := by decide +kernel
  apply hsc
  rw [hbroad old (List.mem_append_left _ (mem_of_get? hold)),
    hbroad new (List.mem_append_right _ (mem_of_get? hnew))]

/-- Narrowing the channel and closing its door in one turn leaves the client with
the door. -/
theorem narrowed_channel_keeps_door :
    (doorView doorBuilder).HeldBy 0 1 ∧ (doorView narrowedBuilder).HeldBy 0 1 ∧
      (doorView doorBuilder).expected.applyAll
        (Emit.emit (AttachedConnection.replanOps (doorView doorBuilder) (doorView narrowedBuilder))
          1) ≠ (doorView narrowedBuilder).expected :=
  ⟨door_held (by decide +kernel) (by decide +kernel),
    door_held (by decide +kernel) (by decide +kernel), by decide +kernel⟩

end Doors

end MumbleRuntime
