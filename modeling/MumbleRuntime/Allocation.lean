import MumbleRuntime.Closure

/-!
# Which numbers a render uses

Rendering only ever adds to the allocator, and every channel it places, shared
or private, is the root or one the allocator has for this shard.
-/

namespace MumbleRuntime
open Library ShardBuilder PrivateBuilder Table IdAllocator

namespace IdAllocator

/-- Seen from one shard, the allocator keeps or drops what it handed out, and
hands out only numbers that were not handed out before. -/
def Grows (shard : ShardId) (ids ids' : IdAllocator) : Prop :=
  ceiling ids.nextChannel ≤ ceiling ids'.nextChannel ∧
    ∀ key id, ids'.channels shard key = some id →
      ids.channels shard key = some id ∨ ceiling ids.nextChannel ≤ id

theorem Grows.refl (shard : ShardId) (ids : IdAllocator) : Grows shard ids ids :=
  ⟨le_refl _, fun _ _ h => Or.inl h⟩

variable {shard : ShardId}

theorem Grows.trans {a b c : IdAllocator} (hab : Grows shard a b) (hbc : Grows shard b c) :
    Grows shard a c := by
  refine ⟨hab.1.trans hbc.1, fun key id h => ?_⟩
  rcases hbc.2 key id h with hb | hb
  · exact hab.2 key id hb
  · exact Or.inr (hab.1.trans hb)

variable {ids ids' : IdAllocator} {key : ChannelKey} {id : ChannelId}

theorem channel_grows (h : ids.channel shard key = .ok (id, ids')) (k : ShardId) :
    Grows k ids ids' := by
  unfold channel at h
  split at h
  · cases h
    exact .refl k ids
  · split at h
    · cases h
    · rename_i raw hnext
      cases h
      have hceiling : ceiling ids.nextChannel = id := by rw [hnext]; rfl
      have hlt := lt_ceiling_checkedSucc (ids.next_lt id (Or.inl hnext)).2
      refine ⟨hceiling.le.trans hlt.le, ?_⟩
      intro key' id' hid'
      simp only [allocateChannel] at hid'
      split_ifs at hid'
      · obtain rfl := Option.some.inj hid'
        exact Or.inr hceiling.le
      · exact Or.inl hid'

theorem session_grows {occupant : Occupant} {session : SessionId}
    (h : ids.session occupant = .ok (session, ids')) (k : ShardId) : Grows k ids ids' := by
  unfold IdAllocator.session at h
  split at h
  · cases h
    exact .refl k ids
  · split at h
    · cases h
    · cases h
      exact ⟨le_refl _, fun _ _ hid => Or.inl hid⟩

theorem retain_grows (ids : IdAllocator) (keep : ShardId → ChannelKey → ChannelId → Bool)
    (k : ShardId) : Grows k ids (ids.retain keep) :=
  ⟨le_refl _, fun _ _ h => Or.inl (Option.eq_some_of_filter_eq_some h)⟩

def Knows (ids : IdAllocator) (shard : ShardId) (id : ChannelId) : Prop :=
  id = rootChannel ∨ ∃ key, ids.channels shard key = some id

structure Extends (ids ids' : IdAllocator) : Prop where
  grows : ∀ shard, Grows shard ids ids'
  keeps : ∀ shard key id, ids.channels shard key = some id → ids'.channels shard key = some id

theorem Extends.refl (ids : IdAllocator) : Extends ids ids :=
  ⟨fun shard => .refl shard ids, fun _ _ _ h => h⟩

theorem Extends.trans {a b c : IdAllocator} (hab : Extends a b) (hbc : Extends b c) : Extends a c :=
  ⟨fun shard => (hab.grows shard).trans (hbc.grows shard),
    fun s k i h => hbc.keeps s k i (hab.keeps s k i h)⟩

theorem Extends.knows (h : Extends ids ids') (hknows : ids.Knows shard id) :
    ids'.Knows shard id := by
  rcases hknows with hroot | ⟨key, hkey⟩
  · exact Or.inl hroot
  · exact Or.inr ⟨key, h.keeps shard key id hkey⟩

theorem channel_extends (h : ids.channel shard key = .ok (id, ids')) : Extends ids ids' :=
  ⟨fun k => channel_grows h k, (channel_ok h).2.1⟩

theorem session_extends {occupant : Occupant} {session : SessionId}
    (h : ids.session occupant = .ok (session, ids')) : Extends ids ids' :=
  ⟨fun k => session_grows h k, fun _ _ _ hid => (session_ok h).2.2 ▸ hid⟩

theorem channel_knows (h : ids.channel shard key = .ok (id, ids')) : ids'.Knows shard id :=
  Or.inr ⟨key, (channel_ok h).1⟩

end IdAllocator

def Channels.Known (channels : Channels) (ids : IdAllocator) (shard : ShardId) : Prop :=
  ∀ id, channels.contains id = true → ids.Knows shard id

variable {f : Channel → Channel}

namespace Channels.Known

variable {channels : Channels} {ids ids' : IdAllocator} {shard : ShardId}

theorem mono (h : Known channels ids shard) (hids : ids.Extends ids') : Known channels ids' shard :=
  fun id hid => hids.knows (h id hid)

theorem insert (h : Known channels ids shard) {channel : Channel}
    (hknows : ids.Knows shard channel.id) : Known (channels.insert channel) ids shard := by
  intro id hid
  obtain ⟨found, hfnd⟩ := contains_iff.mp hid
  rw [get?_insert] at hfnd
  split_ifs at hfnd with heq
  · exact heq ▸ hknows
  · exact h id (contains_iff.mpr ⟨found, hfnd⟩)

theorem modify (h : Known channels ids shard) (target : ChannelId)
    (hf : ∀ channel, (f channel).id = channel.id) : Known (channels.modify target f) ids shard := by
  intro id hid
  obtain ⟨found, hfnd⟩ := contains_iff.mp hid
  rw [get?_modify _ _ _ _ hf] at hfnd
  refine h id (contains_iff.mpr ?_)
  split_ifs at hfnd
  · obtain ⟨old, hold, -⟩ := Option.map_eq_some_iff.mp hfnd
    exact ⟨old, hold⟩
  · exact ⟨found, hfnd⟩

end Channels.Known

namespace PrivateBuilder

/-- A private builder started from `ids`. -/
structure Keyed (ids : IdAllocator) (builder : PrivateBuilder) : Prop where
  ids : ids.Extends builder.ids
  overlay : builder.overlay.channels.Known builder.ids builder.shard

theorem call_keyed {ids : IdAllocator} {builder : PrivateBuilder} (h : Keyed ids builder)
    (call : PrivateCall) : Keyed ids (builder.call call).2 := by
  cases call with
  | userIn place who name =>
    simp only [call, userIn]
    cases hses : builder.ids.session who with
    | error exhausted => exact ⟨h.ids, h.overlay⟩
    | ok result =>
      have hextends := session_extends hses
      exact ⟨h.ids.trans hextends, h.overlay.mono hextends⟩
  | channel parent key name =>
    simp only [call, channel]
    cases hid : builder.ids.channel builder.shard key with
    | error exhausted => exact ⟨h.ids, h.overlay⟩
    | ok result =>
      have hextends := channel_extends hid
      exact ⟨h.ids.trans hextends, (h.overlay.mono hextends).insert (channel_knows hid)⟩
  | userFlags user flags => exact ⟨h.ids, h.overlay⟩
  | action key text on =>
    simp only [call, action]
    split_ifs
    · exact ⟨h.ids, h.overlay⟩
    · exact ⟨h.ids, h.overlay⟩

theorem run_keyed {ids : IdAllocator} {builder : PrivateBuilder} (h : Keyed ids builder)
    (calls : List PrivateCall) : Keyed ids (builder.run calls).2 := by
  induction calls generalizing builder with
  | nil => exact h
  | cons call rest ih => exact ih (call_keyed h call)

end PrivateBuilder

namespace ShardBuilder

/-- A builder of `shard` started from `ids`. -/
structure Keyed (ids : IdAllocator) (shard : ShardId) (builder : ShardBuilder) : Prop where
  owner : builder.shard = shard
  ids : ids.Extends builder.ids
  channels : builder.view.channels.Known builder.ids shard
  overlays : ∀ connection, (builder.overlayOf connection).channels.Known builder.ids shard

variable {ids : IdAllocator} {shard : ShardId} {builder : ShardBuilder}

theorem new_keyed (ids : IdAllocator) (shard : ShardId) : Keyed ids shard (new ids shard) where
  owner := rfl
  ids := .refl ids
  channels := by
    intro id h
    cases h
  overlays := by
    intro connection id h
    cases h

section

variable (h : Keyed ids shard builder)

include h

theorem Keyed.mono {ids' : IdAllocator} (hids : builder.ids.Extends ids') : Keyed ids shard
    { builder with ids := ids' } :=
  ⟨h.owner, h.ids.trans hids, h.channels.mono hids, fun connection => (h.overlays connection).mono hids⟩

theorem Keyed.modifyChannel (id : ChannelId) (hf : ∀ channel, (f channel).id = channel.id) :
    Keyed ids shard (builder.modifyChannel id f) :=
  ⟨h.owner, h.ids, h.channels.modify id hf, h.overlays⟩

theorem Keyed.fail (error : BuildError) : Keyed ids shard (builder.fail error) :=
  ⟨h.owner, h.ids, h.channels, h.overlays⟩

theorem privately_keyed (connection : ConnectionId) (build : List PrivateCall) :
    Keyed ids shard (builder.privately connection build).2 := by
  have hopen : PrivateBuilder.Keyed builder.ids (builder.openPrivate connection) := by
    refine ⟨.refl _, ?_⟩
    rw [show (builder.openPrivate connection).shard = shard from h.owner]
    exact h.overlays connection
  have hrun := run_keyed hopen build
  obtain ⟨hgrows, -⟩ := (builder.openPrivate connection).run_grows build
  have hsh : ((builder.openPrivate connection).run build).2.shard = shard :=
    hgrows.shard.trans h.owner
  refine ⟨h.owner, h.ids.trans hrun.ids, h.channels.mono hrun.ids, fun owner => ?_⟩
  simp only [privately]
  rw [overlayOf_closePrivate]
  split_ifs
  · rw [← hsh]
    exact hrun.overlay
  · exact (h.overlays owner).mono hrun.ids

theorem call_keyed (call : BuildCall) : Keyed ids shard (builder.call call).2 := by
  cases call with
  | root name =>
    simp only [call, root]
    split_ifs
    · exact h.fail _
    · exact ⟨h.owner, h.ids, h.channels.insert (Or.inl rfl), h.overlays⟩
  | channel parent key name narrow =>
    simp only [call, channel]
    split
    · exact h.fail _
    · split_ifs
      · exact h.fail _
      · split
        · exact ⟨h.owner, h.ids, h.channels, h.overlays⟩
        · rename_i id ids' hid
          have hextends := channel_extends hid
          have hknows : ids'.Knows shard id := h.owner ▸ channel_knows hid
          exact ⟨h.owner, h.ids.trans hextends, (h.channels.mono hextends).insert hknows,
            fun connection => (h.overlays connection).mono hextends⟩
  | user place who name narrow =>
    have hses : ∀ b : ShardBuilder, Keyed ids shard b → Keyed ids shard (b.sessionOrZero who).2 := by
      intro b hb
      unfold sessionOrZero
      split
      · rename_i session ids' hok
        exact hb.mono (session_extends hok)
      · exact hb.fail _
    have hnarrowed : Keyed ids shard (builder.narrowedUser place name narrow).2 := by
      unfold narrowedUser
      split
      · exact h
      · exact h.fail _
    have hplc := hses _ hnarrowed
    simp only [call, user]
    split_ifs
    · exact hplc.fail _
    · exact ⟨hplc.owner, hplc.ids, hplc.channels, hplc.overlays⟩
  | channelPosition place position
  | channelCanEnter place yes
  | channelCanText place yes => exact h.modifyChannel _ fun _ => rfl
  | channelLink a b =>
    simp only [call, channelLink]
    split_ifs
    · refine Keyed.modifyChannel (Keyed.modifyChannel h a.id ?_) b.id ?_ <;> exact fun _ => rfl
    · exact h.fail _
  | privately connection build => exact privately_keyed h connection build
  | _ => exact ⟨h.owner, h.ids, h.channels, h.overlays⟩

theorem render_keyed (calls : List BuildCall) : Keyed ids shard (builder.render calls) := by
  induction calls generalizing builder with
  | nil => exact h
  | cons call rest ih => exact ih (call_keyed h call)

end

end ShardBuilder

def ShardView.Planted (view : ShardView) : Prop :=
  ∃ root, view.channels.get? rootChannel = some root ∧ root.scope = Scope.root

namespace ShardBuilder

def Planted (builder : ShardBuilder) : Prop := builder.rooted = true → builder.view.Planted

variable {builder builder' : ShardBuilder}

theorem Planted.same (h : builder.Planted) (hchs : builder'.view.channels = builder.view.channels)
    (hrtd : builder'.rooted = builder.rooted) : builder'.Planted := by
  intro hroot
  obtain ⟨root, hget, hsc⟩ := h (hrtd.symm.trans hroot)
  exact ⟨root, hchs ▸ hget, hsc⟩

theorem Planted.modifyChannel (h : builder.Planted) (id : ChannelId)
    (hf : ∀ channel, (f channel).id = channel.id)
    (hsc : ∀ channel, (f channel).scope = channel.scope) :
    (builder.modifyChannel id f).Planted := by
  intro hroot
  obtain ⟨root, hget, hroot⟩ := h hroot
  have hmodify := get?_modify builder.view.channels id rootChannel f hf
  rw [hget] at hmodify
  split_ifs at hmodify
  · exact ⟨f root, hmodify, (hsc root).trans hroot⟩
  · exact ⟨root, hmodify, hroot⟩

theorem call_planted (h : builder.Planted) (call : BuildCall) : (builder.call call).2.Planted := by
  cases call with
  | root name =>
    simp only [call, root]
    split_ifs
    · exact h.same rfl rfl
    · exact fun _ => ⟨_, get?_insert_self _ _, rfl⟩
  | channel parent key name narrow =>
    simp only [call, channel]
    split
    · exact h.same rfl rfl
    · split_ifs
      · exact h.same rfl rfl
      · split
        · exact h.same rfl rfl
        · rename_i id ids' hid
          intro hroot
          obtain ⟨root, hget, hsc⟩ := h hroot
          have hpos := (ids'.channels_lt _ _ _ (IdAllocator.channel_ok hid).1).1
          refine ⟨root, ?_, hsc⟩
          rw [get?_insert]
          exact (if_neg (Nat.ne_of_lt hpos)).trans hget
  | user place who name narrow =>
    obtain ⟨-, hchs, hrtd⟩ := builder.user_rest place who name narrow
    exact h.same hchs hrtd
  | channelPosition place position
  | channelCanEnter place yes
  | channelCanText place yes => exact h.modifyChannel _ (fun _ => rfl) fun _ => rfl
  | channelLink a b =>
    simp only [call, channelLink]
    split_ifs
    · refine Planted.modifyChannel (Planted.modifyChannel h a.id ?_ ?_) b.id ?_ ?_ <;>
        exact fun _ => rfl
    · exact h.same rfl rfl
  | _ => exact h.same rfl rfl

theorem render_planted (h : builder.Planted) (calls : List BuildCall) :
    (builder.render calls).Planted := by
  induction calls generalizing builder with
  | nil => exact h
  | cons call rest ih => exact ih (call_planted h call)

end ShardBuilder

def Users.Numbered (users : Users) (ids : IdAllocator) : Prop :=
  ∀ user ∈ users.rows, ids.sessions user.occupant = some user.session

namespace Users.Numbered

variable {users : Users} {ids ids' : IdAllocator}

theorem mono (h : Numbered users ids)
    (hids : ∀ occupant id, ids.sessions occupant = some id → ids'.sessions occupant = some id) :
    Numbered users ids' :=
  fun user huser => hids user.occupant user.session (h user huser)

theorem insert (h : Numbered users ids) {user : User}
    (hses : ids.sessions user.occupant = some user.session) :
    Numbered (users.insert user) ids := by
  intro found hfnd
  rcases mem_insert_cases hfnd with rfl | ⟨hold, -⟩
  · exact hses
  · exact h found hold

theorem withFlags (h : Numbered users ids) (session : SessionId) (flags : UserFlags) :
    Numbered (users.modify session fun entry => { entry with flags }) ids := by
  intro found hfnd
  have hkey : ∀ entry : User, ({ entry with flags } : User).session = entry.session := fun _ => rfl
  rw [mem_rows_iff, get?_modify _ _ _ _ hkey] at hfnd
  split_ifs at hfnd
  · obtain ⟨old, hold, rfl⟩ := Option.map_eq_some_iff.mp hfnd
    exact h old (mem_of_get? hold)
  · exact h found (mem_of_get? hfnd)

end Users.Numbered

theorem PrivateBuilder.call_numbered {builder : PrivateBuilder}
    (h : builder.overlay.users.Numbered builder.ids) (call : PrivateCall)
    (herr : (builder.call call).2.error = none) :
    (builder.call call).2.overlay.users.Numbered (builder.call call).2.ids ∧
      ∀ occupant id, builder.ids.sessions occupant = some id →
        (builder.call call).2.ids.sessions occupant = some id := by
  cases call with
  | userIn place who name =>
    simp only [call, userIn] at herr ⊢
    cases hses : builder.ids.session who with
    | error exhausted => simp [hses, placeUser, fail] at herr
    | ok result =>
      obtain ⟨hnew, hold, -⟩ := session_ok hses
      exact ⟨(h.mono hold).insert hnew, hold⟩
  | channel parent key name =>
    simp only [call, channel] at herr ⊢
    cases hid : builder.ids.channel builder.shard key with
    | error exhausted => exact ⟨h, fun _ _ hid => hid⟩
    | ok result =>
      have hsame := (channel_ok hid).2.2
      refine ⟨h.mono ?_, ?_⟩ <;>
      · intro occupant id hses
        rw [hsame]
        exact hses
  | userFlags user flags => exact ⟨h.withFlags user.session flags, fun _ _ hid => hid⟩
  | action key text on =>
    simp only [call, action]
    split_ifs <;> exact ⟨h, fun _ _ hid => hid⟩

theorem PrivateBuilder.run_numbered {builder : PrivateBuilder}
    (h : builder.overlay.users.Numbered builder.ids) (calls : List PrivateCall)
    (herr : (builder.run calls).2.error = none) :
    (builder.run calls).2.overlay.users.Numbered (builder.run calls).2.ids ∧
      ∀ occupant id, builder.ids.sessions occupant = some id →
        (builder.run calls).2.ids.sessions occupant = some id := by
  induction calls generalizing builder with
  | nil => exact ⟨h, fun _ _ hid => hid⟩
  | cons call rest ih =>
    have hcall := call_numbered h call (((builder.call call).2.run_grows rest).1.error herr)
    obtain ⟨hrest, hkeeps⟩ := ih hcall.1 herr
    exact ⟨hrest, fun occupant id hid => hkeeps occupant id (hcall.2 occupant id hid)⟩

namespace ShardBuilder

variable {builder : ShardBuilder}

structure Numbered (builder : ShardBuilder) : Prop where
  view : builder.view.users.Numbered builder.ids
  overlays : ∀ connection, (builder.overlayOf connection).users.Numbered builder.ids

section

variable (h : builder.Numbered)

include h

theorem Numbered.same {builder' : ShardBuilder} (husr : builder'.view.users = builder.view.users)
    (hoverlays : builder'.overlays = builder.overlays)
    (hids : builder'.ids.sessions = builder.ids.sessions) : builder'.Numbered := by
  have hkeeps : ∀ occupant id, builder.ids.sessions occupant = some id →
      builder'.ids.sessions occupant = some id := by
    intro occupant id hid
    rw [hids]
    exact hid
  refine ⟨?_, fun connection => ?_⟩
  · rw [husr]
    exact h.view.mono hkeeps
  · rw [overlayOf, hoverlays]
    exact (h.overlays connection).mono hkeeps

theorem user_numbered (place : ChannelRef) (who : Occupant) (name : String)
    (narrow : Narrow) (herr : (builder.user place who name narrow).2.error = none) :
    (builder.user place who name narrow).2.Numbered := by
  obtain ⟨scope, session, ids, -, hses, hres⟩ := user_ok herr
  obtain ⟨hnew, hold, -⟩ := session_ok hses
  rw [hres]
  exact ⟨(h.view.mono hold).insert hnew, fun connection => (h.overlays connection).mono hold⟩

theorem privately_numbered (connection : ConnectionId)
    (build : List PrivateCall) (herr : (builder.privately connection build).2.error = none) :
    (builder.privately connection build).2.Numbered := by
  obtain ⟨hov, hkeeps⟩ := run_numbered
    (show (builder.openPrivate connection).overlay.users.Numbered builder.ids from
      h.overlays connection) build herr
  refine ⟨h.view.mono hkeeps, fun owner => ?_⟩
  simp only [privately]
  rw [overlayOf_closePrivate]
  split_ifs
  · exact hov
  · exact (h.overlays owner).mono hkeeps

theorem call_numbered (call : BuildCall)
    (herr : (builder.call call).2.error = none) : (builder.call call).2.Numbered := by
  cases call with
  | root name =>
    simp only [call, root]
    split_ifs <;> exact h.same rfl rfl rfl
  | channel parent key name narrow =>
    obtain ⟨scope, id, ids, -, -, hid, hres⟩ := channel_ok herr
    simp only [call, hres]
    exact h.same rfl rfl (IdAllocator.channel_ok hid).2.2
  | user place who name narrow => exact user_numbered h place who name narrow herr
  | channelLink a b =>
    simp only [call, channelLink]
    split_ifs <;> exact h.same rfl rfl rfl
  | userFlags user flags => exact ⟨h.view.withFlags user.session flags, h.overlays⟩
  | privately connection build => exact privately_numbered h connection build herr
  | _ => exact h.same rfl rfl rfl

theorem render_numbered (calls : List BuildCall)
    (herr : (builder.render calls).error = none) : (builder.render calls).Numbered := by
  induction calls generalizing builder with
  | nil => exact h
  | cons call rest ih =>
    exact ih (call_numbered h call (render_error herr)) herr

end

theorem new_numbered (ids : IdAllocator) (shard : ShardId) : (new ids shard).Numbered := by
  refine ⟨?_, fun connection => ?_⟩ <;>
  · intro user huser
    cases huser

end ShardBuilder

end MumbleRuntime
