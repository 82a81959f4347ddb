import MumbleRuntime.Build
import MumbleRuntime.Library.Walk

/-!
# What a render hangs from what

Every channel and user of a shared view hangs from a handle the builder issued
before, and its scope extends the handle's. A handle of a shared channel stands
for a channel of the view, with its scope, for as long as nothing was refused;
a handle of a private channel stands for a channel of some overlay. Following
parents in the shared view therefore ends at the root or at a private channel.
-/

namespace MumbleRuntime
open Library ShardBuilder Table Channel Option

namespace ShardView

def parentOf (view : ShardView) (id : ChannelId) : Option ChannelId :=
  (view.channels.get? id).map Channel.parent

end ShardView

def BuildCall.placing : BuildCall → List ChannelRef
  | .channel parent _ _ _ => [parent]
  | .user place _ _ _ => [place]
  | .channelLink a b => [a, b]
  | _ => []

def HandlesIssued (issue : ShardBuilder → BuildCall → List ChannelRef) :
    ShardBuilder → List ChannelRef → List BuildCall → Prop
  | _, _, [] => True
  | builder, issued, call :: rest =>
    (∀ handle ∈ call.placing, handle ∈ issued) ∧
      HandlesIssued issue (builder.call call).2 (issued ++ issue builder call) rest

instance HandlesIssued.decide (issue : ShardBuilder → BuildCall → List ChannelRef) :
    ∀ builder issued calls, Decidable (HandlesIssued issue builder issued calls)
  | _, _, [] => isTrue trivial
  | builder, issued, call :: rest =>
    have := HandlesIssued.decide issue (builder.call call).2 (issued ++ issue builder call) rest
    inferInstanceAs (Decidable (_ ∧ _))

namespace ShardBuilder

/-- The handles `root` and `channel` return. -/
def sharedHandles (builder : ShardBuilder) : BuildCall → List ChannelRef
  | .privately _ _ => []
  | call => (builder.call call).1

def overlayOf (builder : ShardBuilder) (connection : ConnectionId) : Overlay :=
  (builder.overlays.find? connection).getD Overlay.empty

def isPrivate (builder : ShardBuilder) (id : ChannelId) : Prop :=
  ∃ connection, (builder.overlayOf connection).channels.contains id = true

end ShardBuilder

/-- Following parents in the shared view from `id` ends at the root or at a
channel of `apart`. -/
inductive Anchored (view : ShardView) (apart : ChannelId → Prop) : ChannelId → Prop
  | root : (view.channels.get? rootChannel).isSome = true → Anchored view apart rootChannel
  | apart {id : ChannelId} : apart id → Anchored view apart id
  | step {id : ChannelId} {channel : Channel} : view.channels.get? id = some channel →
      Anchored view apart channel.parent → Anchored view apart id

def Stands (view : ShardView) (handle : ChannelRef) : Prop :=
  ∃ channel, view.channels.get? handle.id = some channel ∧ channel.scope = handle.scope

def Hangs (view : ShardView) (scope : Scope) (id : ChannelId) : Prop :=
  ∃ channel, view.channels.get? id = some channel ∧ channel.scope.isPrefixOf scope = true

structure Grounded (builder : ShardBuilder) (issued : List ChannelRef)
    (apart : ChannelId → Prop) : Prop where
  handle : ∀ handle ∈ issued, Stands builder.view handle ∨ apart handle.id
  rooted : builder.rooted = (builder.view.channels.get? rootChannel).isSome
  root : ∀ channel, builder.view.channels.get? rootChannel = some channel →
    channel.parent = rootChannel ∧ channel.scope = Scope.root
  keyed : ∀ id channel, builder.view.channels.get? id = some channel → id ≠ rootChannel →
    builder.ids.channels builder.shard channel.key = some id ∧
      builder.keysSeen.contains channel.key = true
  parent : ∀ id channel, builder.view.channels.get? id = some channel →
    Hangs builder.view channel.scope channel.parent ∨ apart channel.parent
  anchored : ∀ id channel, builder.view.channels.get? id = some channel →
    Anchored builder.view apart id
  user : ∀ session user, builder.view.users.get? session = some user →
    Hangs builder.view user.scope user.channel ∨ apart user.channel

variable {id : ChannelId} {more : List ChannelRef} {handle : ChannelRef} {after : ShardView}

namespace Grounded

theorem new (ids : IdAllocator) (shard : ShardId) (apart : ChannelId → Prop) :
    Grounded (new ids shard) [] apart where
  handle := by simp
  rooted := rfl
  root := by
    intro channel h
    cases h
  keyed := by
    intro id channel h
    cases h
  parent := by
    intro id channel h
    cases h
  anchored := by
    intro id channel h
    cases h
  user := by
    intro session user h
    cases h

def Extends (before after : ShardView) : Prop :=
  ∀ id channel, before.channels.get? id = some channel →
    ∃ channel', after.channels.get? id = some channel' ∧ channel'.parent = channel.parent ∧
      channel'.scope = channel.scope

variable {before : ShardView}

theorem Extends.stands (h : Extends before after)
    (hstd : Stands before handle) : Stands after handle := by
  obtain ⟨channel, hget, hsc⟩ := hstd
  obtain ⟨channel', hget', -, hsc'⟩ := h _ _ hget
  exact ⟨channel', hget', hsc'.trans hsc⟩

theorem Extends.hangs (h : Extends before after) {scope : Scope}
    (hhangs : Hangs before scope id) : Hangs after scope id := by
  obtain ⟨channel, hget, hprefix⟩ := hhangs
  obtain ⟨channel', hget', -, hsc'⟩ := h _ _ hget
  exact ⟨channel', hget', hsc' ▸ hprefix⟩

variable {apart apart' : ChannelId → Prop}

theorem Extends.anchored (h : Extends before after)
    (hapart : ∀ id, apart id → apart' id) (hanchored : Anchored before apart id) :
    Anchored after apart' id := by
  induction hanchored with
  | root hroot =>
    obtain ⟨channel, hget⟩ := isSome_iff_exists.mp hroot
    obtain ⟨channel', hget', -⟩ := h _ _ hget
    exact .root (by simp [hget'])
  | apart hid => exact .apart (hapart _ hid)
  | step hget _ ih =>
    obtain ⟨channel', hget', hpar, -⟩ := h _ _ hget
    exact .step hget' (hpar ▸ ih)

theorem Extends.refl (view : ShardView) : Extends view view :=
  fun _ channel hget => ⟨channel, hget, rfl, rfl⟩

variable {builder builder' : ShardBuilder} {issued : List ChannelRef}

section

variable (h : Grounded builder issued apart)

include h

section

variable (hapart : ∀ id, apart id → apart' id)

include hapart

theorem extend (hext : Extends builder.view builder'.view)
    (hback : ∀ id channel', builder'.view.channels.get? id = some channel' →
      ∃ channel, builder.view.channels.get? id = some channel ∧ channel'.parent = channel.parent ∧
        channel'.scope = channel.scope ∧ channel'.key = channel.key)
    (husr : ∀ session user', builder'.view.users.get? session = some user' →
      ∃ user, builder.view.users.get? session = some user ∧ user'.channel = user.channel ∧
        user'.scope = user.scope)
    (hids : ∀ key id, builder.ids.channels builder.shard key = some id →
      builder'.ids.channels builder'.shard key = some id)
    (hkeys : builder'.keysSeen = builder.keysSeen) (hrtd : builder'.rooted = builder.rooted)
    (hmore : ∀ handle ∈ more, Stands builder'.view handle ∨ apart' handle.id) :
    Grounded builder' (issued ++ more) apart' where
  handle := by
    intro handle hhdl
    rcases List.mem_append.mp hhdl with hold | hnew
    · exact (h.handle handle hold).imp hext.stands (hapart _)
    · exact hmore handle hnew
  rooted := by
    rw [hrtd, h.rooted]
    cases hroot : builder.view.channels.get? rootChannel with
    | some channel =>
      obtain ⟨channel', hget', -⟩ := hext _ _ hroot
      simp [hget']
    | none =>
      cases hroot' : builder'.view.channels.get? rootChannel with
      | none => rfl
      | some channel' =>
        obtain ⟨channel, hget, -⟩ := hback _ _ hroot'
        rw [hroot] at hget
        cases hget
  root := by
    intro channel' hget'
    obtain ⟨channel, hget, hpar, hsc, -⟩ := hback _ _ hget'
    rw [hpar, hsc]
    exact h.root channel hget
  keyed := by
    intro id channel' hget' hne
    obtain ⟨channel, hget, -, -, hkey⟩ := hback _ _ hget'
    obtain ⟨hid, hseen⟩ := h.keyed id channel hget hne
    rw [hkey, hkeys]
    exact ⟨hids _ _ hid, hseen⟩
  parent := by
    intro id channel' hget'
    obtain ⟨channel, hget, hpar, hsc, -⟩ := hback _ _ hget'
    rw [hpar, hsc]
    exact (h.parent id channel hget).imp hext.hangs (hapart _)
  anchored := by
    intro id channel' hget'
    obtain ⟨channel, hget, -⟩ := hback _ _ hget'
    exact hext.anchored hapart (h.anchored id channel hget)
  user := by
    intro session user' hget'
    obtain ⟨user, hget, hch, hsc⟩ := husr _ _ hget'
    rw [hch, hsc]
    exact (h.user session user hget).imp hext.hangs (hapart _)

theorem keep (hview : builder'.view = builder.view)
    (hids : ∀ key id, builder.ids.channels builder.shard key = some id →
      builder'.ids.channels builder'.shard key = some id)
    (hkeys : builder'.keysSeen = builder.keysSeen) (hrtd : builder'.rooted = builder.rooted)
    (hmore : ∀ handle ∈ more, Stands builder.view handle ∨ apart' handle.id) :
    Grounded builder' (issued ++ more) apart' := by
  refine h.extend hapart (hview ▸ Extends.refl _) ?_ ?_ hids hkeys hrtd (hview ▸ hmore)
  · intro id channel hget
    exact ⟨channel, hview ▸ hget, rfl, rfl, rfl⟩
  · intro session user hget
    exact ⟨user, hview ▸ hget, rfl, rfl⟩

theorem mono : Grounded builder issued apart' := by
  have hkept : Grounded builder (issued ++ []) apart' :=
    h.keep hapart rfl (fun _ _ hid => hid) rfl rfl (by simp)
  simpa using hkept

end

theorem modifyChannel (at' : ChannelId) {f : Channel → Channel}
    (hf : ∀ channel, (f channel).id = channel.id ∧ (f channel).parent = channel.parent ∧
      (f channel).scope = channel.scope ∧ (f channel).key = channel.key) :
    Grounded (builder.modifyChannel at' f) issued apart := by
  have hget : ∀ id, (builder.modifyChannel at' f).view.channels.get? id =
      if id = at' then (builder.view.channels.get? id).map f
      else builder.view.channels.get? id :=
    fun id => get?_modify _ _ _ _ fun channel => (hf channel).1
  have hgrd : Grounded (builder.modifyChannel at' f) (issued ++ []) apart := by
    refine h.extend (fun _ hid => hid) ?_ ?_ ?_ (fun _ _ hid => hid) rfl rfl (by simp)
    · intro id channel hch
      rw [hget id, hch]
      split_ifs
      · exact ⟨f channel, rfl, (hf channel).2.1, (hf channel).2.2.1⟩
      · exact ⟨channel, rfl, rfl, rfl⟩
    · intro id channel' hch'
      rw [hget id] at hch'
      split_ifs at hch'
      · obtain ⟨channel, hch, rfl⟩ := map_eq_some_iff.mp hch'
        exact ⟨channel, hch, (hf channel).2⟩
      · exact ⟨channel', hch', rfl, rfl, rfl⟩
    · intro session user huser
      exact ⟨user, huser, rfl, rfl⟩
  simpa using hgrd

theorem insertChannel (channel : Channel)
    (hview : builder'.view = { builder.view with
      channels := builder.view.channels.insert channel })
    (hfr : builder.view.channels.get? channel.id = none)
    (hids : ∀ key id, builder.ids.channels builder.shard key = some id →
      builder'.ids.channels builder'.shard key = some id)
    (hkeys : ∀ key, builder.keysSeen.contains key = true → builder'.keysSeen.contains key = true)
    (hrtd : builder'.rooted = (builder.rooted || channel.id = rootChannel))
    (hroot : channel.id = rootChannel → channel.parent = rootChannel ∧ channel.scope = Scope.root)
    (hkeyed : channel.id ≠ rootChannel →
      builder'.ids.channels builder'.shard channel.key = some channel.id ∧
        builder'.keysSeen.contains channel.key = true) (hpar : channel.id = rootChannel ∨
      Hangs builder.view channel.scope channel.parent ∨ apart channel.parent) :
    Grounded builder' (issued ++ [⟨channel.id, channel.scope⟩]) apart := by
  have hget : ∀ id, builder'.view.channels.get? id =
      if id = channel.id then some channel else builder.view.channels.get? id := by
    intro id
    rw [hview]
    exact get?_insert _ _ _
  have hself : builder'.view.channels.get? channel.id = some channel := by rw [hget, if_pos rfl]
  have hext : Extends builder.view builder'.view := by
    intro id old hold
    have hne : id ≠ channel.id := by
      rintro rfl
      rw [hfr] at hold
      cases hold
    exact ⟨old, by rw [hget, if_neg hne]; exact hold, rfl, rfl⟩
  have hhung : channel.id = rootChannel ∨
      Hangs builder'.view channel.scope channel.parent ∨ apart channel.parent :=
    hpar.imp_right (Or.imp_left hext.hangs)
  have hcases : ∀ id found, builder'.view.channels.get? id = some found →
      (id = channel.id ∧ found = channel) ∨
        (id ≠ channel.id ∧ builder.view.channels.get? id = some found) := by
    intro id found hfnd
    rw [hget] at hfnd
    split_ifs at hfnd with heq
    · cases hfnd
      exact Or.inl ⟨heq, rfl⟩
    · exact Or.inr ⟨heq, hfnd⟩
  constructor
  · intro handle hhdl
    rcases List.mem_append.mp hhdl with hold | hnew
    · exact (h.handle handle hold).imp_left hext.stands
    · obtain rfl := List.mem_singleton.mp hnew
      exact Or.inl ⟨channel, hself, rfl⟩
  · rw [hrtd, h.rooted, hget]
    by_cases heq : rootChannel = channel.id
    · simp [heq]
    · simp [heq, Ne.symm heq]
  · intro found hfnd
    rcases hcases _ _ hfnd with ⟨heq, rfl⟩ | ⟨-, hfnd⟩
    · exact hroot heq.symm
    · exact h.root found hfnd
  · intro id found hfnd hne
    rcases hcases _ _ hfnd with ⟨rfl, rfl⟩ | ⟨-, hfnd⟩
    · exact hkeyed hne
    · exact (h.keyed id found hfnd hne).imp (hids _ _) (hkeys _)
  · intro id found hfnd
    rcases hcases _ _ hfnd with ⟨rfl, rfl⟩ | ⟨-, hfnd⟩
    · rcases hhung with heq | hhung
      · obtain ⟨hpar', hsc⟩ := hroot heq
        exact Or.inl ⟨found, by rw [hpar', ← heq]; exact hself, Scope.isPrefixOf_refl _⟩
      · exact hhung
    · exact (h.parent id found hfnd).imp_left hext.hangs
  · intro id found hfnd
    rcases hcases _ _ hfnd with ⟨rfl, rfl⟩ | ⟨-, hfnd⟩
    · rcases hpar with heq | ⟨p, hp, -⟩ | hap
      · rw [heq]
        exact .root (by rw [← heq, hself]; rfl)
      · exact .step hself (hext.anchored (fun _ hid => hid) (h.anchored _ p hp))
      · exact .step hself (.apart hap)
    · exact hext.anchored (fun _ hid => hid) (h.anchored id found hfnd)
  · intro session user huser
    rw [hview] at huser
    exact (h.user session user huser).imp_left hext.hangs

theorem insertUser {user : User}
    (hview : builder'.view = { builder.view with users := builder.view.users.insert user })
    (hids : builder'.ids.channels = builder.ids.channels) (hsh : builder'.shard = builder.shard)
    (hkeys : builder'.keysSeen = builder.keysSeen) (hrtd : builder'.rooted = builder.rooted)
    (hplace : Hangs builder.view user.scope user.channel ∨ apart user.channel) :
    Grounded builder' (issued ++ []) apart := by
  have hchs : builder'.view.channels = builder.view.channels := by rw [hview]
  constructor
  · intro handle hhdl
    simp only [Stands, hchs]
    exact h.handle handle (by simpa using hhdl)
  · rw [hrtd, hchs]
    exact h.rooted
  · rw [hchs]
    exact h.root
  · rw [hchs, hids, hsh, hkeys]
    exact h.keyed
  · simp only [Hangs, hchs]
    exact h.parent
  · intro id channel hget
    rw [hchs] at hget
    have hext : Extends builder.view builder'.view := by
      intro id channel hget
      exact ⟨channel, hchs ▸ hget, rfl, rfl⟩
    exact hext.anchored (fun _ hid => hid) (h.anchored id channel hget)
  · intro session found hfnd
    simp only [Hangs, hchs]
    rw [hview] at hfnd
    rw [get?_insert] at hfnd
    split_ifs at hfnd
    · cases hfnd
      exact hplace
    · exact h.user session found hfnd

end

end Grounded

namespace ShardBuilder

theorem fail_error (builder : ShardBuilder) (error : BuildError) :
    (builder.fail error).error ≠ none := by
  cases h : builder.error <;> simp [fail, h]

theorem narrowed_isPrefixOf {scope scope' : Scope} {narrow : Narrow}
    (h : narrowed scope narrow = some scope') : scope.isPrefixOf scope' = true := by
  cases narrow with
  | same =>
    cases h
    exact Scope.isPrefixOf_refl _
  | into segment => exact Scope.isPrefixOf_child h

theorem hangs_of_stands {view : ShardView} {scope : Scope}
    (h : Stands view handle) (hsc : handle.scope.isPrefixOf scope = true) :
    Hangs view scope handle.id := by
  obtain ⟨channel, hget, heq⟩ := h
  exact ⟨channel, hget, heq ▸ hsc⟩

variable {builder : ShardBuilder} {issued : List ChannelRef} {apart : ChannelId → Prop}

theorem root_grounded (h : Grounded builder issued apart) (name : String)
    (herr : (builder.root name).2.error = none) :
    Grounded (builder.root name).2 (issued ++ [(builder.root name).1]) apart := by
  unfold root at herr ⊢
  split_ifs at herr ⊢ with hrtd
  · exact absurd herr (fail_error _ _)
  · have hnone : builder.view.channels.get? rootChannel = none := by
      have hsome := h.rooted
      rw [Bool.not_eq_true] at hrtd
      rw [hrtd] at hsome
      simpa using hsome.symm
    exact h.insertChannel (fresh rootKey rootChannel rootChannel Scope.root name) rfl hnone
      (fun _ _ hid => hid) (fun _ hkey => hkey) (by simp [fresh]) (fun _ => ⟨rfl, rfl⟩)
      (fun hne => absurd rfl hne) (Or.inl rfl)

/-- A `channel` call that is not refused takes a key not seen yet and inserts a
channel under the id allocated for it. -/
theorem channel_ok {parent : ChannelRef} {key : ChannelKey} {name : String} {narrow : Narrow}
    (herr : (builder.channel parent key name narrow).2.error = none) :
    ∃ scope id ids, narrowed parent.scope narrow = some scope ∧
      builder.keysSeen.contains key = false ∧
      builder.ids.channel builder.shard key = .ok (id, ids) ∧
      builder.channel parent key name narrow = (⟨id, scope⟩, { builder with
        ids
        keysSeen := builder.keysSeen.insert key
        view.channels := builder.view.channels.insert (fresh key id parent.id scope name) }) := by
  simp only [channel] at herr ⊢
  split at herr
  · exact absurd herr (fail_error _ _)
  · rename_i scope hsc
    split_ifs at herr with hseen
    · exact absurd herr (fail_error _ _)
    · split at herr
      · exact absurd herr (fail_error _ _)
      · rename_i id ids hid
        refine ⟨scope, id, ids, hsc, by simpa using hseen, hid, ?_⟩
        rw [if_neg hseen]

theorem grounded_fresh (h : Grounded builder issued apart) {key : ChannelKey}
    {ids : IdAllocator} (hseen : builder.keysSeen.contains key = false)
    (hid : builder.ids.channel builder.shard key = .ok (id, ids)) :
    id ≠ rootChannel ∧ builder.view.channels.get? id = none := by
  obtain ⟨hnew, hold, -⟩ := IdAllocator.channel_ok hid
  have hpos : id ≠ rootChannel := Nat.ne_of_gt (ids.channels_lt _ _ _ hnew).1
  refine ⟨hpos, ?_⟩
  cases hfnd : builder.view.channels.get? id with
  | none => rfl
  | some found =>
    obtain ⟨hkeyed, hkey⟩ := h.keyed id found hfnd hpos
    obtain ⟨-, rfl⟩ := ids.channels_injective _ _ _ _ _ hnew (hold _ _ _ hkeyed)
    rw [hkey] at hseen
    cases hseen

theorem channel_grounded (h : Grounded builder issued apart) {parent : ChannelRef}
    (hpar : parent ∈ issued) (key : ChannelKey) (name : String) (narrow : Narrow)
    (herr : (builder.channel parent key name narrow).2.error = none) :
    Grounded (builder.channel parent key name narrow).2
      (issued ++ [(builder.channel parent key name narrow).1]) apart := by
  obtain ⟨scope, id, ids, hnarrowed, hseen, hid, hres⟩ := channel_ok herr
  obtain ⟨hpos, hfr⟩ := grounded_fresh h hseen hid
  obtain ⟨hnew, hold, -⟩ := IdAllocator.channel_ok hid
  rw [hres]
  refine h.insertChannel (fresh key id parent.id scope name) rfl hfr
    (fun _ _ hid => hold _ _ _ hid) ?_ ?_ ?_ ?_ ?_
  · intro other hoth
    simp [hoth]
  · simp [fresh, hpos]
  · exact fun heq => absurd heq hpos
  · exact fun _ => ⟨hnew, by simp [fresh]⟩
  · right
    exact (h.handle parent hpar).imp_left
      fun hstd => hangs_of_stands hstd (narrowed_isPrefixOf hnarrowed)

theorem user_ok {place : ChannelRef} {who : Occupant} {name : String} {narrow : Narrow}
    (herr : (builder.user place who name narrow).2.error = none) :
    ∃ scope session ids, narrowed place.scope narrow = some scope ∧
      builder.ids.session who = .ok (session, ids) ∧
      builder.user place who name narrow = (⟨session⟩, { builder with
        ids
        occupantsSeen := who :: builder.occupantsSeen
        view.users := builder.view.users.insert
          { occupant := who, session, channel := place.id, scope, name, flags := {} } }) := by
  have hfailed : ∀ b : ShardBuilder, b.error ≠ none → (b.sessionOrZero who).2.error ≠ none := by
    intro b hb
    unfold sessionOrZero
    split
    · exact hb
    · exact fail_error _ _
  simp only [user] at herr ⊢
  split_ifs at herr ⊢ with hseen
  · exact absurd herr (fail_error _ _)
  unfold narrowedUser at herr hseen ⊢
  cases hnarrowed : narrowed place.scope narrow with
  | none =>
    rw [hnarrowed] at herr
    exact absurd herr (hfailed _ (fail_error _ _))
  | some scope =>
    simp only [hnarrowed, sessionOrZero] at herr ⊢
    cases hses : builder.ids.session who with
    | error exhausted =>
      rw [hses] at herr
      exact absurd herr (fail_error _ _)
    | ok result => exact ⟨scope, result.1, result.2, rfl, rfl, rfl⟩

theorem user_grounded (h : Grounded builder issued apart) {place : ChannelRef}
    (hplace : place ∈ issued) (who : Occupant) (name : String) (narrow : Narrow)
    (herr : (builder.user place who name narrow).2.error = none) :
    Grounded (builder.user place who name narrow).2 (issued ++ []) apart := by
  obtain ⟨scope, session, ids, hnarrowed, hses, hres⟩ := user_ok herr
  rw [hres]
  refine h.insertUser rfl (IdAllocator.session_ok hses).2.2 rfl rfl rfl ?_
  exact (h.handle place hplace).imp_left
    fun hstd => hangs_of_stands hstd (narrowed_isPrefixOf hnarrowed)

end ShardBuilder

variable {channel : Channel}

namespace PrivateBuilder

structure Grows (before after : PrivateBuilder) : Prop where
  connection : after.connection = before.connection
  shard : after.shard = before.shard
  channels : ∀ s k i, before.ids.channels s k = some i → after.ids.channels s k = some i
  error : after.error = none → before.error = none
  overlay : ∀ id, before.overlay.channels.contains id = true →
    after.overlay.channels.contains id = true

theorem Grows.refl (builder : PrivateBuilder) : Grows builder builder :=
  ⟨rfl, rfl, fun _ _ _ h => h, fun h => h, fun _ h => h⟩

theorem Grows.trans {a b c : PrivateBuilder} (hab : Grows a b) (hbc : Grows b c) : Grows a c where
  connection := hbc.connection.trans hab.connection
  shard := hbc.shard.trans hab.shard
  channels s k i h := hbc.channels s k i (hab.channels s k i h)
  error h := hab.error (hbc.error h)
  overlay id h := hbc.overlay id (hab.overlay id h)

theorem fail_error (builder : PrivateBuilder) (error : BuildError) :
    (builder.fail error).error ≠ none := by
  cases h : builder.error <;> simp [fail, h]

theorem fail_grows (builder : PrivateBuilder) (error : BuildError) :
    Grows builder (builder.fail error) :=
  ⟨rfl, rfl, fun _ _ _ h => h, fun h => absurd h (fail_error _ _), fun _ h => h⟩

theorem contains_insert {channels : Channels}
    (h : channels.contains id = true) : (channels.insert channel).contains id = true := by
  obtain ⟨found, hfnd⟩ := contains_iff.mp h
  rw [contains, get?_insert]
  split_ifs
  · rfl
  · simp [hfnd]

theorem call_grows (builder : PrivateBuilder) (call : PrivateCall) :
    Grows builder (builder.call call).2 ∧
      ((builder.call call).2.error = none → ∀ handle ∈ (builder.call call).1,
        (builder.call call).2.overlay.channels.contains handle.id = true) := by
  cases call with
  | userIn place who name =>
    refine ⟨?_, fun _ handle h => by cases h⟩
    simp only [PrivateBuilder.call, userIn]
    cases hses : builder.ids.session who with
    | error exhausted =>
      exact ⟨rfl, rfl, fun _ _ _ h => h, fun h => absurd h (fail_error _ _), fun _ h => h⟩
    | ok result =>
      obtain ⟨-, -, hchs⟩ := IdAllocator.session_ok hses
      exact ⟨rfl, rfl, fun s k i h => hchs ▸ h, fun h => h, fun _ h => h⟩
  | channel parent key name =>
    simp only [PrivateBuilder.call, channel]
    cases hid : builder.ids.channel builder.shard key with
    | error exhausted => exact ⟨fail_grows _ _, fun h => absurd h (fail_error _ _)⟩
    | ok result =>
      refine ⟨⟨rfl, rfl, (IdAllocator.channel_ok hid).2.1, fun h => h,
        fun _ h => contains_insert h⟩, ?_⟩
      intro _ handle hhdl
      cases hhdl
      simp [contains, fresh]
  | userFlags user flags =>
    exact ⟨⟨rfl, rfl, fun _ _ _ h => h, fun h => h, fun _ h => h⟩, fun _ handle h => by cases h⟩
  | action key text on =>
    refine ⟨?_, fun _ handle h => by cases h⟩
    simp only [PrivateBuilder.call, action]
    split_ifs
    · exact fail_grows _ _
    · exact ⟨rfl, rfl, fun _ _ _ h => h, fun h => h, fun _ h => h⟩

theorem run_grows (builder : PrivateBuilder) (calls : List PrivateCall) :
    Grows builder (builder.run calls).2 ∧
      ((builder.run calls).2.error = none → ∀ handle ∈ (builder.run calls).1,
        (builder.run calls).2.overlay.channels.contains handle.id = true) := by
  induction calls generalizing builder with
  | nil => exact ⟨Grows.refl builder, fun _ handle h => by cases h⟩
  | cons call rest ih =>
    obtain ⟨hcall, hhdl⟩ := builder.call_grows call
    obtain ⟨hrest, hhandles⟩ := ih (builder.call call).2
    refine ⟨hcall.trans hrest, ?_⟩
    intro herr handle hmem
    simp only [run, List.mem_append, mem_toList] at hmem
    rcases hmem with hmem | hmem
    · exact hrest.overlay _ (hhdl (hrest.error herr) handle hmem)
    · exact hhandles herr handle hmem

end PrivateBuilder

namespace ShardBuilder

theorem overlayOf_closePrivate (builder : ShardBuilder) (inner : PrivateBuilder)
    (connection : ConnectionId) :
    (builder.closePrivate inner).overlayOf connection =
      if connection = inner.connection then inner.overlay else builder.overlayOf connection := by
  simp only [overlayOf, closePrivate, OrderedMap.find?_set]
  split_ifs <;> rfl

variable {builder : ShardBuilder}

theorem isPrivate_privately (h : builder.isPrivate id) (connection : ConnectionId)
    (build : List PrivateCall) : (builder.privately connection build).2.isPrivate id := by
  obtain ⟨owner, howr⟩ := h
  obtain ⟨hgrows, -⟩ := (builder.openPrivate connection).run_grows build
  refine ⟨owner, ?_⟩
  simp only [privately]
  rw [overlayOf_closePrivate]
  split_ifs with heq
  · rw [hgrows.connection] at heq
    apply hgrows.overlay
    rw [heq] at howr
    exact howr
  · exact howr

theorem isPrivate_of_handle {connection : ConnectionId} {build : List PrivateCall}
    (herr : (builder.privately connection build).2.error = none)
    (h : handle ∈ (builder.privately connection build).1) :
    (builder.privately connection build).2.isPrivate handle.id := by
  obtain ⟨-, hhandles⟩ := (builder.openPrivate connection).run_grows build
  refine ⟨((builder.openPrivate connection).run build).2.connection, ?_⟩
  simp only [privately]
  rw [overlayOf_closePrivate, if_pos rfl]
  exact hhandles herr handle h

/-- What placing a channel or a user leaves alone. -/
structure SameRest (before after : ShardBuilder) : Prop where
  overlays : after.overlays = before.overlays
  audio : after.audio = before.audio

theorem channel_rest (builder : ShardBuilder) (parent : ChannelRef) (key : ChannelKey)
    (name : String) (narrow : Narrow) :
    SameRest builder (builder.channel parent key name narrow).2 := by
  simp only [channel]
  split
  · exact ⟨rfl, rfl⟩
  · split_ifs
    · exact ⟨rfl, rfl⟩
    · split <;> exact ⟨rfl, rfl⟩

theorem user_rest (builder : ShardBuilder) (place : ChannelRef) (who : Occupant) (name : String)
    (narrow : Narrow) :
    SameRest builder (builder.user place who name narrow).2 ∧
      (builder.user place who name narrow).2.view.channels = builder.view.channels ∧
      (builder.user place who name narrow).2.rooted = builder.rooted := by
  unfold user narrowedUser sessionOrZero
  cases narrowed place.scope narrow <;> dsimp only [fail] <;>
    cases builder.ids.session who <;> dsimp only [fail] <;> split_ifs <;>
    exact ⟨⟨rfl, rfl⟩, rfl, rfl⟩

theorem call_error {call : BuildCall} (h : (builder.call call).2.error = none) :
    builder.error = none := by
  have hfail : ∀ {b : ShardBuilder} {e : BuildError}, (b.fail e).error = none → False :=
    fun hb => fail_error _ _ hb
  cases call with
  | root name =>
    simp only [call, root] at h
    split_ifs at h
    · exact (hfail h).elim
    · exact h
  | channel parent key name narrow =>
    obtain ⟨scope, id, ids, -, -, -, hres⟩ := channel_ok h
    simp only [call, hres] at h
    exact h
  | user place who name narrow =>
    obtain ⟨scope, session, ids, -, -, hres⟩ := user_ok h
    simp only [call, hres] at h
    exact h
  | channelLink a b =>
    simp only [call, channelLink] at h
    split_ifs at h
    · exact h
    · exact (hfail h).elim
  | privately connection build =>
    exact ((builder.openPrivate connection).run_grows build).1.error h
  | _ => exact h

theorem render_cons (builder : ShardBuilder) (call : BuildCall) (rest : List BuildCall) :
    builder.render (call :: rest) = (builder.call call).2.render rest := by
  simp only [render, List.foldl_cons]

theorem render_error {calls : List BuildCall} (h : (builder.render calls).error = none) :
    builder.error = none := by
  induction calls generalizing builder with
  | nil => exact h
  | cons call rest ih =>
    exact call_error (ih h)

variable {issued : List ChannelRef}

theorem call_grounded {apart : ChannelId → Prop} (h : Grounded builder issued apart)
    {call : BuildCall} (hcall : ∀ connection build, call ≠ .privately connection build)
    (hplacing : ∀ handle ∈ call.placing, handle ∈ issued)
    (herr : (builder.call call).2.error = none) :
    Grounded (builder.call call).2 (issued ++ (builder.call call).1) apart := by
  have hkeep : ∀ {builder' : ShardBuilder}, builder'.view = builder.view →
      builder'.ids = builder.ids → builder'.shard = builder.shard →
      builder'.keysSeen = builder.keysSeen → builder'.rooted = builder.rooted →
      Grounded builder' (issued ++ []) apart := by
    intro builder' hview hids hsh hkeys hrtd
    exact h.keep (fun _ hid => hid) hview (fun _ _ hid => hids ▸ hsh ▸ hid) hkeys hrtd (by simp)
  have hmodify : ∀ (place : ChannelId) (f : Channel → Channel),
      (∀ channel, (f channel).id = channel.id ∧ (f channel).parent = channel.parent ∧
        (f channel).scope = channel.scope ∧ (f channel).key = channel.key) →
      Grounded (builder.modifyChannel place f) (issued ++ []) apart := by
    intro place f hf
    rw [List.append_nil]
    exact h.modifyChannel place hf
  cases call with
  | root name => exact root_grounded h name herr
  | channel parent key name narrow =>
    exact channel_grounded h (hplacing parent List.mem_cons_self) key name narrow herr
  | user place who name narrow =>
    exact user_grounded h (hplacing place List.mem_cons_self) who name narrow herr
  | channelLink a b =>
    simp only [call, channelLink] at herr ⊢
    split_ifs at herr ⊢
    · rw [List.append_nil]
      refine Grounded.modifyChannel (Grounded.modifyChannel h a.id ?_) b.id ?_ <;>
        exact fun _ => ⟨rfl, rfl, rfl, rfl⟩
    · exact absurd herr (fail_error _ _)
  | userFlags user flags =>
    refine h.extend (fun _ hid => hid) (Grounded.Extends.refl _)
      (fun id channel hget => ⟨channel, hget, rfl, rfl, rfl⟩) ?_ (fun _ _ hid => hid) rfl rfl
      (by simp [call])
    intro session user' huser'
    have hget : (builder.userFlags user flags).view.users.get? session =
        if session = user.session
        then (builder.view.users.get? session).map fun entry => { entry with flags }
        else builder.view.users.get? session :=
      get?_modify _ _ _ (fun entry : User => { entry with flags }) fun _ => rfl
    change (builder.userFlags user flags).view.users.get? session = some user' at huser'
    rw [hget] at huser'
    split_ifs at huser'
    · obtain ⟨found, hfnd, rfl⟩ := map_eq_some_iff.mp huser'
      exact ⟨found, hfnd, rfl, rfl⟩
    · exact ⟨user', huser', rfl, rfl⟩
  | privately connection build => exact absurd rfl (hcall connection build)
  | audioDomain domain members
  | audioListen listener domain
  | audioEdge sender receiver => exact hkeep rfl rfl rfl rfl rfl
  | _ => exact hmodify _ _ fun _ => ⟨rfl, rfl, rfl, rfl⟩

theorem privately_grounded {apart apart' : ChannelId → Prop}
    (h : Grounded builder issued apart) (hapart : ∀ id, apart id → apart' id)
    (connection : ConnectionId) (build : List PrivateCall)
    (hmore : ∀ handle ∈ more, apart' handle.id) :
    Grounded (builder.call (.privately connection build)).2 (issued ++ more) apart' := by
  obtain ⟨hgrows, -⟩ := (builder.openPrivate connection).run_grows build
  exact h.keep hapart rfl (fun key id hid => hgrows.channels _ _ _ hid) rfl rfl
    fun handle hhdl => Or.inr (hmore handle hhdl)

theorem render_grounded {issue : ShardBuilder → BuildCall → List ChannelRef}
    (apart : ShardBuilder → ChannelId → Prop)
    (hmono : ∀ b call id, apart b id → apart (b.call call).2 id)
    (hshr : ∀ b call, (∀ connection build, call ≠ .privately connection build) →
      issue b call = (b.call call).1)
    (hpriv : ∀ b connection build, (b.call (.privately connection build)).2.error = none →
      ∀ handle ∈ issue b (.privately connection build),
        apart (b.call (.privately connection build)).2 handle.id) {calls : List BuildCall}
    (h : Grounded builder issued (apart builder)) (hiss : HandlesIssued issue builder issued calls)
    (herr : (builder.render calls).error = none) :
    ∃ issued', Grounded (builder.render calls) issued' (apart (builder.render calls)) := by
  induction calls generalizing builder issued with
  | nil => exact ⟨issued, h⟩
  | cons call rest ih =>
    rw [render_cons] at herr ⊢
    have hcallError := render_error herr
    refine ih ?_ hiss.2 herr
    by_cases hcall : ∃ connection build, call = .privately connection build
    · obtain ⟨connection, build, rfl⟩ := hcall
      exact privately_grounded h (hmono builder _) connection build
        (hpriv builder connection build hcallError)
    · have hne : ∀ connection build, call ≠ .privately connection build :=
        fun connection build heq => hcall ⟨connection, build, heq⟩
      rw [hshr builder call hne]
      exact (call_grounded h hne hiss.1 hcallError).mono (hmono builder call)

end ShardBuilder

/-- Every user's channel and every channel's parent is there, at a scope the
element extends, and following parents reaches the root. -/
structure ShardView.Closed (view : ShardView) : Prop where
  user : ∀ session user, view.users.get? session = some user → Hangs view user.scope user.channel
  parent : ∀ id channel, view.channels.get? id = some channel →
    Hangs view channel.scope channel.parent
  rooted : ∀ id channel, view.channels.get? id = some channel →
    ∃ n, walk view.parentOf n id = some rootChannel

variable {view : ShardView} {see : ScopeSet} {id : ChannelId}

theorem Hangs.restrict {scope : Scope} (h : Hangs view scope id) (hsees : see.sees scope = true) :
    Hangs (view.restrict see) scope id := by
  obtain ⟨channel, hget, hprefix⟩ := h
  refine ⟨channel, ?_, hprefix⟩
  have hseen := ScopeSet.sees_of_prefix hprefix hsees
  simp [ShardView.restrict, hget, filter_some, hseen]

theorem ShardView.get?_restrict (h : (view.restrict see).channels.get? id = some channel) :
    view.channels.get? id = some channel ∧ see.sees channel.scope = true := by
  simpa [ShardView.restrict, filter_eq_some_iff] using h

theorem Anchored.reaches (h : Anchored view (fun _ => False) id)
    (hpar : ∀ id channel, view.channels.get? id = some channel →
      Hangs view channel.scope channel.parent)
    (hget : (view.restrict see).channels.get? id = some channel) :
    ∃ n, walk (view.restrict see).parentOf n id = some rootChannel := by
  induction h generalizing channel with
  | root _ => exact ⟨0, rfl⟩
  | apart hfalse => exact hfalse.elim
  | @step id channel' hget' _ ih =>
    obtain ⟨hview, hsees⟩ := ShardView.get?_restrict hget
    obtain rfl : channel' = channel := some.inj (hget'.symm.trans hview)
    obtain ⟨parent, hfnd, -⟩ := (hpar id channel' hview).restrict hsees
    obtain ⟨n, hn⟩ := ih hfnd
    refine ⟨n + 1, ?_⟩
    simp only [walk, ShardView.parentOf, hget, map_some, bind_some]
    exact hn

/-- Whatever the calls, if the handles are the builder's own and nothing was
refused, every observation of the view is closed and rooted. -/
theorem render_closed {ids : IdAllocator} {shard : ShardId} {calls : List BuildCall}
    {observations : Observations} {rendered : Rendered}
    (hissued : HandlesIssued ShardBuilder.sharedHandles (ShardBuilder.new ids shard) [] calls)
    (hok : ((ShardBuilder.new ids shard).render calls).finish observations = .ok rendered)
    (see : ScopeSet) :
    (rendered.view.restrict see).Closed ∧
      (see.isEmpty = false →
        (rendered.view.restrict see).channels.contains rootChannel = true) := by
  obtain ⟨herr, hrtd, -, -, -, rfl⟩ := finish_eq_ok hok
  obtain ⟨issued, hgrd⟩ := render_grounded (fun _ _ => False)
    (fun _ _ _ h => h)
    (fun b call hcall => by
      cases call <;> first | rfl | exact absurd rfl (hcall _ _))
    (fun b connection build _ handle hhdl => by cases hhdl)
    (Grounded.new ids shard _) hissued herr
  have hpar : ∀ id channel,
      ((new ids shard).render calls).view.channels.get? id = some channel →
      Hangs ((new ids shard).render calls).view channel.scope channel.parent :=
    fun id channel hget => (hgrd.parent id channel hget).resolve_right (fun h => h)
  refine ⟨⟨?_, ?_, ?_⟩, ?_⟩
  · intro session user hget
    obtain ⟨hview, hsees⟩ : _ ∧ see.sees user.scope = true := by
      simpa [ShardView.restrict, Option.filter_eq_some_iff] using hget
    exact ((hgrd.user session user hview).resolve_right (fun h => h)).restrict hsees
  · intro id channel hget
    obtain ⟨hview, hsees⟩ := ShardView.get?_restrict hget
    exact (hpar id channel hview).restrict hsees
  · intro id channel hget
    obtain ⟨hview, -⟩ := ShardView.get?_restrict hget
    exact (hgrd.anchored id channel hview).reaches hpar hget
  · intro hsee
    rw [hgrd.rooted] at hrtd
    obtain ⟨root, hroot⟩ := Option.isSome_iff_exists.mp hrtd
    have hsc := (hgrd.root root hroot).2
    have hsees := ScopeSet.sees_root hsee
    simp [ShardView.restrict, contains, hroot, Option.filter_some, hsc, hsees]

def denCalls : List BuildCall :=
  [.root "Lobby", .channel ⟨rootChannel, Scope.root⟩ 7 "Den" (.into 1)]

def denBuilder : ShardBuilder := (ShardBuilder.new IdAllocator.new 0).render denCalls

def denScope : Scope := ⟨[1], by decide⟩

def denSee : ScopeSet := ⟨Table.ofList [denScope], by decide⟩

theorem denCalls_issued : HandlesIssued sharedHandles (new IdAllocator.new 0) [] denCalls := by
  refine ⟨?_, ?_, trivial⟩
  · intro handle hhdl
    cases hhdl
  · intro handle hhdl
    exact List.mem_append_right _ hhdl

theorem denBuilder_finish : denBuilder.finish (fun _ => none) =
    .ok ⟨denBuilder.view, denBuilder.overlays, denBuilder.actions, denBuilder.audio⟩ := by
  rfl

theorem render_closed_den :
    (denBuilder.view.restrict denSee).Closed ∧
      (denBuilder.view.restrict denSee).channels.contains rootChannel = true :=
  ⟨(render_closed denCalls_issued denBuilder_finish denSee).1,
    (render_closed denCalls_issued denBuilder_finish denSee).2 (by decide)⟩

end MumbleRuntime
