import MumbleRuntime.Closure
import MumbleRuntime.Shard

/-!
# The tree one connection holds

What a connection holds is the part of the view it sees with its overlay on top.
The closing checks make an overlay's elements hang from something the connection
holds, but they look one parent up only, and a shared element may hang from a
private handle. The composed view is a rooted tree exactly when every shared
element that hangs from a private channel is seen only by connections that hold
that channel, and no private channel is its own ancestor.
-/

namespace MumbleRuntime
open Library ShardBuilder Table Option List

structure ShardView.RootedTree (view : ShardView) : Prop where
  user : ∀ session user, view.users.get? session = some user →
    view.channels.contains user.channel = true
  parent : ∀ id channel, view.channels.get? id = some channel →
    view.channels.contains channel.parent = true
  rooted : ∀ id channel, view.channels.get? id = some channel →
    ∃ n, walk view.parentOf n id = some rootChannel

def Rendered.composedFor (rendered : Rendered) (connection : ConnectionId) (see : ScopeSet) :
    ShardView :=
  (rendered.view.restrict see).compose (rendered.overlayOf connection)

/-- The connection holds what its shared elements hang from privately, and none
of its private channels is its own ancestor. -/
structure Rendered.PrivatelyRooted (rendered : Rendered) (connection : ConnectionId)
    (see : ScopeSet) : Prop where
  channel : ∀ id channel, rendered.view.channels.get? id = some channel →
    see.sees channel.scope = true → rendered.view.channels.contains channel.parent = false →
    (rendered.overlayOf connection).channels.contains channel.parent = true
  user : ∀ session user, rendered.view.users.get? session = some user →
    see.sees user.scope = true → rendered.view.channels.contains user.channel = false →
    (rendered.overlayOf connection).channels.contains user.channel = true
  acyclic : ∀ id, (rendered.overlayOf connection).channels.contains id = true →
    ∀ n, 0 < n → walk (rendered.composedFor connection see).parentOf n id ≠ some id

section Accepted

variable {ids : IdAllocator} {shard : ShardId} {calls : List BuildCall}
  {observations : Observations} {rendered : Rendered} {connection : ConnectionId} {see : ScopeSet}

/-- What an accepted render is known to satisfy before anything is assumed of
its private channels. -/
structure Rendered.Sound (rendered : Rendered) (connection : ConnectionId) (see : ScopeSet)
    (apart : ChannelId → Prop) : Prop where
  disjoint : ∀ id, (rendered.overlayOf connection).channels.contains id = true →
    rendered.view.channels.get? id = none
  disjointUser : ∀ session user,
    (rendered.overlayOf connection).users.get? session = some user →
    rendered.view.users.get? session = none
  notShared : ∀ id, apart id → rendered.view.channels.get? id = none
  root : ∃ channel, rendered.view.channels.get? rootChannel = some channel ∧
    channel.parent = rootChannel ∧ channel.scope = Scope.root
  parent : ∀ id channel, rendered.view.channels.get? id = some channel →
    Hangs rendered.view channel.scope channel.parent ∨ apart channel.parent
  anchored : ∀ id channel, rendered.view.channels.get? id = some channel →
    Anchored rendered.view apart id
  user : ∀ session user, rendered.view.users.get? session = some user →
    Hangs rendered.view user.scope user.channel ∨ apart user.channel
  reference : ∀ id,
    (∃ session user, (rendered.overlayOf connection).users.get? session = some user ∧
      user.channel = id) ∨
    (∃ key channel, (rendered.overlayOf connection).channels.get? key = some channel ∧
      channel.parent = id) →
    (rendered.overlayOf connection).channels.contains id = true ∨
      ∃ channel, rendered.view.channels.get? id = some channel ∧ see.sees channel.scope = true

theorem ShardBuilder.call_overlays {builder : ShardBuilder} {call : BuildCall}
    (hcall : ∀ connection build, call ≠ .privately connection build) :
    (builder.call call).2.overlays = builder.overlays := by
  cases call with
  | privately connection build => exact absurd rfl (hcall connection build)
  | root name =>
    simp only [call, root]
    split_ifs <;> rfl
  | channel parent key name narrow => exact (builder.channel_rest _ _ _ _).overlays
  | user place who name narrow => exact (builder.user_rest _ _ _ _).1.overlays
  | channelLink a b =>
    simp only [call, channelLink]
    split_ifs <;> rfl
  | _ => rfl

theorem isPrivate_call {builder : ShardBuilder} {call : BuildCall} {id : ChannelId}
    (h : builder.isPrivate id) : (builder.call call).2.isPrivate id := by
  by_cases hcall : ∃ connection build, call = .privately connection build
  · obtain ⟨connection, build, rfl⟩ := hcall
    exact isPrivate_privately h connection build
  · obtain ⟨owner, howr⟩ := h
    refine ⟨owner, ?_⟩
    rw [overlayOf, call_overlays fun connection build heq =>
      hcall ⟨connection, build, heq⟩]
    exact howr

section

variable (hiss : HandlesIssued (fun builder call => (builder.call call).1) (ShardBuilder.new ids shard) [] calls)
  (hok : ((ShardBuilder.new ids shard).render calls).finish observations = .ok rendered)

include hiss hok

theorem grounded_of_finish :
    (∃ issued, Grounded ((new ids shard).render calls) issued
        ((new ids shard).render calls).isPrivate) ∧
      ∀ id, ((new ids shard).render calls).isPrivate id →
        ((new ids shard).render calls).view.channels.get? id = none := by
  have hxor := Rendered.shared_xor_private hok
  obtain ⟨herr, -, -, -, -, rfl⟩ := finish_eq_ok hok
  refine ⟨render_grounded isPrivate (fun b call id h => isPrivate_call h) (fun b call _ => rfl)
    (fun b connection build herr handle hhdl =>
      isPrivate_of_handle herr hhdl)
    (Grounded.new ids shard _) hiss herr, ?_⟩
  rintro id ⟨owner, howr⟩
  obtain ⟨channel, hch⟩ := contains_iff.mp howr
  exact (hxor owner).1 id channel hch

theorem rooted_of_finish :
    ∃ channel, rendered.view.channels.get? rootChannel = some channel ∧
      channel.parent = rootChannel ∧ channel.scope = Scope.root := by
  obtain ⟨⟨issued, hgrd⟩, -⟩ := grounded_of_finish hiss hok
  obtain ⟨-, hrtd, -, -, -, rfl⟩ := finish_eq_ok hok
  rw [hgrd.rooted] at hrtd
  obtain ⟨root, hroot⟩ := isSome_iff_exists.mp hrtd
  exact ⟨root, hroot, hgrd.root root hroot⟩

theorem sound_of_render (hsee : observations connection = some see) :
    ∃ apart, rendered.Sound connection see apart := by
  have hxor := Rendered.shared_xor_private hok
  have hrtd := rooted_of_finish hiss hok
  obtain ⟨⟨issued, hgrd⟩, hnotShared⟩ := grounded_of_finish hiss hok
  obtain ⟨-, -, -, hrefs, -, rfl⟩ := finish_eq_ok hok
  refine ⟨((new ids shard).render calls).isPrivate,
    fun id hid => hnotShared id ⟨connection, hid⟩, (hxor connection).2, hnotShared, hrtd,
    hgrd.parent, hgrd.anchored, hgrd.user, fun id hid => ?_⟩
  unfold Rendered.overlayOf OrderedMap.find? at hid ⊢
  cases hget : ((new ids shard).render calls).overlays.get? connection with
  | none =>
    rw [hget] at hid
    rcases hid with ⟨session, user, huser, -⟩ | ⟨key, channel, hch, -⟩
    · cases huser
    · cases hch
  | some entry =>
    rw [hget] at hid
    obtain ⟨hmem, rfl⟩ := get?_eq_some_iff.mp hget
    have hof : observations.of entry.1 = see := by simp [Observations.of, hsee]
    rw [← hof]
    exact Build.checkOverlayReferences_eq_none hrefs hmem hid

end

end Accepted

namespace Rendered

variable {rendered : Rendered} {connection : ConnectionId} {see : ScopeSet}
  {apart : ChannelId → Prop}

theorem channels_composedFor (rendered : Rendered) (connection : ConnectionId) (see : ScopeSet)
    (id : ChannelId) : (rendered.composedFor connection see).channels.get? id =
      ((rendered.overlayOf connection).channels.get? id).or
        ((rendered.view.channels.get? id).filter fun channel => see.sees channel.scope) := by
  simp only [composedFor, ShardView.compose, ShardView.restrict, get?_extend, get?_filter]

theorem users_composedFor (rendered : Rendered) (connection : ConnectionId) (see : ScopeSet)
    (session : SessionId) : (rendered.composedFor connection see).users.get? session =
      ((rendered.overlayOf connection).users.get? session).or
        ((rendered.view.users.get? session).filter fun user => see.sees user.scope) := by
  simp only [composedFor, ShardView.compose, ShardView.restrict, get?_extend, get?_filter]

theorem composed_of_overlay {id : ChannelId}
    (h : (rendered.overlayOf connection).channels.contains id = true) :
    (rendered.composedFor connection see).channels.contains id = true := by
  obtain ⟨channel, hget⟩ := contains_iff.mp h
  exact contains_iff.mpr ⟨channel, by rw [channels_composedFor, hget]; rfl⟩

namespace Sound

variable {id : ChannelId}

section

variable (hsnd : rendered.Sound connection see apart)

include hsnd

theorem composed_of_view {channel : Channel}
    (hget : rendered.view.channels.get? id = some channel) (hsees : see.sees channel.scope = true) :
    (rendered.composedFor connection see).channels.get? id = some channel := by
  have hnone : (rendered.overlayOf connection).channels.get? id = none := by
    by_contra hsome
    obtain ⟨other, hoth⟩ := ne_none_iff_exists'.mp hsome
    have habsent := hsnd.disjoint id (contains_iff.mpr ⟨other, hoth⟩)
    rw [hget] at habsent
    cases habsent
  rw [channels_composedFor, hnone, hget]
  simp [hsees]

theorem composed_of_hangs {scope : Scope}
    (h : Hangs rendered.view scope id) (hsees : see.sees scope = true) :
    (rendered.composedFor connection see).channels.contains id = true := by
  obtain ⟨channel, hget, hprefix⟩ := h
  exact contains_iff.mpr
    ⟨channel, hsnd.composed_of_view hget (ScopeSet.sees_of_prefix hprefix hsees)⟩

theorem composed_of_reference (h : (rendered.overlayOf connection).channels.contains id = true ∨
      ∃ channel, rendered.view.channels.get? id = some channel ∧
        see.sees channel.scope = true) :
    (rendered.composedFor connection see).channels.contains id = true := by
  rcases h with hin | ⟨channel, hget, hsees⟩
  · exact composed_of_overlay hin
  · exact contains_iff.mpr ⟨channel, hsnd.composed_of_view hget hsees⟩

theorem composed_of_anchor {scope : Scope}
    (hanchor : Hangs rendered.view scope id ∨ apart id) (hsees : see.sees scope = true)
    (hheld : rendered.view.channels.contains id = false →
      (rendered.overlayOf connection).channels.contains id = true) :
    (rendered.composedFor connection see).channels.contains id = true := by
  rcases hanchor with hhangs | hapart
  · exact hsnd.composed_of_hangs hhangs hsees
  · exact composed_of_overlay (hheld (contains_eq_false_iff.mpr (hsnd.notShared id hapart)))

section

variable (hrtd : rendered.PrivatelyRooted connection see)

include hrtd

theorem parent_held {channel : Channel}
    (h : (rendered.composedFor connection see).channels.get? id = some channel) :
    (rendered.composedFor connection see).channels.contains channel.parent = true := by
  rw [channels_composedFor] at h
  rcases or_eq_some_iff.mp h with hpriv | ⟨-, hshr⟩
  · exact hsnd.composed_of_reference (hsnd.reference _ (Or.inr ⟨id, channel, hpriv, rfl⟩))
  · obtain ⟨hget, hsees⟩ := filter_eq_some_iff.mp hshr
    exact hsnd.composed_of_anchor (hsnd.parent id channel hget) hsees
      (hrtd.channel id channel hget hsees)

theorem channel_held {session : SessionId} {user : User}
    (h : (rendered.composedFor connection see).users.get? session = some user) :
    (rendered.composedFor connection see).channels.contains user.channel = true := by
  rw [users_composedFor] at h
  rcases or_eq_some_iff.mp h with hpriv | ⟨-, hshr⟩
  · exact hsnd.composed_of_reference (hsnd.reference _ (Or.inl ⟨session, user, hpriv, rfl⟩))
  · obtain ⟨hget, hsees⟩ := filter_eq_some_iff.mp hshr
    exact hsnd.composed_of_anchor (hsnd.user session user hget) hsees
      (hrtd.user session user hget hsees)

theorem walk_held (n : ℕ) (h : (rendered.composedFor connection see).channels.contains id = true) :
    ∃ j, walk (rendered.composedFor connection see).parentOf n id = some j ∧
      (rendered.composedFor connection see).channels.contains j = true := by
  induction n generalizing id with
  | zero => exact ⟨id, rfl, h⟩
  | succ n ih =>
    obtain ⟨channel, hget⟩ := contains_iff.mp h
    obtain ⟨j, hj, hheld⟩ := ih (hsnd.parent_held hrtd hget)
    refine ⟨j, ?_, hheld⟩
    simp only [walk, ShardView.parentOf, hget, map_some, bind_some]
    exact hj

end

theorem reaches_of_shared (hanchored : Anchored rendered.view apart id)
    (hshr : ∀ n, ∃ j channel, walk (rendered.composedFor connection see).parentOf n id = some j ∧
      rendered.view.channels.get? j = some channel ∧ see.sees channel.scope = true) :
    ∃ n, walk (rendered.composedFor connection see).parentOf n id = some rootChannel := by
  induction hanchored with
  | root _ => exact ⟨0, rfl⟩
  | @apart id hid =>
    obtain ⟨j, channel, hj, hget, -⟩ := hshr 0
    obtain rfl : id = j := some.inj hj
    rw [hsnd.notShared id hid] at hget
    cases hget
  | @step id channel hget _ ih =>
    obtain ⟨j, channel', hj, hget', hsees⟩ := hshr 0
    obtain rfl : id = j := some.inj hj
    obtain rfl : channel = channel' := some.inj (hget.symm.trans hget')
    have hstep : ∀ n, walk (rendered.composedFor connection see).parentOf (n + 1) id =
        walk (rendered.composedFor connection see).parentOf n channel.parent := by
      intro n
      simp only [walk, ShardView.parentOf, hsnd.composed_of_view hget hsees, map_some, bind_some]
    obtain ⟨n, hn⟩ := ih fun n => hstep n ▸ hshr (n + 1)
    exact ⟨n + 1, (hstep n).trans hn⟩

theorem reaches_root (hrtd : rendered.PrivatelyRooted connection see)
    (h : (rendered.composedFor connection see).channels.contains id = true) :
    ∃ n, walk (rendered.composedFor connection see).parentOf n id = some rootChannel := by
  have hpoints : ∀ n, ∃ j ∈ (rendered.composedFor connection see).channels.rows.map Channel.id,
      walk (rendered.composedFor connection see).parentOf n id = some j := by
    intro n
    obtain ⟨j, hj, hheld⟩ := hsnd.walk_held hrtd n h
    obtain ⟨channel, hget⟩ := contains_iff.mp hheld
    exact ⟨j, mem_map.mpr ⟨channel, mem_of_get? hget, key_of_get? hget⟩, hj⟩
  obtain ⟨i, period, hpos, hperiod⟩ := walk_periodic hpoints
  have hcircle : ∀ m, ∃ j channel,
      walk (rendered.composedFor connection see).parentOf (i + m) id = some j ∧
      rendered.view.channels.get? j = some channel ∧ see.sees channel.scope = true := by
    intro m
    obtain ⟨j, hj, hheld⟩ := hsnd.walk_held hrtd (i + m) h
    have hreturn : walk (rendered.composedFor connection see).parentOf period j = some j := by
      have hmeet := hperiod m
      rwa [walk_add, hj] at hmeet
    obtain ⟨channel, hget⟩ := contains_iff.mp hheld
    rw [channels_composedFor] at hget
    rcases or_eq_some_iff.mp hget with hpriv | ⟨-, hshr⟩
    · exact absurd hreturn (hrtd.acyclic j (contains_iff.mpr ⟨channel, hpriv⟩) period hpos)
    · obtain ⟨hview, hsees⟩ := filter_eq_some_iff.mp hshr
      exact ⟨j, channel, hj, hview, hsees⟩
  obtain ⟨start, channel, hstart, hget, -⟩ := hcircle 0
  obtain ⟨n, hn⟩ := hsnd.reaches_of_shared (hsnd.anchored start channel hget) fun n => by
    obtain ⟨j, other, hj, hoth⟩ := hcircle n
    refine ⟨j, other, ?_, hoth⟩
    rwa [walk_add, show walk _ i id = some start from hstart] at hj
  exact ⟨i + n, by rw [walk_add, show walk _ i id = some start from hstart]; exact hn⟩

theorem rootedTree (hrtd : rendered.PrivatelyRooted connection see) :
    (rendered.composedFor connection see).RootedTree where
  user _ _ h := hsnd.channel_held hrtd h
  parent _ _ h := hsnd.parent_held hrtd h
  rooted _ channel h := hsnd.reaches_root hrtd (contains_iff.mpr ⟨channel, h⟩)

theorem root_not_private
    (h : (rendered.overlayOf connection).channels.contains id = true) : id ≠ rootChannel := by
  rintro rfl
  obtain ⟨root, hroot, -⟩ := hsnd.root
  rw [hsnd.disjoint _ h] at hroot
  cases hroot

theorem parentOf_root
    (h : (rendered.composedFor connection see).channels.contains rootChannel = true) :
    (rendered.composedFor connection see).parentOf rootChannel = some rootChannel := by
  obtain ⟨root, hroot, hpar, -⟩ := hsnd.root
  obtain ⟨channel, hget⟩ := contains_iff.mp h
  have hentry := hget
  rw [channels_composedFor] at hget
  rcases or_eq_some_iff.mp hget with hpriv | ⟨-, hshr⟩
  · exact absurd rfl (hsnd.root_not_private (contains_iff.mpr ⟨channel, hpriv⟩))
  · obtain ⟨hview, -⟩ := filter_eq_some_iff.mp hshr
    obtain rfl : root = channel := some.inj (hroot.symm.trans hview)
    rw [ShardView.parentOf, hentry, map_some, hpar]

end

theorem held_of_reaches (htree : (rendered.composedFor connection see).RootedTree)
    (h : (rendered.composedFor connection see).channels.contains id = true) (n : ℕ) {j : ChannelId}
    (hj : walk (rendered.composedFor connection see).parentOf n id = some j) :
    (rendered.composedFor connection see).channels.contains j = true := by
  induction n generalizing id with
  | zero =>
    obtain rfl : id = j := some.inj hj
    exact h
  | succ n ih =>
    obtain ⟨channel, hget⟩ := contains_iff.mp h
    refine ih (htree.parent id channel hget) ?_
    simpa only [walk, ShardView.parentOf, hget, map_some, bind_some] using hj

theorem acyclic_of_tree (hsnd : rendered.Sound connection see apart)
    (htree : (rendered.composedFor connection see).RootedTree)
    (h : (rendered.overlayOf connection).channels.contains id = true) {n : ℕ} (hn : 0 < n) :
    walk (rendered.composedFor connection see).parentOf n id ≠ some id := by
  intro hcircle
  have hheld : (rendered.composedFor connection see).channels.contains id = true :=
    composed_of_overlay h
  obtain ⟨channel, hget⟩ := contains_iff.mp hheld
  obtain ⟨m, hm⟩ := htree.rooted id channel hget
  have hroot : ∀ k, walk (rendered.composedFor connection see).parentOf k rootChannel =
      some rootChannel :=
    walk_fixed (hsnd.parentOf_root (held_of_reaches htree hheld m hm))
  have hround := walk_circle hcircle m
  obtain ⟨d, hd⟩ := Nat.exists_eq_add_of_le (Nat.le_mul_of_pos_left m hn)
  rw [hd, walk_add, hm, bind_some, hroot] at hround
  exact hsnd.root_not_private h (some.inj hround).symm

theorem privatelyRooted (hsnd : rendered.Sound connection see apart)
    (htree : (rendered.composedFor connection see).RootedTree) :
    rendered.PrivatelyRooted connection see := by
  have hpriv : ∀ id, rendered.view.channels.contains id = false →
      (rendered.composedFor connection see).channels.contains id = true →
      (rendered.overlayOf connection).channels.contains id = true := by
    intro id hnone hheld
    obtain ⟨channel, hget⟩ := contains_iff.mp hheld
    rw [channels_composedFor, contains_eq_false_iff.mp hnone] at hget
    exact contains_iff.mpr ⟨channel, by simpa using hget⟩
  refine ⟨fun id channel hget hsees hnone => ?_, fun session user hget hsees hnone => ?_,
    fun id h n hn => hsnd.acyclic_of_tree htree h hn⟩
  · exact hpriv _ hnone (htree.parent id channel (hsnd.composed_of_view hget hsees))
  · refine hpriv _ hnone (htree.user session user ?_)
    rw [users_composedFor, hget]
    cases hov : (rendered.overlayOf connection).users.get? session with
    | none => simp [hsees]
    | some other =>
      rw [hsnd.disjointUser session other hov] at hget
      cases hget

end Sound

end Rendered

/-- One step of `descends_from`: where the walk goes on, if it does. -/
def Shard.descendsNext (shard : Shard) (attached : AttachedConnection) (root current : ChannelId) :
    Option ChannelId :=
  if current = root then none
  else
    match shard.visibleChannel attached current with
    | none => none
    | some rendered => if rendered.parent = current then none else some rendered.parent

theorem Shard.descendsFromWithin_eq_none_iff (shard : Shard) (attached : AttachedConnection)
    (root : ChannelId) (fuel : ℕ) (current : ChannelId) :
    shard.descendsFromWithin attached root fuel current = none ↔
      walk (shard.descendsNext attached root) fuel current ≠ none := by
  induction fuel generalizing current with
  | zero => simp [descendsFromWithin, walk]
  | succ fuel ih =>
    simp only [descendsFromWithin, walk, descendsNext]
    split_ifs with hroot
    · simp
    · cases shard.visibleChannel attached current with
      | none => simp
      | some rendered =>
        dsimp only
        split_ifs
        · simp
        · exact ih _

theorem Shard.descendsFrom_isSome {shard : Shard} {attached : AttachedConnection}
    {rendered : Rendered} (hview : shard.view = rendered.view) (hheld : attached.held = none)
    (hov : attached.overlaySent = rendered.overlayOf attached.id) {apart : ChannelId → Prop}
    (hsnd : rendered.Sound attached.id attached.see apart)
    (htree : (rendered.composedFor attached.id attached.see).RootedTree)
    (channel root : ChannelId) : (shard.descendsFrom attached channel root).isSome = true := by
  have hvisible : ∀ id, shard.visibleChannel attached id =
      (rendered.composedFor attached.id attached.see).channels.get? id := by
    intro id
    rw [visibleChannel, hview, hheld, hov, Rendered.channels_composedFor]
    cases hpriv : (rendered.overlayOf attached.id).channels.get? id with
    | none => simp
    | some other =>
      rw [hsnd.disjoint id (contains_iff.mpr ⟨other, hpriv⟩)]
      rfl
  have hnext : ∀ k j, shard.descendsNext attached root k = some j →
      (rendered.composedFor attached.id attached.see).parentOf k = some j ∧ j ≠ k := by
    intro k j h
    simp only [descendsNext, hvisible] at h
    split_ifs at h
    split at h
    · cases h
    · rename_i found hfnd
      split_ifs at h with hself
      obtain rfl : found.parent = j := some.inj h
      exact ⟨by rw [ShardView.parentOf, hfnd]; rfl, hself⟩
  have hends : ∃ n, walk (shard.descendsNext attached root) n channel = none := by
    by_contra hnever
    push Not at hnever
    have hfollow : ∀ n j, walk (shard.descendsNext attached root) n channel = some j →
        walk (rendered.composedFor attached.id attached.see).parentOf n channel = some j :=
      fun n j h => walk_mono (fun k l hl => (hnext k l hl).1) n h
    obtain ⟨first, hfst⟩ := ne_none_iff_exists'.mp (hnever 1)
    obtain ⟨hpar, -⟩ := hnext channel first (by simpa [walk] using hfst)
    obtain ⟨found, hfnd, -⟩ := map_eq_some_iff.mp hpar
    obtain ⟨n, hn⟩ := htree.rooted channel found hfnd
    obtain ⟨j, hj⟩ := ne_none_iff_exists'.mp (hnever n)
    obtain rfl : j = rootChannel := some.inj ((hfollow n j hj).symm.trans hn)
    obtain ⟨past, hpast⟩ := ne_none_iff_exists'.mp (hnever (n + 1))
    rw [walk_succ, hj, bind_some] at hpast
    obtain ⟨hup, hne⟩ := hnext _ _ hpast
    obtain ⟨last, hlast, -⟩ := map_eq_some_iff.mp hup
    rw [hsnd.parentOf_root (contains_iff.mpr ⟨last, hlast⟩)] at hup
    exact hne (some.inj hup).symm
  have hpoints : ∀ k j, shard.descendsNext attached root k = some j →
      k ∈ shard.view.channels.rows.map Channel.id ++
        attached.overlaySent.channels.rows.map Channel.id := by
    intro k j h
    obtain ⟨found, hfnd, -⟩ := map_eq_some_iff.mp (hnext k j h).1
    rw [Rendered.channels_composedFor, ← hview, ← hov] at hfnd
    rcases or_eq_some_iff.mp hfnd with hpriv | ⟨-, hshr⟩
    · exact mem_append_right _ (mem_map.mpr ⟨found, mem_of_get? hpriv, key_of_get? hpriv⟩)
    · obtain ⟨hget, -⟩ := filter_eq_some_iff.mp hshr
      exact mem_append_left _ (mem_map.mpr ⟨found, mem_of_get? hget, key_of_get? hget⟩)
  have hfuel : walk (shard.descendsNext attached root) (shard.descendsFuel attached) channel =
      none := by
    refine walk_none_of_le (walk_ends_within hpoints hends) ?_
    simp only [descendsFuel, hheld, length_append, length_map, map_none, getD_none]
    omega
  rw [isSome_iff_ne_none, descendsFrom, Ne, descendsFromWithin_eq_none_iff]
  exact fun h => h hfuel

/-- What a connection holds of an accepted render is a rooted tree exactly when
its private channels make no circle and hold up the shared elements that hang
from them; `descends_from` then ends on it. -/
theorem composed_rooted_iff {ids : IdAllocator} {shard : ShardId} {calls : List BuildCall}
    {observations : Observations} {rendered : Rendered} {connection : ConnectionId} {see : ScopeSet}
    (hissued : HandlesIssued (fun builder call => (builder.call call).1)
      (ShardBuilder.new ids shard) [] calls)
    (hok : ((ShardBuilder.new ids shard).render calls).finish observations = .ok rendered)
    (hsee : observations connection = some see) :
    ((rendered.composedFor connection see).RootedTree ↔
        rendered.PrivatelyRooted connection see) ∧
      (rendered.PrivatelyRooted connection see →
        ∀ (host : Shard) (attached : AttachedConnection), host.view = rendered.view →
          attached.id = connection → attached.see = see → attached.held = none →
          attached.overlaySent = rendered.overlayOf connection →
          ∀ channel root, (host.descendsFrom attached channel root).isSome = true) := by
  obtain ⟨apart, hsnd⟩ := sound_of_render hissued hok hsee
  refine ⟨⟨hsnd.privatelyRooted, hsnd.rootedTree⟩, ?_⟩
  rintro hrtd host attached hview rfl rfl hheld hov channel root
  exact Shard.descendsFrom_isSome hview hheld hov hsnd (hsnd.rootedTree hrtd) channel root

def observesDen : Observations := fun connection => if connection = 1 then some denSee else none

def nookCalls : List BuildCall :=
  [.root "Lobby", .privately 1 [.channel ⟨rootChannel, Scope.root⟩ 5 "Nook"]]

def nookBuilder : ShardBuilder := (ShardBuilder.new IdAllocator.new 0).render nookCalls

theorem nookCalls_issued : HandlesIssued (fun builder call => (builder.call call).1)
    (new IdAllocator.new 0) [] nookCalls := by
  refine ⟨?_, ?_, trivial⟩ <;>
  · intro handle hhdl
    cases hhdl

theorem nook_privatelyRooted : (Rendered.ofBuilder nookBuilder).PrivatelyRooted 1 denSee := by
  have hparents : ∀ channel ∈ nookBuilder.view.channels.rows,
      nookBuilder.view.channels.contains channel.parent = true := by decide +kernel
  have husr : nookBuilder.view.users = empty := rfl
  refine ⟨?_, ?_, ?_⟩
  · intro id channel hget _ hnone
    rw [show (Rendered.ofBuilder nookBuilder).view = nookBuilder.view from rfl,
      hparents channel (mem_of_get? hget)] at hnone
    cases hnone
  · intro session user hget
    cases hget
  · intro id hid n hn hcircle
    have hrows : ∀ channel ∈ ((Rendered.ofBuilder nookBuilder).overlayOf 1).channels.rows,
        channel.id = 1 := by decide +kernel
    obtain ⟨channel, hget⟩ := contains_iff.mp hid
    obtain rfl : 1 = id :=
      (hrows channel (mem_of_get? hget)).symm.trans (key_of_get? hget)
    have hroot := walk_fixed
      (show ((Rendered.ofBuilder nookBuilder).composedFor 1 denSee).parentOf rootChannel =
        some rootChannel by decide +kernel)
    obtain ⟨m, rfl⟩ := Nat.exists_eq_add_of_le hn
    rw [walk_add, show walk _ 1 1 = some rootChannel by decide +kernel, bind_some,
      hroot m] at hcircle
    cases hcircle

theorem composed_rooted_iff_nook :
    ((Rendered.ofBuilder nookBuilder).composedFor 1 denSee).RootedTree :=
  (composed_rooted_iff nookCalls_issued (show nookBuilder.finish observesDen = .ok _ from rfl)
    rfl).1.mpr nook_privatelyRooted

/-- A private channel declared twice: once in the root, once in its own child. -/
def circleCalls : List BuildCall :=
  [.root "Lobby",
    .privately 1 [.channel ⟨rootChannel, Scope.root⟩ 5 "Den"],
    .privately 1 [.channel ⟨1, Scope.root⟩ 6 "Nook"],
    .privately 1 [.channel ⟨2, Scope.root⟩ 5 "Den"]]

def circleBuilder (steps : ℕ) : ShardBuilder :=
  (ShardBuilder.new IdAllocator.new 0).render (circleCalls.take steps)

def circleReader : AttachedConnection where
  id := 1
  session := 1
  cursor := 0
  see := denSee
  overlaySent := (circleBuilder 4).overlayOf 1
  actionsSent := Table.empty
  held := none
  ready := false
  queue := OutboundQueue.withCapacity 4
  sharedCursor := 0

theorem circleCalls_issued : HandlesIssued (fun builder call => (builder.call call).1)
    (new IdAllocator.new 0) [] circleCalls := by
  refine ⟨?_, ?_, ?_, ?_, trivial⟩ <;>
  · intro handle hhdl
    cases hhdl

/-- Every handle used is one the builder returned, the render is accepted, and
what the connection holds has a circle that `descends_from` never leaves. -/
theorem private_circle_accepted :
    HandlesIssued (fun builder call => (builder.call call).1)
      (ShardBuilder.new IdAllocator.new 0) [] circleCalls ∧
    ((circleCalls.zipIdx.map fun entry => ((circleBuilder entry.2).call entry.1).1) =
      [[⟨rootChannel, Scope.root⟩], [⟨1, Scope.root⟩], [⟨2, Scope.root⟩], [⟨1, Scope.root⟩]]) ∧
    (circleBuilder 4).finish observesDen = .ok (Rendered.ofBuilder (circleBuilder 4)) ∧
    ¬((Rendered.ofBuilder (circleBuilder 4)).composedFor 1 denSee).RootedTree ∧
    { Shard.new 0 with view := (circleBuilder 4).view }.descendsFrom circleReader 1 rootChannel =
      none := by
  have hok : (circleBuilder 4).finish observesDen =
      .ok (Rendered.ofBuilder (circleBuilder 4)) := rfl
  refine ⟨circleCalls_issued, by decide +kernel, hok, ?_, by decide +kernel⟩
  intro htree
  obtain ⟨apart, hsnd⟩ := sound_of_render circleCalls_issued hok (show observesDen 1 = some denSee from rfl)
  have hpriv : ((Rendered.ofBuilder (circleBuilder 4)).overlayOf 1).channels.contains 1 =
      true := by decide +kernel
  exact hsnd.acyclic_of_tree htree hpriv (by decide : 0 < 2) (by decide +kernel)

end MumbleRuntime
