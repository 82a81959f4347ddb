import MumbleRuntime.PlanOrder
import MumbleRuntime.Convergence

/-!
# The tree a client holds, one operation at a time

A client holds a forest of channels with users in them. Each operation of a plan
sets one element of it, and the operations of a transition bring their elements
to the state of the target view, so the client after a prefix holds the mix of
the two views in which the elements of the prefix are new.
-/

namespace MumbleRuntime
open Library PlanOp List Plan
open Option hiding map_map
open Forest Function

variable {client : ClientModel}

namespace ClientModel

def forest (client : ClientModel) : Forest ChannelId SessionId where
  parent id := (client.channels.get? id).map ClientChannel.parent
  place session := (client.users.get? session).map ClientUser.channel

theorem forest_isSome (client : ClientModel) (id : ChannelId) :
    (client.forest.parent id).isSome = client.channels.contains id :=
  isSome_map ..

/-- Each user's channel and each channel's parent exists, and no channel is its
own ancestor. -/
def Valid (client : ClientModel) : Prop := client.forest.Sound

def Spares (client : ClientModel) : PlanOp → Prop
  | .removeChannel id => client.forest.Vacant id
  | _ => True

def Bears (client : ClientModel) : List PlanOp → Prop
  | [] => client.Valid
  | op :: rest => client.Valid ∧ client.Spares op ∧ (client.applyOp op).Bears rest

variable {ops : List PlanOp}

theorem Bears.valid (h : client.Bears ops) : client.Valid := by
  cases ops with
  | nil => exact h
  | cons op rest => exact h.1

theorem Bears.take (h : client.Bears ops) (n : ℕ) : (client.applyOps (ops.take n)).Valid := by
  induction ops generalizing client n with
  | nil =>
    rw [take_nil]
    exact h
  | cons op rest ih =>
    cases n with
    | zero => exact h.1
    | succ n => exact ih h.2.2 n

theorem Bears.last (h : client.Bears ops) : (client.applyOps ops).Valid := by
  have hall := h.take ops.length
  rwa [take_length] at hall

end ClientModel

variable {old new : Forest ChannelId SessionId}

namespace PlanOp

def site : PlanOp → Option (ChannelId ⊕ SessionId)
  | .createChannel channel => some (.inl channel.id)
  | .updateChannel patch => some (.inl patch.id)
  | .addUser user => some (.inr user.session)
  | .moveUser session _ => some (.inr session)
  | .updateUser _ => none
  | .removeUser session => some (.inr session)
  | .removeChannel id => some (.inl id)

def channelSite (op : PlanOp) : Option ChannelId := op.site.bind Sum.getLeft?

def userSite (op : PlanOp) : Option SessionId := op.site.bind Sum.getRight?

variable {op : PlanOp}

theorem site_of_channelSite {n : ChannelId} (h : op.channelSite = some n) :
    op.site = some (.inl n) := by
  obtain ⟨e, hsite, hleft⟩ := bind_eq_some_iff.mp h
  rw [hsite, Sum.getLeft?_eq_some_iff.mp hleft]

theorem filterMap_site_channels {ops : List PlanOp} (h : ∀ op ∈ ops, ∀ r, op.site ≠ some (.inr r)) :
    ops.filterMap site = (ops.filterMap channelSite).map .inl := by
  rw [map_filterMap]
  refine filterMap_congr fun op hop => ?_
  rcases hsite : op.site with _ | n | r
  · simp [channelSite, hsite]
  · simp [channelSite, hsite]
  · exact absurd hsite (h op hop r)

theorem filterMap_site_users {ops : List PlanOp} (h : ∀ op ∈ ops, ∀ n, op.site ≠ some (.inl n)) :
    ops.filterMap site = (ops.filterMap userSite).map .inr := by
  rw [map_filterMap]
  refine filterMap_congr fun op hop => ?_
  rcases hsite : op.site with _ | n | r
  · simp [userSite, hsite]
  · exact absurd hsite (h op hop n)
  · simp [userSite, hsite]

def act (forest : Forest ChannelId SessionId) : PlanOp → Forest ChannelId SessionId
  | .createChannel channel =>
    ⟨Function.update forest.parent channel.id (some channel.shown.parent), forest.place⟩
  | .updateChannel patch =>
    ⟨Function.update forest.parent patch.id ((forest.parent patch.id).map fun parent =>
      if patch.id = rootChannel then parent else patch.parent.or parent), forest.place⟩
  | .addUser user =>
    ⟨forest.parent, Function.update forest.place user.session (some user.channel)⟩
  | .moveUser session channel =>
    ⟨forest.parent, Function.update forest.place session
      ((forest.place session).map fun _ => channel)⟩
  | .updateUser _ => forest
  | .removeUser session => ⟨forest.parent, Function.update forest.place session none⟩
  | .removeChannel id => ⟨Function.update forest.parent id none, forest.place⟩

/-- The operation brings its element to the state of `new`, from there or from
the state of `old`. -/
structure Settles (old new : Forest ChannelId SessionId) (op : PlanOp) : Prop where
  channel : ∀ n, op.site = some (.inl n) → ∀ forest : Forest ChannelId SessionId,
    forest.parent n = old.parent n ∨ forest.parent n = new.parent n →
    (op.act forest).parent n = new.parent n
  user : ∀ r, op.site = some (.inr r) → ∀ forest : Forest ChannelId SessionId,
    forest.place r = old.place r ∨ forest.place r = new.place r →
    (op.act forest).place r = new.place r
  stays : ∀ n, op.site = some (.inl n) → op.isRemoval = false → (new.parent n).isSome = true

theorem act_parent {n : ChannelId} (h : op.site ≠ some (.inl n))
    (forest : Forest ChannelId SessionId) : (op.act forest).parent n = forest.parent n := by
  cases op with
  | createChannel channel
  | updateChannel patch
  | removeChannel id => exact update_of_ne (fun heq => h (by rw [heq]; rfl)) _ _
  | _ => rfl

theorem act_place {r : SessionId} (h : op.site ≠ some (.inr r))
    (forest : Forest ChannelId SessionId) : (op.act forest).place r = forest.place r := by
  cases op with
  | addUser user
  | moveUser session channel
  | removeUser session => exact update_of_ne (fun heq => h (by rw [heq]; rfl)) _ _
  | _ => rfl

section Settling

variable {old new : Forest ChannelId SessionId}

theorem settles_create {channel : Channel} (h : new.parent channel.id = some channel.shown.parent) :
    (createChannel channel).Settles old new := by
  refine ⟨fun n hsite forest _ => ?_, fun r hsite => (by cases hsite), fun n hsite _ => ?_⟩
  · cases hsite
    rw [h]
    exact update_self ..
  · cases hsite
    rw [h]
    rfl

theorem patched_parent {before after : Channel} (hid : before.id = after.id)
    {parent : Option ChannelId} (h : parent = before.shown.parent ∨ parent = after.shown.parent) :
    (if (channelPatch before after).id = rootChannel then parent
      else (channelPatch before after).parent.or parent) = after.shown.parent := by
  simp only [Channel.shown, hid] at h
  simp only [channelPatch, changed, Channel.shown]
  by_cases hroot : after.id = rootChannel
  · simpa [hroot] using h
  · by_cases hpar : before.parent = after.parent
    · simpa [hroot, hpar] using h
    · simp [hroot, hpar]

theorem settles_update {before after : Channel} (hid : before.id = after.id)
    (hold : old.parent after.id = some before.shown.parent)
    (hnew : new.parent after.id = some after.shown.parent) :
    (updateChannel (channelPatch before after)).Settles old new := by
  refine ⟨fun n hsite forest hforest => ?_, fun r hsite => (by cases hsite), fun n hsite _ => ?_⟩
  · cases hsite
    change forest.parent after.id = old.parent after.id ∨
      forest.parent after.id = new.parent after.id at hforest
    change update forest.parent after.id ((forest.parent after.id).map _) after.id =
      new.parent after.id
    rw [hold, hnew] at hforest
    rw [update_self, hnew]
    rcases hforest with heq | heq
    · rw [heq]
      exact congrArg some (patched_parent hid (.inl rfl))
    · rw [heq]
      exact congrArg some (patched_parent hid (.inr rfl))
  · cases hsite
    change (new.parent after.id).isSome = true
    rw [hnew]
    rfl

theorem settles_drop {id : ChannelId} (h : new.parent id = none) :
    (removeChannel id).Settles old new := by
  refine ⟨fun n hsite forest _ => ?_, fun r hsite => (by cases hsite), fun n _ hnot => ?_⟩
  · cases hsite
    rw [h]
    exact update_self ..
  · cases hnot

theorem settles_user {op : PlanOp} {r : SessionId} (hsite : op.site = some (.inr r))
    (h : ∀ forest : Forest ChannelId SessionId,
      forest.place r = old.place r ∨ forest.place r = new.place r →
      (op.act forest).place r = new.place r) : op.Settles old new := by
  refine ⟨fun n hn => ?_, fun r' hr' => ?_, fun n hn => ?_⟩
  · rw [hsite] at hn
    cases hn
  · rw [hsite] at hr'
    cases hr'
    exact h
  · rw [hsite] at hn
    cases hn

theorem settles_add {user : User} (h : new.place user.session = some user.channel) :
    (addUser user).Settles old new := by
  refine settles_user rfl fun forest _ => ?_
  rw [h]
  exact update_self ..

theorem settles_move {session : SessionId} {left entered : ChannelId}
    (hold : old.place session = some left) (hnew : new.place session = some entered) :
    (moveUser session entered).Settles old new := by
  refine settles_user rfl fun forest hforest => ?_
  rw [hold, hnew] at hforest
  change update forest.place session ((forest.place session).map _) session = _
  rw [update_self, hnew]
  rcases hforest with heq | heq
  · rw [heq]
    rfl
  · rw [heq]
    rfl

theorem settles_updateUser {patch : UserPatch} : (updateUser patch).Settles old new :=
  ⟨fun n hn => (by cases hn), fun r hr => (by cases hr), fun n hn => (by cases hn)⟩

theorem settles_leave {session : SessionId} (h : new.place session = none) :
    (removeUser session).Settles old new := by
  refine settles_user rfl fun forest _ => ?_
  rw [h]
  exact update_self ..

end Settling

theorem Settles.act_mix (h : op.Settles old new) (done : List (ChannelId ⊕ SessionId)) :
    op.act (mix old new done) = mix old new (done ++ op.site.toList) := by
  cases hsite : op.site with
  | none =>
    cases op with
    | updateUser patch => rw [toList_none, append_nil]; rfl
    | _ => cases hsite
  | some e =>
    rw [toList_some]
    cases e with
    | inl n =>
      rw [mix_node]
      refine Forest.ext (funext fun m => ?_) (funext fun r => act_place (by simp [hsite]) _)
      by_cases hm : m = n
      · subst hm
        rw [h.channel m hsite _ (mix_parent_cases old new done m)]
        simp
      · rw [act_parent (by rw [hsite]; exact fun heq => hm (by cases heq; rfl))]
        simp [hm]
    | inr r =>
      rw [mix_resident]
      refine Forest.ext (funext fun n => act_parent (by simp [hsite]) _) (funext fun s => ?_)
      by_cases hs : s = r
      · subst hs
        rw [h.user s hsite _ (mix_place_cases old new done s)]
        simp
      · rw [act_place (by rw [hsite]; exact fun heq => hs (by cases heq; rfl))]
        simp [hs]

end PlanOp

variable {done : List (ChannelId ⊕ SessionId)}

namespace ClientModel

theorem forest_applyOp (client : ClientModel) (op : PlanOp) :
    (client.applyOp op).forest = op.act client.forest := by
  refine Forest.ext (funext fun id => ?_) (funext fun session => ?_)
  · change ((client.applyOp op).channels.get? id).map ClientChannel.parent = _
    rw [applyOp_channels]
    cases op with
    | createChannel channel =>
      by_cases h : channel.id = id
      · simp [channelWrite, act, Write.run, h]
      · simp [channelWrite, act, forest, h, Ne.symm h]
    | updateChannel patch =>
      by_cases h : patch.id = id
      · simp only [channelWrite, act, Write.run, forest, h, if_true, map_some,
          getD_some, update_self, Option.map_map]
        simp only [comp_def, ChannelPatch.amend, h]
      · simp [channelWrite, act, forest, h, Ne.symm h]
    | removeChannel removed =>
      by_cases h : removed = id
      · simp [channelWrite, act, Write.run, h]
      · simp [channelWrite, act, forest, h, Ne.symm h]
    | _ => rfl
  · change ((client.applyOp op).users.get? session).map ClientUser.channel = _
    rw [applyOp_users]
    cases op with
    | addUser user =>
      by_cases h : user.session = session
      · simp [userWrite, act, Write.run, User.shown, h]
      · simp [userWrite, act, forest, h, Ne.symm h]
    | moveUser moved channel =>
      by_cases h : moved = session
      · simp [userWrite, act, Write.run, forest, h, comp_def]
      · simp [userWrite, act, forest, h, Ne.symm h]
    | updateUser patch =>
      by_cases h : patch.session = session
      · simp [userWrite, act, Write.run, forest, h, comp_def, UserPatch.amend]
      · simp [userWrite, act, forest, h]
    | removeUser removed =>
      by_cases h : removed = session
      · simp [userWrite, act, Write.run, h]
      · simp [userWrite, act, forest, h, Ne.symm h]
    | _ => rfl

variable {ops : List PlanOp}

theorem applyOps_keeps {α : Type*} {f : ClientModel → α}
    (hstep : ∀ client, ∀ op ∈ ops, f (client.applyOp op) = f client) :
    f (client.applyOps ops) = f client :=
  foldlRecOn (motive := fun now => f now = f client) ops applyOp rfl
    fun now hnow op hop => (hstep now op hop).trans hnow

theorem forest_applyOps_parent {n : ChannelId} (h : .inl n ∉ ops.filterMap site) :
    (client.applyOps ops).forest.parent n = client.forest.parent n := by
  refine applyOps_keeps (f := fun client => client.forest.parent n) fun client op hop => ?_
  rw [forest_applyOp, act_parent fun heq => h (mem_filterMap.mpr ⟨op, hop, heq⟩)]

theorem forest_applyOps_place {r : SessionId} (h : .inr r ∉ ops.filterMap site) :
    (client.applyOps ops).forest.place r = client.forest.place r := by
  refine applyOps_keeps (f := fun client => client.forest.place r) fun client op hop => ?_
  rw [forest_applyOp, act_place fun heq => h (mem_filterMap.mpr ⟨op, hop, heq⟩)]

theorem forest_applyOps_mix
    (hforest : client.forest = mix old new done) (hset : ∀ op ∈ ops, op.Settles old new) :
    (client.applyOps ops).forest = mix old new (done ++ ops.filterMap site) := by
  induction ops generalizing client done with
  | nil => rw [filterMap_nil, append_nil, ← hforest]; rfl
  | cons op rest ih =>
    have hnext : (client.applyOp op).forest = mix old new (done ++ op.site.toList) := by
      rw [forest_applyOp, hforest, (hset op mem_cons_self).act_mix]
    have hrest := ih hnext fun other hoth => hset other (mem_cons_of_mem _ hoth)
    change ((client.applyOp op).applyOps rest).forest = _
    rw [hrest, append_assoc]
    cases hsite : op.site with
    | none => rw [filterMap_cons_none hsite]; rfl
    | some e => rw [filterMap_cons_some hsite]; rfl

theorem bears_iff_passable
    (hforest : client.forest = mix old new done) (hset : ∀ op ∈ ops, op.Settles old new) :
    client.Bears ops ↔ Forest.Passable old new done (ops.filterMap site) := by
  induction ops generalizing client done with
  | nil =>
    rw [filterMap_nil, passable_nil, ← hforest]
    exact Iff.rfl
  | cons op rest ih =>
    have hop := hset op mem_cons_self
    have hnext : (client.applyOp op).forest = mix old new (done ++ op.site.toList) := by
      rw [forest_applyOp, hforest, hop.act_mix]
    have hih := ih hnext fun other hoth => hset other (mem_cons_of_mem _ hoth)
    cases hsite : op.site with
    | none =>
      have hspares : client.Spares op := by
        cases op <;> trivial
      rw [hsite, toList_none, append_nil] at hih
      rw [filterMap_cons_none hsite, ← hih]
      refine ⟨fun hbears => hbears.2.2, fun hbears => ⟨?_, hspares, hbears⟩⟩
      have hvalid := hbears.valid
      rw [hsite, toList_none, append_nil] at hnext
      rw [Valid, hnext, ← hforest] at hvalid
      exact hvalid
    | some e =>
      rw [hsite, toList_some] at hih
      rw [filterMap_cons_some hsite, passable_cons, ← hih, ← hforest]
      refine and_congr_right fun _ => and_congr_left fun _ => ?_
      cases hremoval : op.isRemoval with
      | false =>
        have hspares : client.Spares op := by
          cases op <;> trivial
        refine iff_of_true hspares fun n hn hnone => ?_
        have hthr := hop.stays n (by rw [hsite, hn]) hremoval
        rw [hnone] at hthr
        cases hthr
      | true =>
        cases op with
        | removeChannel id =>
          cases hsite
          have hgone : new.parent id = none := by
            rw [← hop.channel id rfl old (.inl rfl)]
            exact update_self ..
          refine ⟨fun hvacant n hn _ => ?_, fun hvacant => hvacant id rfl hgone⟩
          cases hn
          exact hvacant
        | removeUser session =>
          cases hsite
          exact iff_of_true trivial fun n hn _ => by cases hn
        | _ => cases hremoval

end ClientModel

namespace ShardView

theorem forest_shown_parent (view : ShardView) (id : ChannelId) :
    view.shown.forest.parent id = (view.channels.get? id).map fun channel => channel.shown.parent := by
  have hget : view.shown.channels.get? id = (view.channels.get? id).map Channel.shown :=
    (channelCell id).inClient_shown view
  simp only [ClientModel.forest, hget, Option.map_map]
  rfl

theorem forest_shown_place (view : ShardView) (session : SessionId) :
    view.shown.forest.place session = (view.users.get? session).map User.channel := by
  have hget : view.shown.users.get? session = (view.users.get? session).map User.shown :=
    (userCell session).inClient_shown view
  simp only [ClientModel.forest, hget, Option.map_map]
  rfl

theorem forest_shown_isSome (view : ShardView) (id : ChannelId) :
    (view.shown.forest.parent id).isSome = view.channels.contains id := by
  rw [forest_shown_parent, isSome_map]
  rfl

theorem forest_shown_up (view : ShardView) : view.shown.forest.up = view.above := by
  funext id
  rw [up, forest_shown_parent, above, parentOf]
  cases hget : view.channels.get? id with
  | none => split_ifs <;> rfl
  | some channel =>
    have hid : channel.id = id := Table.key_of_get? hget
    simp only [Channel.shown, hid, map_some, join_some]

theorem valid_shown_iff {view : ShardView} :
    view.shown.Valid ↔
      (∀ session user, view.users.get? session = some user →
        view.channels.contains user.channel = true) ∧
      (∀ id p, view.above id = some p → view.channels.contains p = true) ∧
      Acyclic view.above := by
  constructor
  · rintro ⟨hplc, hunder, hacy⟩
    rw [forest_shown_up] at hunder hacy
    refine ⟨fun session user hget => ?_, fun id p hup => ?_, hacy⟩
    · rw [← forest_shown_isSome]
      exact hplc session user.channel (by rw [forest_shown_place, hget]; rfl)
    · rw [← forest_shown_isSome]
      exact hunder id p hup
  · rintro ⟨husr, hparents, hacy⟩
    refine ⟨fun session id hplace => ?_, fun id p hup => ?_, ?_⟩
    · rw [forest_shown_place] at hplace
      obtain ⟨user, hget, rfl⟩ := map_eq_some_iff.mp hplace
      rw [forest_shown_isSome]
      exact husr session user hget
    · rw [forest_shown_up] at hup
      rw [forest_shown_isSome]
      exact hparents id p hup
    · rw [forest_shown_up]
      exact hacy

end ShardView

end MumbleRuntime
