import MumbleRuntime.Client
import MumbleRuntime.Library.CellWrites

/-!
# A plan, read one element at a time

What a plan does to one channel or one user depends only on that element in the
two views. The creation and removal orders permute operations of different
elements, so of the operations about one element nothing is reordered: they are
the arrivals of a diff followed by its departures. The same holds of an overlay
plan, where every element is kept and none changes scope.
-/

namespace MumbleRuntime
open Library PlanOp Diff Table ChannelPatch
open List hiding contains

inductive FieldValue
  | id (id : Option ℕ)
  | text (text : String)
  | position (position : ℤ)
  | flag (yes : Bool)
  | flags (flags : UserFlags)
  deriving DecidableEq

inductive ChannelField
  | id
  | parent
  | name
  | position
  | canEnter
  | link (target : ChannelId)

inductive UserField
  | session
  | channel
  | name
  | flags

def ClientChannel.field (channel : ClientChannel) : ChannelField → FieldValue
  | .id => .id (some channel.id)
  | .parent => .id channel.parent
  | .name => .text channel.name
  | .position => .position channel.position
  | .canEnter => .flag channel.canEnter
  | .link target => .flag (channel.links.contains target)

def ClientUser.field (user : ClientUser) : UserField → FieldValue
  | .session => .id (some user.session)
  | .channel => .id (some user.channel)
  | .name => .text user.name
  | .flags => .flags user.flags

theorem ClientChannel.field_ext (a b : ClientChannel) (h : ∀ f, a.field f = b.field f) : a = b := by
  have hid := h .id
  have hpar := h .parent
  have hname := h .name
  have hposition := h .position
  have hcanEnter := h .canEnter
  have hlinks : a.links = b.links := by
    apply OrderedSet.ext_contains
    intro target
    simpa [field] using h (.link target)
  cases a
  cases b
  simp_all [field]

theorem ClientUser.field_ext (a b : ClientUser) (h : ∀ f, a.field f = b.field f) : a = b := by
  have hses := h .session
  have hch := h .channel
  have hname := h .name
  have hflags := h .flags
  cases a
  cases b
  simp_all [field]

namespace Plan

@[simp] theorem channelPatch_id (old new : Channel) : (channelPatch old new).id = new.id := rfl

@[simp] theorem userPatch_session (old new : User) :
    (userPatch old new).session = new.session := rfl

def channelPatches (old new : Channel) : List (ClientChannel → ClientChannel) :=
  if (channelPatch old new).isNoop then [] else [(channelPatch old new).amend]

def userPatches (old new : User) : List (ClientUser → ClientUser) :=
  (if old.channel = new.channel then []
    else [fun user => { user with channel := new.channel }]) ++
  (if (userPatch old new).isNoop then [] else [(userPatch old new).amend])

def channelDiff : Diff Channel ClientChannel ChannelField FieldValue where
  shown := Channel.shown
  patches := channelPatches
  field := ClientChannel.field
  field_ext := ClientChannel.field_ext

def userDiff : Diff User ClientUser UserField FieldValue where
  shown := User.shown
  patches := userPatches
  field := ClientUser.field
  field_ext := ClientUser.field_ext

def sameChannelScope (old new : Channel) : Bool := old.scope = new.scope

def sameUserScope (old new : User) : Bool := old.scope = new.scope

theorem changed_eq_none_iff {α : Type*} [DecidableEq α] {old new : α} :
    changed old new = none ↔ old = new := by
  unfold changed
  split_ifs with h <;> simp [h]

theorem amend_field {old new : Channel} (hid : old.id = new.id) (value : ClientChannel)
    (f : ChannelField) :
    (old.shown.field f = new.shown.field f →
      ((channelPatch old new).amend value).field f = value.field f) ∧
    (old.shown.field f ≠ new.shown.field f →
      ((channelPatch old new).amend value).field f = new.shown.field f) := by
  cases f with
  | id => simp [ClientChannel.field, Channel.shown, amend, hid]
  | parent =>
    by_cases hroot : new.id = rootChannel
    · simp [ClientChannel.field, Channel.shown, amend, channelPatch, hid, hroot]
    · by_cases heq : old.parent = new.parent <;>
        simp [ClientChannel.field, Channel.shown, amend, channelPatch, hid, hroot, changed, heq]
  | name =>
    by_cases heq : old.name = new.name <;>
      simp [ClientChannel.field, Channel.shown, amend, channelPatch, changed, heq]
  | position =>
    by_cases heq : old.position = new.position <;>
      simp [ClientChannel.field, Channel.shown, amend, channelPatch, changed, heq]
  | canEnter =>
    by_cases heq : old.canEnter = new.canEnter <;>
      simp [ClientChannel.field, Channel.shown, amend, channelPatch, changed, heq]
  | link target =>
    cases hold : old.links.contains target <;> cases hnew : new.links.contains target <;>
      simp [ClientChannel.field, Channel.shown, amend, channelPatch, hold, hnew]

theorem shown_eq_of_isNoop {old new : Channel} (hid : old.id = new.id)
    (h : (channelPatch old new).isNoop = true) : old.shown = new.shown := by
  simp only [isNoop, channelPatch, Bool.and_eq_true, Option.isNone_iff_eq_none,
    changed_eq_none_iff] at h
  obtain ⟨⟨⟨⟨⟨hpar, hname⟩, hposition⟩, hcanEnter⟩, hadded⟩, hrmv⟩ := h
  have hlinks : old.links = new.links := OrderedSet.eq_of_difference_isEmpty hrmv hadded
  simp [Channel.shown, hid, hpar, hname, hposition, hcanEnter, hlinks]

theorem channelDiff_lawful (id : ChannelId) : channelDiff.Lawful
    (fun channel => channel.id = id) := by
  intro old new hold hnew value f
  have hid : old.id = new.id := hold.trans hnew.symm
  by_cases hnoop : (channelPatch old new).isNoop = true
  · have heq : old.shown = new.shown := shown_eq_of_isNoop hid hnoop
    simp [patched, channelDiff, channelPatches, hnoop, heq]
  · simpa [patched, channelDiff, channelPatches, hnoop] using amend_field hid value f

theorem userDiff_lawful (session : SessionId) :
    userDiff.Lawful (fun user => user.session = session) := by
  intro old new hold hnew value f
  have hid : old.session = new.session := hold.trans hnew.symm
  cases f with
  | session =>
    by_cases hch : old.channel = new.channel <;>
      by_cases hnoop : (userPatch old new).isNoop = true <;>
      simp [patched, userDiff, userPatches, ClientUser.field, User.shown, UserPatch.amend, hid,
        hch, hnoop]
  | channel =>
    by_cases hch : old.channel = new.channel <;>
      by_cases hnoop : (userPatch old new).isNoop = true <;>
      simp [patched, userDiff, userPatches, ClientUser.field, User.shown, UserPatch.amend,
        hch, hnoop]
  | name
  | flags =>
    by_cases hch : old.channel = new.channel <;> by_cases hname : old.name = new.name <;>
      by_cases hflags : old.flags = new.flags <;>
      simp [patched, userDiff, userPatches, ClientUser.field, User.shown, UserPatch.amend,
        UserPatch.isNoop, userPatch, changed, hch, hname, hflags]

end Plan

def PlanOp.channelWrite (id : ChannelId) : PlanOp → Option (Write ClientChannel)
  | .createChannel channel => if channel.id = id then some (.set channel.shown) else none
  | .updateChannel patch => if patch.id = id then some (.patch patch.amend) else none
  | .removeChannel channel => if channel = id then some .drop else none
  | _ => none

def PlanOp.userWrite (session : SessionId) : PlanOp → Option (Write ClientUser)
  | .addUser user => if user.session = session then some (.set user.shown) else none
  | .moveUser moved channel =>
    if moved = session then some (.patch fun user => { user with channel }) else none
  | .updateUser patch => if patch.session = session then some (.patch patch.amend) else none
  | .removeUser removed => if removed = session then some .drop else none
  | _ => none

namespace ClientModel

theorem applyOp_channels (model : ClientModel) (op : PlanOp) (id : ChannelId) :
    (model.applyOp op).channels.get? id =
      ((op.channelWrite id).map fun write => write.run (model.channels.get? id)).getD
        (model.channels.get? id) := by
  cases op with
  | createChannel channel =>
    by_cases h : channel.id = id
    · simp [applyOp, channelWrite, h, Write.run, Channel.shown]
    · simp [applyOp, channelWrite, h, Ne.symm h, Channel.shown]
  | updateChannel patch =>
    simp only [applyOp, channelWrite]
    rw [get?_modify _ _ _ patch.amend (fun _ => rfl)]
    by_cases h : patch.id = id
    · simp [h, Write.run]
    · simp [h, Ne.symm h]
  | removeChannel channel =>
    by_cases h : channel = id
    · simp [applyOp, channelWrite, h, Write.run]
    · simp [applyOp, channelWrite, h, Ne.symm h]
  | _ => rfl

theorem applyOp_users (model : ClientModel) (op : PlanOp) (session : SessionId) :
    (model.applyOp op).users.get? session =
      ((op.userWrite session).map fun write => write.run (model.users.get? session)).getD
        (model.users.get? session) := by
  cases op with
  | addUser user =>
    by_cases h : user.session = session
    · simp [applyOp, userWrite, h, Write.run, User.shown]
    · simp [applyOp, userWrite, h, Ne.symm h, User.shown]
  | moveUser moved channel =>
    simp only [applyOp, userWrite]
    rw [get?_modify _ _ _ (fun user : ClientUser => { user with channel }) (fun _ => rfl)]
    by_cases h : moved = session
    · simp [h, Write.run]
    · simp [h, Ne.symm h]
  | updateUser patch =>
    simp only [applyOp, userWrite]
    rw [get?_modify _ _ _ patch.amend (fun _ => rfl)]
    by_cases h : patch.session = session
    · simp [h, Write.run]
    · simp [h, Ne.symm h]
  | removeUser removed =>
    by_cases h : removed = session
    · simp [applyOp, userWrite, h, Write.run]
    · simp [applyOp, userWrite, h, Ne.symm h]
  | _ => rfl

theorem applyOps_channels (model : ClientModel) (ops : List PlanOp) (id : ChannelId) :
    (model.applyOps ops).channels.get? id =
      Write.runAll (ops.filterMap (channelWrite id)) (model.channels.get? id) := by
  induction ops generalizing model with
  | nil => rfl
  | cons op rest ih =>
    change ((model.applyOp op).applyOps rest).channels.get? id = _
    rw [ih, applyOp_channels]
    cases h : op.channelWrite id <;> simp [h, Write.runAll]

theorem applyOps_users (model : ClientModel) (ops : List PlanOp) (session : SessionId) :
    (model.applyOps ops).users.get? session =
      Write.runAll (ops.filterMap (userWrite session)) (model.users.get? session) := by
  induction ops generalizing model with
  | nil => rfl
  | cons op rest ih =>
    change ((model.applyOp op).applyOps rest).users.get? session = _
    rw [ih, applyOp_users]
    cases h : op.userWrite session <;> simp [h, Write.runAll]

theorem eq_iff {a b : ClientModel} :
    a = b ↔ (∀ id, a.channels.get? id = b.channels.get? id) ∧
      ∀ session, a.users.get? session = b.users.get? session := by
  constructor
  · rintro rfl
    exact ⟨fun _ => rfl, fun _ => rfl⟩
  · rintro ⟨hchs, husr⟩
    cases a
    cases b
    congr 1
    · exact ext_get? hchs
    · exact ext_get? husr

end ClientModel

namespace Plan

theorem placeCreations_perm (present : OrderedSet ChannelId) (remaining : List Channel) :
    ((placeCreations present remaining).2.1 ++ (placeCreations present remaining).2.2).Perm
      remaining := by
  induction remaining generalizing present with
  | nil => exact List.Perm.refl _
  | cons channel rest ih =>
    simp only [placeCreations]
    split_ifs
    · exact (ih (present.insert channel.id)).cons channel
    · exact perm_middle.trans ((ih present).cons channel)

theorem orderCreationsFrom_perm (fuel : ℕ) (present : OrderedSet ChannelId)
    (remaining : List Channel) : (orderCreationsFrom fuel present remaining).Perm remaining := by
  induction fuel generalizing present remaining with
  | zero => exact List.Perm.refl _
  | succ fuel ih =>
    have hperm := placeCreations_perm present remaining
    rw [orderCreationsFrom]
    split
    · rename_i present' waiting heq
      rw [heq] at hperm
      exact hperm
    · rename_i present' ordered waiting hne heq
      rw [heq] at hperm
      exact ((ih present' waiting).append_left ordered).trans hperm

theorem orderCreations_perm (created : List Channel) (before : Channels) :
    (orderCreations created before).Perm created :=
  orderCreationsFrom_perm _ _ _

theorem orderRemovals_perm (removed : List (ChannelId × Scope)) (before : ShardView) :
    (orderRemovals removed before).Perm removed :=
  perm_insertionSort _ _

theorem filterMap_perm {α β : Type*} {l l' : List α} (h : l.Perm l') {f : α → Option β}
    {result : List β} (hres : l'.filterMap f = result) (hlen : result.length ≤ 1) :
    l.filterMap f = result := by
  have hperm : (l.filterMap f).Perm result := hres ▸ h.filterMap f
  match result, hlen with
  | [], _ => exact hperm.eq_nil
  | [b], _ => exact perm_singleton.mp hperm

def additions (before after : ShardView) : List PlannedOp :=
  (orderCreations (created before after) before.channels).map
      (fun channel => ⟨.createChannel channel, channel.scope⟩) ++
    updated before after ++ userAdditions before after ++ userMoves before after ++
    userUpdates before after

def removals (before after : ShardView) : List PlannedOp :=
  userRemovals before after ++
    (orderRemovals (channelRemovals before after) before).map
      (fun removed => ⟨.removeChannel removed.1, removed.2⟩)

theorem plan_eq (before after : ShardView) :
    plan before after = additions before after ++ removals before after := by
  simp only [plan, additions, removals, append_assoc]

def kept (keep : Scope → Bool) (ops : List PlannedOp) : List PlanOp :=
  (ops.filter fun planned => keep planned.scope).map PlannedOp.op

theorem filterMap_kept {β : Type*} (keep : Scope → Bool) (ops : List PlannedOp)
    (f : PlanOp → Option β) :
    (kept keep ops).filterMap f =
      ops.filterMap fun planned => if keep planned.scope then f planned.op else none := by
  induction ops with
  | nil => rfl
  | cons planned rest ih =>
    rw [kept] at ih
    cases h : keep planned.scope <;> simp [kept, h, ih, filterMap_cons]

def channelStep (id : ChannelId) (step : ShardView × ShardView) : Option Channel × Option Channel :=
  (step.1.channels.get? id, step.2.channels.get? id)

def userStep (session : SessionId) (step : ShardView × ShardView) : Option User × Option User :=
  (step.1.users.get? session, step.2.users.get? session)

variable (keep : Scope → Bool) (before after : ShardView)

theorem filterMap_picked {α κ β γ : Type*} [LinearOrder κ] {key : α → κ} {t : Table key} (k : κ)
    {pick : α → Option β} {write : β → Option γ}
    (hwrite : ∀ a b, pick a = some b → key a ≠ k → write b = none) :
    (t.rows.filterMap pick).filterMap write =
      ((t.get? k).bind fun a => (pick a).bind write).toList := by
  rw [filterMap_filterMap, filterMap_rows _ k]
  intro a hne
  cases h : pick a with
  | none => rfl
  | some b => exact hwrite a b h hne

theorem filterMap_unpicked {α β γ : Type*} {l : List α} {pick : α → Option β}
    {write : β → Option γ} (hwrite : ∀ a b, pick a = some b → write b = none) :
    (l.filterMap pick).filterMap write = [] := by
  rw [filterMap_eq_nil_iff]
  intro b hb
  obtain ⟨a, -, h⟩ := mem_filterMap.mp hb
  exact hwrite a b h

theorem created_writes (id : ChannelId) :
    ((orderCreations (created before after) before.channels).map fun channel : Channel =>
        (⟨.createChannel channel, channel.scope⟩ : PlannedOp)).filterMap
      (fun planned => if keep planned.scope then planned.op.channelWrite id else none) =
    if appears sameChannelScope (fun channel => keep channel.scope)
        (channelStep id (before, after)) then
      ((after.channels.get? id).map fun new => Write.set new.shown).toList
    else [] := by
  rw [filterMap_map]
  apply filterMap_perm (orderCreations_perm _ _)
  · rw [created, filterMap_filterMap, filterMap_rows _ id]
    · cases hnew : after.channels.get? id with
      | none => simp [channelStep, hnew]
      | some new =>
        have hid : new.id = id := key_of_get? hnew
        cases hold : before.channels.get? id with
        | none =>
          cases hkeep : keep new.scope <;>
            simp [channelStep, hnew, hold, hid, appears, channelWrite, hkeep]
        | some old =>
          by_cases hsc : old.scope = new.scope <;> cases hkeep : keep new.scope <;>
            simp [channelStep, hnew, hold, hid, appears, channelWrite, hkeep, sameChannelScope, hsc]
    · intro new hne
      cases hold : before.channels.get? new.id with
      | none => simp [channelWrite, hne]
      | some old => by_cases hsc : old.scope = new.scope <;> simp [hsc, channelWrite, hne]
  · split_ifs
    · cases after.channels.get? id <;> simp
    · simp

theorem additions_channel (id : ChannelId) :
    (kept keep (additions before after)).filterMap (channelWrite id) =
      channelDiff.arrivals sameChannelScope (fun channel => keep channel.scope)
        (channelStep id (before, after)) := by
  rw [filterMap_kept, additions]
  simp only [filterMap_append, updated]
  rw [created_writes, filterMap_picked id, userAdditions, filterMap_unpicked, userMoves,
    filterMap_unpicked, userUpdates, filterMap_unpicked]
  · cases hnew : after.channels.get? id with
    | none => cases hold : before.channels.get? id <;> simp [channelStep, hold, hnew, arrivals]
    | some new =>
      obtain rfl := key_of_get? hnew
      cases hold : before.channels.get? new.id with
      | none =>
        cases hkeep : keep new.scope <;>
          simp [channelStep, hold, hnew, appears, arrivals, hkeep, channelDiff]
      | some old =>
        by_cases hsc : old.scope = new.scope <;> cases hkeep : keep new.scope <;>
          cases hnoop : (channelPatch old new).isNoop <;>
          simp [channelStep, hold, hnew, appears, arrivals, hkeep, sameChannelScope, hsc,
            channelDiff, channelPatches, hnoop, channelWrite]
  all_goals
    intro row planned h
    split at h
    · split_ifs at h
      cases h
      simp +contextual [channelWrite]
    · cases h <;> simp [channelWrite]

theorem filterMap_departed {α κ β δ φ ν : Type*} [LinearOrder κ] {key : α → κ} {t u : Table key}
    {k : κ} {r : α → α → Prop} [∀ old new, Decidable (r old new)] {p : α → Bool} {f : κ → α → β}
    {changed : α → Option β} {write : β → Option (Write δ)} (D : Diff α δ φ ν)
    (hnone : ∀ new, t.get? (key new) = none → changed new = none)
    (hsome : ∀ old new, t.get? (key new) = some old →
      changed new = if r old new then none else some (f (key new) old))
    (hwr : ∀ i old, write (f i old) = if i = k ∧ p old then some .drop else none) :
    (u.rows.filterMap changed ++ t.rows.filterMap fun old =>
        if u.contains (key old) then none else some (f (key old) old)).filterMap write =
      D.departures (fun old new => r old new) p (t.get? k, u.get? k) := by
  rw [filterMap_append, filterMap_filterMap, filterMap_filterMap,
    filterMap_rows _ k, filterMap_rows _ k]
  · cases hold : t.get? k with
    | none =>
      cases hnew : u.get? k with
      | none => simp [departures, disappears]
      | some new =>
        obtain rfl := key_of_get? hnew
        simp [departures, disappears, hnone new hold]
    | some old =>
      obtain rfl := key_of_get? hold
      cases hnew : u.get? (key old) with
      | none =>
        cases hkeep : p old <;> simp [hnew, departures, disappears, hkeep, hwr, contains]
      | some new =>
        have hid := key_of_get? hnew
        by_cases hsame : r old new <;> cases hkeep : p old <;>
          simp [hnew, hid, departures, disappears, hkeep, hwr, contains, hsame,
            hsome old new (hid ▸ hold)]
  · intro old hne
    cases u.contains (key old) <;> simp [hwr, hne]
  · intro new hne
    cases hold : t.get? (key new) with
    | none => simp [hnone new hold]
    | some old => by_cases hsame : r old new <;> simp [hsome old new hold, hsame, hwr, hne]

theorem removals_channel (id : ChannelId) :
    (kept keep (removals before after)).filterMap (channelWrite id) =
      channelDiff.departures sameChannelScope (fun channel => keep channel.scope)
        (channelStep id (before, after)) := by
  have husr : (userRemovals before after).filterMap
      (fun planned => if keep planned.scope then planned.op.channelWrite id else none) = [] := by
    rw [filterMap_eq_nil_iff]
    intro planned hplanned
    simp only [userRemovals, mem_append, mem_filterMap] at hplanned
    rcases hplanned with ⟨user, -, h⟩ | ⟨user, -, h⟩
    · split at h
      · split_ifs at h
        cases h
        simp [channelWrite]
      · cases h
    · split_ifs at h
      cases h
      simp [channelWrite]
  rw [filterMap_kept, removals, filterMap_append, husr, nil_append, filterMap_map]
  apply filterMap_perm (orderRemovals_perm _ _)
  · refine filterMap_departed (t := before.channels) (u := after.channels)
      (r := fun old new => old.scope = new.scope) (f := fun id old => (id, old.scope)) channelDiff
      ?_ ?_ ?_
    · exact fun new hold => by simp only [hold]
    · exact fun old new hold => by simp only [hold]
    · intro i old
      cases hkeep : keep old.scope <;> simp [channelWrite, hkeep]
  · unfold departures
    split_ifs <;> simp

theorem additions_user (session : SessionId) :
    (kept keep (additions before after)).filterMap (userWrite session) =
      userDiff.arrivals sameUserScope (fun user => keep user.scope)
        (userStep session (before, after)) := by
  have hcre : ((orderCreations (created before after) before.channels).map
      fun channel : Channel => (⟨.createChannel channel, channel.scope⟩ : PlannedOp)).filterMap
        (fun planned => if keep planned.scope then planned.op.userWrite session else none) = [] := by
    rw [filterMap_map, filterMap_eq_nil_iff]
    intro channel _
    simp [userWrite]
  rw [filterMap_kept, additions]
  simp only [filterMap_append, updated]
  rw [hcre, filterMap_unpicked, userAdditions, filterMap_picked session, userMoves,
    filterMap_picked session, userUpdates, filterMap_picked session]
  · cases hnew : after.users.get? session with
    | none => cases hold : before.users.get? session <;> simp [userStep, hold, hnew, arrivals]
    | some new =>
      obtain rfl := key_of_get? hnew
      cases hold : before.users.get? new.session with
      | none =>
        cases hkeep : keep new.scope <;>
          simp [userStep, hold, hnew, arrivals, hkeep, userDiff, userWrite]
      | some old =>
        by_cases hsc : old.scope = new.scope <;> by_cases hch : old.channel = new.channel <;>
          cases hkeep : keep new.scope <;> cases hnoop : (userPatch old new).isNoop <;>
          simp [userStep, hold, hnew, arrivals, hkeep, sameUserScope, hsc, userDiff,
            userPatches, hch, hnoop, userWrite]
  all_goals
    intro row planned h
    split at h
    · split_ifs at h
      cases h
      simp +contextual [userWrite]
    · cases h <;> simp +contextual [userWrite]

theorem removals_user (session : SessionId) :
    (kept keep (removals before after)).filterMap (userWrite session) =
      userDiff.departures sameUserScope (fun user => keep user.scope)
        (userStep session (before, after)) := by
  have hchs : ((orderRemovals (channelRemovals before after) before).map
      fun removed : ChannelId × Scope =>
        (⟨.removeChannel removed.1, removed.2⟩ : PlannedOp)).filterMap
      (fun planned => if keep planned.scope then planned.op.userWrite session else none) = [] := by
    rw [filterMap_map, filterMap_eq_nil_iff]
    intro removed _
    simp [userWrite]
  rw [filterMap_kept, removals, filterMap_append, hchs, append_nil]
  refine filterMap_departed (t := before.users) (u := after.users)
    (r := fun old new => old.scope = new.scope)
    (f := fun session old => (⟨.removeUser session, old.scope⟩ : PlannedOp)) userDiff ?_ ?_ ?_
  · exact fun new hold => by simp only [hold]
  · exact fun old new hold => by simp only [hold]
  · intro i old
    cases keep old.scope <;> simp [userWrite]

end Plan

end MumbleRuntime
