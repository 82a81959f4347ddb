import MumbleRuntime.PlanCell
import Mathlib.Data.List.SplitBy

/-!
# What a client makes of a transition's messages

The messages of a transition are read by the client cell by cell, in the order
of the operations: bringing the connection's own addition forward moves it past
other users only. Users are set, patched and removed as the operations say.
Channels differ in three places. A creation with no links keeps the links the
client has, a patch of a channel the client lacks may create it, and the root is
never removed.
-/

namespace MumbleRuntime
open Library Emit PlanOp Table Option Channel
open List hiding filterMap_congr isEmpty

namespace Emit

theorem isUserAddition_run {ops run : List PlanOp}
    (h : run ∈ ops.splitBy fun left right => isUserAddition left == isUserAddition right) :
    ∀ op ∈ run, ∀ op' ∈ run, isUserAddition op = isUserAddition op' := by
  have hchn := isChain_of_mem_splitBy h
  clear h
  induction run with
  | nil => simp
  | cons first rest ih =>
    have hall : ∀ op ∈ rest, isUserAddition op = isUserAddition first := by
      cases rest with
      | nil => simp
      | cons second more =>
        obtain ⟨hfst, hrest⟩ := isChain_cons_cons.mp hchn
        intro op hop
        rw [ih hrest op hop second mem_cons_self]
        exact (by simpa using hfst : isUserAddition first = isUserAddition second).symm
    have hkind : ∀ op ∈ first :: rest, isUserAddition op = isUserAddition first := by
      intro op hop
      rcases mem_cons.mp hop with rfl | hop
      · rfl
      · exact hall op hop
    intro op hop op' hop'
    rw [hkind op hop, hkind op' hop']

theorem isUserAddition_of_isSelf {self : SessionId} {op : PlanOp}
    (h : isSelfAddition self op = true) : isUserAddition op = true := by
  cases op <;> first | rfl | cases h

theorem filterMap_selfFirst {β : Type*} (read : PlanOp → Option β) (ops : List PlanOp)
    (self : SessionId)
    (h : (∀ op, isSelfAddition self op = true → read op = none) ∨
      ∀ op, isUserAddition op = true → isSelfAddition self op = false → read op = none) :
    (selfFirstWithinUserAdditions ops self).filterMap read = ops.filterMap read := by
  have hrun : ∀ run ∈ ops.splitBy (fun left right => isUserAddition left == isUserAddition right),
      (run.filter (isSelfAddition self) ++
        run.filter (fun op => !isSelfAddition self op)).filterMap read = run.filterMap read := by
    intro run hmem
    have hone : ∀ keep : PlanOp → Bool, (∀ op ∈ run, keep op = false → read op = none) →
        (run.filter keep).filterMap read = run.filterMap read := by
      intro keep hkeep
      rw [filterMap_filter]
      apply List.filterMap_congr
      intro op hop
      cases hk : keep op with
      | false => simp [hkeep op hop hk]
      | true => simp
    have hnone : ∀ keep : PlanOp → Bool, (∀ op ∈ run, keep op = true → read op = none) →
        (run.filter keep).filterMap read = [] := by
      intro keep hkeep
      rw [filterMap_eq_nil_iff]
      intro op hop
      exact hkeep op (mem_filter.mp hop).1 (mem_filter.mp hop).2
    rw [filterMap_append]
    rcases h with hself | hoth
    · rw [hnone _ fun op _ hop => hself op hop, nil_append]
      exact hone _ fun op _ hop => hself op (by simpa using hop)
    · by_cases hkind : ∃ op ∈ run, isSelfAddition self op = true
      · obtain ⟨own, hown, hselfOwn⟩ := hkind
        have hadditions : ∀ op ∈ run, isUserAddition op = true := fun op hop =>
          (isUserAddition_run hmem op hop own hown).trans (isUserAddition_of_isSelf hselfOwn)
        rw [hone _ fun op hop hk => hoth op (hadditions op hop) hk,
          hnone _ fun op hop hk => hoth op (hadditions op hop) (by simpa using hk),
          append_nil]
      · have hnever : ∀ op ∈ run, isSelfAddition self op = false := by
          intro op hop
          by_contra hk
          exact hkind ⟨op, hop, by simpa using hk⟩
        rw [hnone _ fun op hop hk => by simp [hnever op hop] at hk, nil_append]
        exact hone _ fun op hop hk => by simp [hnever op hop] at hk
  rw [selfFirstWithinUserAdditions, filterMap_flatMap]
  conv_rhs => rw [← flatten_splitBy
    (fun left right => isUserAddition left == isUserAddition right) ops, ← flatMap_id,
    filterMap_flatMap]
  apply flatMap_congr
  intro run hmem
  exact hrun run hmem

end Emit

def PlanOp.tellChannel (id : ChannelId) (op : PlanOp) (cell : Option ClientChannel) :
    Option ClientChannel :=
  match op with
  | .createChannel channel =>
    if channel.id = id then
      (ClientModel.channelAfter (Emit.createdChannel channel) id cell).or cell
    else cell
  | .updateChannel patch =>
    if patch.id = id then (ClientModel.channelAfter (Emit.patchedChannel patch) id cell).or cell
    else cell
  | .removeChannel channel => if channel = id ∧ id ≠ rootChannel then none else cell
  | _ => cell

def PlanOp.onChannel (op : PlanOp) : Option PlanOp :=
  match op with
  | .createChannel _ | .updateChannel _ | .removeChannel _ => some op
  | _ => none

variable {held : Option ClientChannel}

namespace ClientModel

theorem userAfter_addedUser (user : User) (cell : Option ClientUser)
    (h : ∀ old, cell = some old → old.session = user.session) :
    userAfter (addedUser user) user.session cell = some user.shown := by
  cases cell with
  | none => rfl
  | some old =>
    have hses := h old rfl
    simp [userAfter, addedUser, mergeFlags, User.shown, hses]

theorem userAfter_moved (session : SessionId) (channel : ChannelId) (cell : Option ClientUser) :
    userAfter { session := some session, channelId := some channel } session cell =
      cell.map fun user => { user with channel } := by
  cases cell <;> rfl

theorem userAfter_patched (patch : UserPatch) (cell : Option ClientUser) :
    userAfter (patchedUser patch) patch.session cell = cell.map patch.amend := by
  cases cell with
  | none => cases hname : patch.name <;> simp [userAfter, patchedUser, hname]
  | some old =>
    cases hflags : patch.flags <;>
      simp [userAfter, patchedUser, UserPatch.amend, mergeFlags, hflags]

theorem apply_emitOp_users (model : ClientModel) (op : PlanOp) (session : SessionId) :
    (model.apply (emitOp op)).users.get? session = (model.applyOp op).users.get? session := by
  have hnone : ∀ target (f : ClientUser → ClientUser), (∀ user, (f user).session = user.session) →
      model.users.get? target = none →
      (model.users.modify target f).get? session = model.users.get? session := by
    intro target f hf hget
    rw [get?_modify _ _ _ f hf]
    by_cases heq : session = target
    · simp [heq, hget]
    · simp [heq]
  have hsome : ∀ target (f : ClientUser → ClientUser), (∀ user, (f user).session = user.session) →
      ∀ user, model.users.get? target = some user →
      (model.users.insert (f user)).get? session = (model.users.modify target f).get? session := by
    intro target f hf user hget
    have hkey : user.session = target := key_of_get? hget
    rw [get?_modify _ _ _ f hf]
    by_cases heq : session = target
    · simp [heq, hf, hkey, hget]
    · simp [heq, hf, hkey]
  cases op with
  | createChannel channel =>
    simp only [emitOp, apply, createdChannel, applyOp]
    split <;> rfl
  | updateChannel patch =>
    simp only [emitOp, apply, patchedChannel, applyOp]
    split <;> rfl
  | removeChannel channel =>
    simp only [emitOp, apply, applyOp]
    split_ifs <;> rfl
  | addUser user =>
    have hset := userAfter_addedUser user (model.users.get? user.session)
      fun old hold => key_of_get? hold
    simp only [emitOp, apply, applyOp]
    rw [show (addedUser user).session = some user.session from rfl]
    simp only [hset]
  | moveUser moved channel =>
    simp only [emitOp, apply, userAfter_moved, applyOp]
    cases hget : model.users.get? moved with
    | none => exact (hnone moved (fun user => { user with channel }) (fun _ => rfl) hget).symm
    | some user => exact hsome moved (fun user => { user with channel }) (fun _ => rfl) user hget
  | updateUser patch =>
    have hpatched := userAfter_patched patch (model.users.get? patch.session)
    simp only [emitOp, apply, applyOp]
    rw [show (patchedUser patch).session = some patch.session from rfl]
    simp only [hpatched]
    cases hget : model.users.get? patch.session with
    | none => exact (hnone patch.session patch.amend (fun _ => rfl) hget).symm
    | some user => exact hsome patch.session patch.amend (fun _ => rfl) user hget
  | removeUser removed => rfl

theorem applyAll_emitOp_users (model : ClientModel) (ops : List PlanOp) (session : SessionId) :
    (model.applyAll (ops.map emitOp)).users.get? session =
      Write.runAll (ops.filterMap (userWrite session)) (model.users.get? session) := by
  induction ops generalizing model with
  | nil => rfl
  | cons op rest ih =>
    change ((model.apply (emitOp op)).applyAll (rest.map emitOp)).users.get? session = _
    rw [ih, apply_emitOp_users, applyOp_users]
    cases h : op.userWrite session <;> simp [h, Write.runAll]

theorem applyAll_emit_users (model : ClientModel) (ops : List PlanOp) (self session : SessionId) :
    (model.applyAll (emit ops self)).users.get? session =
      Write.runAll (ops.filterMap (userWrite session)) (model.users.get? session) := by
  rw [emit, applyAll_emitOp_users, filterMap_selfFirst]
  by_cases heq : session = self
  · right
    intro op haddition hoth
    cases op <;> simp_all [isUserAddition, isSelfAddition, userWrite]
  · left
    intro op hself
    cases op <;> simp_all [isSelfAddition, userWrite, Ne.symm heq]

variable {id : ChannelId} {cell : Option ClientChannel}

theorem channelAfter_id {state : ChannelState} (h : ∀ old, cell = some old → old.id = id)
    {channel : ClientChannel} (haft : channelAfter state id cell = some channel) :
    channel.id = id := by
  cases cell with
  | some old =>
    obtain rfl := some.inj haft
    exact h old rfl
  | none =>
    simp only [channelAfter] at haft
    split at haft
    · obtain rfl := some.inj haft
      rfl
    · cases haft

theorem apply_channelState (model : ClientModel) {state : ChannelState} {target : ChannelId}
    (h : state.channelId = some target) (id : ChannelId) :
    (model.apply (.channelState state)).channels.get? id =
      if target = id then
        (channelAfter state id (model.channels.get? id)).or (model.channels.get? id)
      else model.channels.get? id := by
  simp only [apply, h]
  cases haft : channelAfter state target (model.channels.get? target) with
  | none =>
    by_cases heq : target = id
    · subst heq
      simp [haft]
    · simp [heq]
  | some channel =>
    have hid := channelAfter_id (fun old hold => key_of_get? hold) haft
    by_cases heq : target = id
    · subst heq
      simp [hid, haft]
    · simp [hid, heq, Ne.symm heq]

theorem apply_emitOp_channels (model : ClientModel) (op : PlanOp) (id : ChannelId) :
    (model.apply (emitOp op)).channels.get? id = op.tellChannel id (model.channels.get? id) := by
  have huser : ∀ state : UserState, (model.apply (.userState state)).channels = model.channels := by
    intro state
    simp only [apply]
    split
    · rfl
    · split <;> rfl
  cases op with
  | createChannel channel
  | updateChannel patch => exact model.apply_channelState rfl id
  | removeChannel channel =>
    simp only [emitOp, apply, tellChannel]
    by_cases hroot : channel = rootChannel
    · have hnot : ¬(channel = id ∧ id ≠ rootChannel) := fun ⟨heq, hne⟩ => hne (heq ▸ hroot)
      simp [hroot, show ¬(rootChannel = id ∧ id ≠ rootChannel) from hroot ▸ hnot]
    · by_cases heq : channel = id
      · simp [heq, heq ▸ hroot]
      · simp [hroot, heq, Ne.symm heq]
  | removeUser session => rfl
  | _ => exact congrArg (get? · id) (huser _)

theorem foldl_tellChannel (ops : List PlanOp) (id : ChannelId) (cell : Option ClientChannel) :
    (ops.filterMap onChannel).foldl (fun cell op => op.tellChannel id cell) cell =
      ops.foldl (fun cell op => op.tellChannel id cell) cell := by
  induction ops generalizing cell with
  | nil => rfl
  | cons op rest ih => cases op <;> exact ih _

theorem applyAll_emitOp_channels (model : ClientModel) (ops : List PlanOp) (id : ChannelId) :
    (model.applyAll (ops.map emitOp)).channels.get? id =
      ops.foldl (fun cell op => op.tellChannel id cell) (model.channels.get? id) := by
  induction ops generalizing model with
  | nil => rfl
  | cons op rest ih =>
    rw [foldl_cons, ← apply_emitOp_channels]
    exact ih _

theorem applyAll_emit_channels (model : ClientModel) (ops : List PlanOp) (self : SessionId)
    (id : ChannelId) :
    (model.applyAll (emit ops self)).channels.get? id =
      (model.applyAll (ops.map emitOp)).channels.get? id := by
  rw [emit, applyAll_emitOp_channels, applyAll_emitOp_channels, ← foldl_tellChannel,
    filterMap_selfFirst, foldl_tellChannel]
  left
  intro op hself
  cases op <;> first | rfl | cases hself

theorem tellChannel_isSome (op : PlanOp)
    (hroot : id = rootChannel → cell.isSome = true) (h : held.isSome = true → cell.isSome = true) :
    (id = rootChannel → (op.tellChannel id cell).isSome = true) ∧
      ((((op.channelWrite id).map fun write => write.run held).getD held).isSome = true →
        (op.tellChannel id cell).isSome = true) := by
  have hkeep : ∀ state : ChannelState, cell.isSome = true →
      ((channelAfter state id cell).or cell).isSome = true := by
    intro state hcell
    obtain ⟨old, rfl⟩ := isSome_iff_exists.mp hcell
    rfl
  cases op with
  | createChannel channel =>
    simp only [tellChannel, channelWrite]
    split_ifs with hid
    · refine ⟨fun heq => hkeep _ (hroot heq), fun _ => ?_⟩
      by_cases heq : id = rootChannel
      · exact hkeep _ (hroot heq)
      · cases cell with
        | some old => rfl
        | none =>
          have hne : channel.id ≠ rootChannel := hid ▸ heq
          simp [channelAfter, createdChannel, hne]
    · exact ⟨hroot, h⟩
  | updateChannel patch =>
    simp only [tellChannel, channelWrite]
    split_ifs
    · refine ⟨fun heq => hkeep _ (hroot heq), fun hsome => hkeep _ (h ?_)⟩
      simpa [Write.run] using hsome
    · exact ⟨hroot, h⟩
  | removeChannel channel =>
    simp only [tellChannel, channelWrite]
    by_cases heq : channel = id
    · by_cases hid : id = rootChannel
      · simp [hid, hroot hid]
      · simp [heq, hid, Write.run]
    · simpa [heq] using ⟨hroot, h⟩
  | _ => exact ⟨hroot, h⟩

variable {ops : List PlanOp}

theorem foldl_tellChannel_isSome
    (hroot : id = rootChannel → cell.isSome = true) (h : held.isSome = true → cell.isSome = true)
    (hrun : (Write.runAll (ops.filterMap (channelWrite id)) held).isSome = true) :
    (ops.foldl (fun cell op => op.tellChannel id cell) cell).isSome = true := by
  induction ops generalizing cell held with
  | nil => exact h hrun
  | cons op rest ih =>
    obtain ⟨hroot', h'⟩ := tellChannel_isSome op hroot h
    refine ih hroot' h' ?_
    cases hwr : op.channelWrite id <;> simpa [hwr, Write.runAll] using hrun

theorem applyAll_root (messages : List ControlMessage) {model : ClientModel}
    (h : ∃ root, model.channels.get? rootChannel = some root ∧ root.parent = none) :
    ∃ root, (model.applyAll messages).channels.get? rootChannel = some root ∧
      root.parent = none := by
  induction messages generalizing model with
  | nil => exact h
  | cons message rest ih =>
    apply ih
    obtain ⟨root, hget, hpar⟩ := h
    cases message with
    | channelState state =>
      cases hch : state.channelId with
      | none => exact ⟨root, by simpa [apply, hch] using hget, hpar⟩
      | some target =>
        rw [model.apply_channelState hch, hget]
        by_cases heq : target = rootChannel
        · refine ⟨mergeChannel state root, by rw [if_pos heq]; rfl, ?_⟩
          simp [mergeChannel, show root.id = rootChannel from key_of_get? hget, hpar]
        · exact ⟨root, by rw [if_neg heq], hpar⟩
    | channelRemove channel =>
      refine ⟨root, ?_, hpar⟩
      simp only [apply]
      split_ifs with heq
      · exact hget
      · simp [Ne.symm heq, hget]
    | userState state =>
      refine ⟨root, ?_, hpar⟩
      simp only [apply]
      split
      · exact hget
      · split <;> exact hget
    | userRemove session => exact ⟨root, hget, hpar⟩
    | _ => exact ⟨root, hget, hpar⟩

theorem applyAll_new_root (messages : List ControlMessage) :
    ∃ root, (new.applyAll messages).channels.get? rootChannel = some root ∧ root.parent = none :=
  applyAll_root messages ⟨rootDefault, rfl, rfl⟩

/-- The client's copy of a channel is the view's, except that the client keeps a
root the view lacks. -/
def Agrees (id : ChannelId) (cell held : Option ClientChannel) : Prop :=
  cell = held ∨ id = rootChannel ∧ held = none

theorem tellChannel_of_none {op : PlanOp} (h : op.channelWrite id = none)
    (cell : Option ClientChannel) : op.tellChannel id cell = cell := by
  cases op with
  | createChannel channel
  | updateChannel patch =>
    simp only [channelWrite] at h
    split_ifs at h with hid
    exact if_neg hid
  | removeChannel channel =>
    simp only [channelWrite] at h
    split_ifs at h with hid
    exact if_neg fun hboth => hid hboth.1
  | _ => rfl

theorem channelAfter_created {channel : Channel}
    (hid : ∀ old, cell = some old → old.id = channel.id)
    (hroot : channel.id = rootChannel → ∃ root, cell = some root ∧ root.parent = none)
    (hlinks : channel.links.isEmpty = true → ∀ old, cell = some old → old.links.isEmpty = true) :
    channelAfter (createdChannel channel) channel.id cell = some channel.shown := by
  have hmerged : ∀ links : OrderedSet ChannelId,
      (channel.links.isEmpty = true → links.isEmpty = true) →
      ((if channel.links.isEmpty = true then links else channel.links).difference
        empty).extend empty = channel.links := by
    intro links hemp
    have hsame : (if channel.links.isEmpty = true then links else channel.links) =
        channel.links := by
      split_ifs with h
      · rw [eq_empty_of_isEmpty h, eq_empty_of_isEmpty (hemp h)]
      · rfl
    rw [hsame]
    apply OrderedSet.ext_contains
    simp
  cases cell with
  | none =>
    have hne : channel.id ≠ rootChannel := by
      intro heq
      obtain ⟨root, hsome, -⟩ := hroot heq
      cases hsome
    have hfr := hmerged empty fun _ => rfl
    simp [channelAfter, createdChannel, hne, mergeChannel, shown, hfr]
  | some old =>
    have hold := hid old rfl
    have hmerge := hmerged old.links fun h => hlinks h old rfl
    by_cases heq : channel.id = rootChannel
    · obtain ⟨root, hsome, hpar⟩ := hroot heq
      obtain rfl := some.inj hsome
      simp [channelAfter, createdChannel, mergeChannel, shown, hmerge, hold, heq, hpar]
    · simp [channelAfter, createdChannel, mergeChannel, shown, hmerge, hold, heq]

theorem channelAfter_patched {patch : ChannelPatch} {old : ClientChannel}
    (hid : old.id = patch.id) :
    channelAfter (patchedChannel patch) patch.id (some old) = some (patch.amend old) := by
  simp [channelAfter, patchedChannel, mergeChannel, ChannelPatch.amend, hid, isEmpty, empty]

theorem tellChannel_agrees {op : PlanOp} {write : Write ClientChannel}
    (hwr : op.channelWrite id = some write)
    (h : Agrees id cell held) (hid : ∀ old, cell = some old → old.id = id)
    (hroot : id = rootChannel → ∃ root, cell = some root ∧ root.parent = none)
    (hlinks : ∀ value, write = .set value → value.links.isEmpty = true →
      ∀ old, cell = some old → old.links.isEmpty = true)
    (hpatch : write.isSet = false → write.isDrop = false → held.isSome = true) :
    Agrees id (op.tellChannel id cell) (write.run held) := by
  cases op with
  | createChannel channel =>
    simp only [channelWrite] at hwr
    split_ifs at hwr with heq
    obtain rfl := some.inj hwr
    subst heq
    left
    simp only [tellChannel, if_true, Write.run]
    rw [channelAfter_created hid hroot (hlinks _ rfl)]
    rfl
  | updateChannel patch =>
    simp only [channelWrite] at hwr
    split_ifs at hwr with heq
    obtain rfl := some.inj hwr
    subst heq
    obtain ⟨old, hold⟩ := isSome_iff_exists.mp (hpatch rfl rfl)
    rcases h with hsame | ⟨-, hnone⟩
    · left
      simp only [tellChannel, if_true, Write.run, hsame, hold]
      rw [channelAfter_patched (hid old (hsame.trans hold))]
      rfl
    · rw [hnone] at hold
      cases hold
  | removeChannel channel =>
    simp only [channelWrite] at hwr
    split_ifs at hwr with heq
    obtain rfl := some.inj hwr
    by_cases hid' : id = rootChannel
    · exact Or.inr ⟨hid', rfl⟩
    · exact Or.inl (if_pos ⟨heq, hid'⟩)
  | _ => cases hwr

theorem applyAll_emitOp_agrees {model : ClientModel}
    (hroot : ∃ root, model.channels.get? rootChannel = some root ∧ root.parent = none)
    (h : Agrees id (model.channels.get? id) held)
    (hsimple : Write.Simple held (ops.filterMap (channelWrite id)))
    (hlinks : ∀ value, .set value ∈ ops.filterMap (channelWrite id) →
      value.links.isEmpty = true → ∀ old, model.channels.get? id = some old →
        old.links.isEmpty = true) :
    Agrees id ((model.applyAll (ops.map emitOp)).channels.get? id)
      (Write.runAll (ops.filterMap (channelWrite id)) held) := by
  induction ops generalizing model held with
  | nil => exact h
  | cons op rest ih =>
    have hroot' := applyAll_root [emitOp op] hroot
    have hcell := apply_emitOp_channels model op id
    cases hwr : op.channelWrite id with
    | none =>
      rw [tellChannel_of_none hwr] at hcell
      rw [filterMap_cons_none hwr] at hsimple hlinks ⊢
      exact ih hroot' (by rw [hcell]; exact h) hsimple (by rw [hcell]; exact hlinks)
    | some write =>
      rw [filterMap_cons_some hwr] at hsimple hlinks ⊢
      have hstep : Agrees id (op.tellChannel id (model.channels.get? id)) (write.run held) := by
        refine tellChannel_agrees hwr h (fun old hold => key_of_get? hold)
          (fun heq => heq ▸ hroot) (fun value hset => hlinks value (hset ▸ mem_cons_self)) ?_
        intro hset hdrop
        rcases hsimple with hdrops | ⟨value, hone⟩ | ⟨hsome, -⟩
        · rw [hdrops write mem_cons_self] at hdrop
          cases hdrop
        · obtain ⟨rfl, -⟩ := cons.inj hone
          cases hset
        · exact hsome
      rw [← hcell] at hstep
      rcases hsimple with hdrops | ⟨value, hone⟩ | ⟨hsome, hpatches⟩
      · refine ih hroot' hstep (Or.inl fun w hw => hdrops w (mem_cons_of_mem _ hw)) ?_
        intro value hval
        cases hdrops _ (mem_cons_of_mem _ hval)
      · obtain ⟨-, hrest⟩ := cons.inj hone
        refine ih hroot' hstep (Or.inl (by simp [hrest])) ?_
        intro value' hval
        rw [hrest] at hval
        cases hval
      · obtain ⟨hset, hdrop⟩ := hpatches write mem_cons_self
        refine ih hroot' hstep (Or.inr (Or.inr ⟨?_, fun w hw =>
          hpatches w (mem_cons_of_mem _ hw)⟩)) ?_
        · cases write with
          | set value => cases hset
          | patch change => simpa [Write.run] using hsome
          | drop => cases hdrop
        · intro value hval
          cases (hpatches _ (mem_cons_of_mem _ hval)).1

structure Holds (client view : ClientModel) : Prop where
  users : ∀ session, client.users.get? session = view.users.get? session
  channels : ∀ id, Agrees id (client.channels.get? id) (view.channels.get? id)

/-- Among the operations is a creation without links of a channel the client has
with links: it will keep them. -/
def Unlinks (client : ClientModel) (ops : List PlanOp) : Prop :=
  ∃ channel, .createChannel channel ∈ ops ∧ channel.links.isEmpty = true ∧
    ∃ old, client.channels.get? channel.id = some old ∧ old.links.isEmpty = false

theorem Holds.emit {client view : ClientModel} (h : client.Holds view)
    (hroot : ∃ root, client.channels.get? rootChannel = some root ∧ root.parent = none)
    (self : SessionId)
    (hsimple : ∀ id, Write.Simple (view.channels.get? id) (ops.filterMap (channelWrite id)))
    (hlinks : ¬client.Unlinks ops) :
    (client.applyAll (emit ops self)).Holds (view.applyOps ops) where
  users session := by
    rw [applyAll_emit_users, applyOps_users, h.users]
  channels id := by
    rw [applyAll_emit_channels, applyOps_channels]
    refine applyAll_emitOp_agrees hroot (h.channels id) (hsimple id) ?_
    intro value hval hemp old hold
    obtain ⟨op, hop, hwr⟩ := mem_filterMap.mp hval
    cases op with
    | createChannel channel =>
      simp only [channelWrite] at hwr
      split_ifs at hwr with heq
      obtain rfl : channel.shown = value := by simpa using hwr
      by_contra hnot
      exact hlinks ⟨channel, hop, hemp, old, heq ▸ hold, by simpa using hnot⟩
    | updateChannel patch
    | removeChannel channel =>
      simp only [channelWrite] at hwr
      split_ifs at hwr
      cases hwr
    | _ => cases hwr

end ClientModel

end MumbleRuntime
