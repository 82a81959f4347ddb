import MumbleRuntime.Emit

/-!
# What a client holds

The fields of channels and users a client is shown, the reading of plan
operations as set, patch and delete on them, and the client's own reading of
control messages: absent fields keep their value, a non-empty link list replaces
and an empty one changes nothing, added and removed links apply on top. The
client holds the root before any message and never removes it.
-/

namespace MumbleRuntime
open Library

structure ClientChannel where
  id : ChannelId
  parent : Option ChannelId
  name : String
  position : ℤ
  canEnter : Bool
  links : OrderedSet ChannelId
  deriving DecidableEq

structure ClientUser where
  session : SessionId
  channel : ChannelId
  name : String
  flags : UserFlags
  deriving DecidableEq

structure ClientModel where
  channels : Table ClientChannel.id
  users : Table ClientUser.session
  deriving DecidableEq

def Channel.shown (channel : Channel) : ClientChannel where
  id := channel.id
  parent := if channel.id = rootChannel then none else some channel.parent
  name := channel.name
  position := channel.position
  canEnter := channel.canEnter
  links := channel.links

def User.shown (user : User) : ClientUser where
  session := user.session
  channel := user.channel
  name := user.name
  flags := user.flags

def ShardView.shown (view : ShardView) : ClientModel where
  channels := view.channels.mapRows Channel.shown (fun _ => rfl)
  users := view.users.mapRows User.shown (fun _ => rfl)

theorem ShardView.shown_channel (view : ShardView) (id : ChannelId) :
    view.shown.channels.get? id = (view.channels.get? id).map Channel.shown :=
  Table.get?_mapRows _ _ (fun _ => rfl) _

theorem ShardView.shown_user (view : ShardView) (session : SessionId) :
    view.shown.users.get? session = (view.users.get? session).map User.shown :=
  Table.get?_mapRows _ _ (fun _ => rfl) _

def ChannelPatch.amend (patch : ChannelPatch) (channel : ClientChannel) : ClientChannel where
  id := channel.id
  parent := if patch.id = rootChannel then channel.parent else patch.parent.or channel.parent
  name := patch.name.getD channel.name
  position := patch.position.getD channel.position
  canEnter := patch.canEnter.getD channel.canEnter
  links := (channel.links.difference patch.linksRemoved).extend patch.linksAdded

def UserPatch.amend (patch : UserPatch) (user : ClientUser) : ClientUser where
  session := user.session
  channel := user.channel
  name := patch.name.getD user.name
  flags := patch.flags.getD user.flags

def ControlMessage.isAside : ControlMessage → Bool
  | .channelState _ | .channelRemove _ | .userState _ | .userRemove _ => false
  | _ => true

def ControlMessage.isReply : ControlMessage → Bool
  | .textMessage _ | .permissionDenied _ | .permissionQuery _ | .userStats _ => true
  | _ => false

theorem ControlMessage.isAside_of_isReply {message : ControlMessage} (h : message.isReply = true) :
    message.isAside = true := by
  cases message <;> first | rfl | cases h

namespace ClientModel

def applyOp (model : ClientModel) : PlanOp → ClientModel
  | .createChannel channel => { model with channels := model.channels.insert channel.shown }
  | .updateChannel patch => { model with channels := model.channels.modify patch.id patch.amend }
  | .addUser user => { model with users := model.users.insert user.shown }
  | .moveUser session channel =>
    { model with users := model.users.modify session fun user => { user with channel } }
  | .updateUser patch => { model with users := model.users.modify patch.session patch.amend }
  | .removeUser session => { model with users := model.users.erase session }
  | .removeChannel channel => { model with channels := model.channels.erase channel }

def applyOps (model : ClientModel) (ops : List PlanOp) : ClientModel := ops.foldl applyOp model

def rootDefault : ClientChannel where
  id := rootChannel
  parent := none
  name := "Root"
  position := 0
  canEnter := true
  links := Table.empty

def new : ClientModel := ⟨Table.empty.insert rootDefault, Table.empty⟩

instance : Inhabited ClientModel := ⟨new⟩

def mergeChannel (state : ChannelState) (channel : ClientChannel) : ClientChannel where
  id := channel.id
  parent := if channel.id = rootChannel then channel.parent else state.parent.or channel.parent
  name := state.name.getD channel.name
  position := state.position.getD channel.position
  canEnter := state.canEnter.getD channel.canEnter
  links :=
    ((if state.links.isEmpty then channel.links else state.links).difference
      state.linksRemove).extend state.linksAdd

/-- What a `ChannelState` about `id` makes of the client's copy. Creation needs
both a parent and a name. -/
def channelAfter (state : ChannelState) (id : ChannelId) :
    Option ClientChannel → Option ClientChannel
  | some channel => some (mergeChannel state channel)
  | none =>
    match state.parent, state.name with
    | some parent, some name =>
      some (mergeChannel state
        { id, parent := some parent, name, position := state.position.getD 0,
          canEnter := state.canEnter.getD true, links := Table.empty })
    | _, _ => none

def mergeFlags (state : UserState) (flags : UserFlags) : UserFlags where
  mute := state.mute.getD flags.mute
  deaf := state.deaf.getD flags.deaf
  suppress := state.suppress.getD flags.suppress
  selfMute := state.selfMute.getD flags.selfMute
  selfDeaf := state.selfDeaf.getD flags.selfDeaf
  prioritySpeaker := state.prioritySpeaker.getD flags.prioritySpeaker
  recording := state.recording.getD flags.recording

/-- What a `UserState` about `session` makes of the client's copy. Creation
needs both a name and a channel. -/
def userAfter (state : UserState) (session : SessionId) : Option ClientUser → Option ClientUser
  | some user =>
    some { user with
      channel := state.channelId.getD user.channel
      name := state.name.getD user.name
      flags := mergeFlags state user.flags }
  | none =>
    match state.name, state.channelId with
    | some name, some channel => some ⟨session, channel, name, mergeFlags state {}⟩
    | _, _ => none

def apply (model : ClientModel) : ControlMessage → ClientModel
  | .channelState state =>
    match state.channelId with
    | none => model
    | some id =>
      match channelAfter state id (model.channels.get? id) with
      | none => model
      | some channel => { model with channels := model.channels.insert channel }
  | .channelRemove channel =>
    if channel = rootChannel then model
    else { model with channels := model.channels.erase channel }
  | .userState state =>
    match state.session with
    | none => model
    | some session =>
      match userAfter state session (model.users.get? session) with
      | none => model
      | some user => { model with users := model.users.insert user }
  | .userRemove session => { model with users := model.users.erase session }
  | _ => model

def applyAll (model : ClientModel) (messages : List ControlMessage) : ClientModel :=
  messages.foldl apply model

theorem applyAll_append (model : ClientModel) (messages more : List ControlMessage) :
    model.applyAll (messages ++ more) = (model.applyAll messages).applyAll more :=
  List.foldl_append

theorem applyAll_asides (model : ClientModel) {messages : List ControlMessage}
    (h : ∀ message ∈ messages, message.isAside = true) : model.applyAll messages = model := by
  induction messages generalizing model with
  | nil => rfl
  | cons message rest ih =>
    have hfst : model.apply message = model := by
      have hasd := h message List.mem_cons_self
      cases message <;> first | rfl | cases hasd
    change (model.apply message).applyAll rest = model
    rw [hfst]
    exact ih model fun m hm => h m (List.mem_cons_of_mem _ hm)

end ClientModel

end MumbleRuntime
