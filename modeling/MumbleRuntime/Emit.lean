import MumbleRuntime.Compose

/-!
# Translating a composed transition into Mumble control messages

The control messages a shard writes, with the fields it fills. The only
reordering is inside a run of consecutive user additions, where the connection
is introduced to itself first.
-/

namespace MumbleRuntime
open Library

structure ChannelState where
  channelId : Option ChannelId := none
  parent : Option ChannelId := none
  name : Option String := none
  position : Option ℤ := none
  temporary : Option Bool := none
  canEnter : Option Bool := none
  links : OrderedSet ChannelId := Table.empty
  linksAdd : OrderedSet ChannelId := Table.empty
  linksRemove : OrderedSet ChannelId := Table.empty
  deriving DecidableEq

structure UserState where
  session : Option SessionId := none
  name : Option String := none
  channelId : Option ChannelId := none
  mute : Option Bool := none
  deaf : Option Bool := none
  suppress : Option Bool := none
  selfMute : Option Bool := none
  selfDeaf : Option Bool := none
  prioritySpeaker : Option Bool := none
  recording : Option Bool := none
  deriving DecidableEq

structure TextMessage where
  actor : Option SessionId := none
  session : List SessionId := []
  channelId : List ChannelId := []
  treeId : List ChannelId := []
  message : String
  deriving DecidableEq

inductive DenyType
  | text
  | permission
  deriving DecidableEq

structure PermissionDenied where
  permission : Option ℕ := none
  channelId : Option ChannelId := none
  session : Option SessionId := none
  reason : Option String := none
  type : Option DenyType := none
  deriving DecidableEq

structure PermissionQuery where
  channelId : Option ChannelId := none
  permissions : Option ℕ := none
  flush : Option Bool := none
  deriving DecidableEq

inductive ActionOperation
  | add
  | remove
  deriving DecidableEq

structure ContextActionModify where
  action : String
  text : Option String := none
  context : Option ℕ := none
  operation : Option ActionOperation := none
  deriving DecidableEq

inductive ControlMessage
  | channelState (state : ChannelState)
  | channelRemove (channel : ChannelId)
  | userState (state : UserState)
  | userRemove (session : SessionId)
  | textMessage (text : TextMessage)
  | permissionQuery (query : PermissionQuery)
  | permissionDenied (denied : PermissionDenied)
  | userStats (session : Option SessionId)
  | contextActionModify (modify : ContextActionModify)
  | udpTunnel
  deriving DecidableEq

inductive TextTarget
  | session (session : SessionId)
  | channel (channel : ChannelId)
  | tree (channel : ChannelId)
  deriving DecidableEq

inductive Word
  | say (text : String)
  | refuse (reason : String)
  deriving DecidableEq

namespace Emit

namespace Perm
def traverse : ℕ := 0x2
def enter : ℕ := 0x4
def speak : ℕ := 0x8
def whisper : ℕ := 0x100
def textMessage : ℕ := 0x200
def default : ℕ := traverse ||| enter ||| speak ||| whisper ||| textMessage
end Perm

-- Every bit taken away is one that `Perm.default` holds, so `permissions & !bit`
-- is the difference.
def permissionsOf (channel : Channel) : ℕ :=
  Perm.default - (if channel.canEnter then 0 else Perm.enter) -
    (if channel.canText then 0 else Perm.textMessage)

def permissionQuery (channel : Channel) : ControlMessage :=
  .permissionQuery
    { channelId := some channel.id
      permissions := some (permissionsOf channel)
      flush := some false }

def userStats (session : SessionId) : ControlMessage := .userStats (some session)

def spoken (session : SessionId) : Word → ControlMessage
  | .say text => .textMessage { session := [session], message := text }
  | .refuse reason =>
    .permissionDenied { session := some session, reason := some reason, type := some .text }

def relayed (actor : Option SessionId) (target : TextTarget) (text : String) : ControlMessage :=
  match target with
  | .session session => .textMessage { actor, session := [session], message := text }
  | .channel channel => .textMessage { actor, channelId := [channel], message := text }
  | .tree channel => .textMessage { actor, treeId := [channel], message := text }

def deniedPermission (session : SessionId) (channel : ChannelId) (permission : ℕ) :
    ControlMessage :=
  .permissionDenied
    { permission := some permission
      channelId := some channel
      session := some session
      type := some .permission }

def actionName (key : ActionKey) : String := toString key

def digitValue (c : Char) : Option ℕ := if c.isDigit then some (c.toNat - '0'.toNat) else none

def parseDigits (digits : List Char) : Option ℕ :=
  digits.foldlM (fun n c => (digitValue c).map (10 * n + ·)) 0

/-- `str::parse::<u64>`: an optional plus sign, then digits, within 64 bits. -/
def parseU64 (name : String) : Option ℕ :=
  let digits := match name.toList with
    | '+' :: rest => rest
    | chars => chars
  if digits = [] then none
  else (parseDigits digits).filter (· < 2 ^ 64)

def actionKey (name : String) : Option ActionKey := parseU64 name

def offerAction (action : Action) : ControlMessage :=
  .contextActionModify
    { action := actionName action.key
      text := some action.text
      context := some action.on.bits
      operation := some .add }

def withdrawAction (key : ActionKey) : ControlMessage :=
  .contextActionModify { action := actionName key, operation := some .remove }

def actions (sent fresh : Actions) : List ControlMessage :=
  (sent.rows.filter fun action => fresh.get? action.key ≠ some action).map
      (fun action => withdrawAction action.key) ++
    (fresh.rows.filter fun action => sent.get? action.key ≠ some action).map offerAction

def createdChannel (channel : Channel) : ChannelState where
  channelId := some channel.id
  parent := if channel.id = rootChannel then none else some channel.parent
  name := some channel.name
  position := some channel.position
  temporary := some false
  canEnter := some channel.canEnter
  links := channel.links

def patchedChannel (patch : ChannelPatch) : ChannelState where
  channelId := some patch.id
  parent := patch.parent
  name := patch.name
  position := patch.position
  canEnter := patch.canEnter
  linksAdd := patch.linksAdded
  linksRemove := patch.linksRemoved

def addedUser (user : User) : UserState where
  session := some user.session
  name := some user.name
  channelId := some user.channel
  mute := some user.flags.mute
  deaf := some user.flags.deaf
  suppress := some user.flags.suppress
  selfMute := some user.flags.selfMute
  selfDeaf := some user.flags.selfDeaf
  prioritySpeaker := some user.flags.prioritySpeaker
  recording := some user.flags.recording

def patchedUser (patch : UserPatch) : UserState where
  session := some patch.session
  name := patch.name
  mute := patch.flags.map UserFlags.mute
  deaf := patch.flags.map UserFlags.deaf
  suppress := patch.flags.map UserFlags.suppress
  selfMute := patch.flags.map UserFlags.selfMute
  selfDeaf := patch.flags.map UserFlags.selfDeaf
  prioritySpeaker := patch.flags.map UserFlags.prioritySpeaker
  recording := patch.flags.map UserFlags.recording

def emitOp : PlanOp → ControlMessage
  | .createChannel channel => .channelState (createdChannel channel)
  | .updateChannel patch => .channelState (patchedChannel patch)
  | .removeChannel channel => .channelRemove channel
  | .addUser user => .userState (addedUser user)
  | .updateUser patch => .userState (patchedUser patch)
  | .moveUser session channel =>
    .userState { session := some session, channelId := some channel }
  | .removeUser session => .userRemove session

def isUserAddition : PlanOp → Bool
  | .addUser _ => true
  | _ => false

def isSelfAddition (selfSession : SessionId) : PlanOp → Bool
  | .addUser user => user.session = selfSession
  | _ => false

-- The sequence is cut into maximal runs of user additions and of other
-- operations; only a run of additions holds anything to bring forward.
def selfFirstWithinUserAdditions (ops : List PlanOp) (selfSession : SessionId) : List PlanOp :=
  (ops.splitBy fun left right => isUserAddition left == isUserAddition right).flatMap fun run =>
    run.filter (isSelfAddition selfSession) ++ run.filter (fun op => !isSelfAddition selfSession op)

def emit (ops : List PlanOp) (selfSession : SessionId) : List ControlMessage :=
  (selfFirstWithinUserAdditions ops selfSession).map emitOp

end Emit

end MumbleRuntime
