import MumbleRuntime.View
import Mathlib.Data.List.Sort

/-!
# Planning a transition, with the scope as part of the element's identity

The diff compares entries `(element, scope)`: an element that changes scope
departs from the old one and arrives in the new one, while a change within a
scope stays a field-level update. The global order is channel creations
(parents first), channel updates, user additions, user moves, user updates, user
removals, channel removals (children first).

A removal carries the scope of the previous view, since the element may be
absent from the new one.
-/

namespace MumbleRuntime
open Library

structure ChannelPatch where
  id : ChannelId
  parent : Option ChannelId
  name : Option String
  position : Option ℤ
  canEnter : Option Bool
  linksAdded : OrderedSet ChannelId
  linksRemoved : OrderedSet ChannelId
  deriving DecidableEq

def ChannelPatch.isNoop (p : ChannelPatch) : Bool :=
  p.parent.isNone && p.name.isNone && p.position.isNone && p.canEnter.isNone &&
    p.linksAdded.isEmpty && p.linksRemoved.isEmpty

structure UserPatch where
  session : SessionId
  name : Option String
  flags : Option UserFlags
  deriving DecidableEq

def UserPatch.isNoop (p : UserPatch) : Bool := p.name.isNone && p.flags.isNone

inductive PlanOp
  | createChannel (channel : Channel)
  | updateChannel (patch : ChannelPatch)
  | addUser (user : User)
  | moveUser (session : SessionId) (channel : ChannelId)
  | updateUser (patch : UserPatch)
  | removeUser (session : SessionId)
  | removeChannel (channel : ChannelId)
  deriving DecidableEq

inductive ElementId
  | channel (id : ChannelId)
  | user (session : SessionId)
  deriving DecidableEq

namespace PlanOp

def added : PlanOp → Option ElementId
  | .createChannel channel => some (.channel channel.id)
  | .addUser user => some (.user user.session)
  | _ => none

def removed : PlanOp → Option ElementId
  | .removeChannel channel => some (.channel channel)
  | .removeUser session => some (.user session)
  | _ => none

def isRemoval : PlanOp → Bool
  | .removeUser _ | .removeChannel _ => true
  | _ => false

def element : PlanOp → ElementId
  | .createChannel channel => .channel channel.id
  | .updateChannel patch => .channel patch.id
  | .addUser user => .user user.session
  | .moveUser session _ => .user session
  | .updateUser patch => .user patch.session
  | .removeUser session => .user session
  | .removeChannel channel => .channel channel

end PlanOp

structure PlannedOp where
  op : PlanOp
  scope : Scope
  deriving DecidableEq

namespace Plan

def changed {α : Type*} [DecidableEq α] (old new : α) : Option α :=
  if old = new then none else some new

def channelPatch (old new : Channel) : ChannelPatch where
  id := new.id
  parent := changed old.parent new.parent
  name := changed old.name new.name
  position := changed old.position new.position
  canEnter := changed old.canEnter new.canEnter
  linksAdded := new.links.difference old.links
  linksRemoved := old.links.difference new.links

def userPatch (old new : User) : UserPatch where
  session := new.session
  name := changed old.name new.name
  flags := changed old.flags new.flags

/-- One pass over the channels still to order: those whose parent is present
are placed, the others wait. -/
def placeCreations (present : OrderedSet ChannelId) :
    List Channel → OrderedSet ChannelId × List Channel × List Channel
  | [] => (present, [], [])
  | channel :: rest =>
    if channel.parent = channel.id || present.contains channel.parent then
      let (present, ordered, waiting) := placeCreations (present.insert channel.id) rest
      (present, channel :: ordered, waiting)
    else
      let (present, ordered, waiting) := placeCreations present rest
      (present, ordered, channel :: waiting)

-- Each pass that makes progress shortens what remains, so as many passes as
-- there are channels suffice; a pass without progress releases the rest.
def orderCreationsFrom : ℕ → OrderedSet ChannelId → List Channel → List Channel
  | 0, _, remaining => remaining
  | fuel + 1, present, remaining =>
    match placeCreations present remaining with
    | (_, [], waiting) => waiting
    | (present, ordered, waiting) => ordered ++ orderCreationsFrom fuel present waiting

def orderCreations (created : List Channel) (before : Channels) : List Channel :=
  orderCreationsFrom created.length (Table.ofList (before.rows.map Channel.id)) created

/-- The walk of `depth_in`: it stops at the root, at a channel it has met
already and at one the view does not hold. -/
def depthFrom (channels : Channels) : ℕ → List ChannelId → ChannelId → ℕ
  | 0, _, _ => 0
  | fuel + 1, met, current =>
    if current = rootChannel || met.contains current then 0
    else
      match channels.get? current with
      | some entry => depthFrom channels fuel (current :: met) entry.parent + 1
      | none => 0

def depthIn (view : ShardView) (channel : ChannelId) : ℕ :=
  depthFrom view.channels (view.channels.rows.length + 1) [] channel

/-- The walk of `overlay_depth`: the root is not special and a channel that is
its own parent ends it. -/
def overlayDepthFrom (channels : Channels) : ℕ → List ChannelId → ChannelId → ℕ
  | 0, _, _ => 0
  | fuel + 1, met, current =>
    if met.contains current then 0
    else
      match channels.get? current with
      | some entry =>
        if entry.parent = current then 0
        else overlayDepthFrom channels fuel (current :: met) entry.parent + 1
      | none => 0

def overlayDepth (channels : Channels) (channel : ChannelId) : ℕ :=
  overlayDepthFrom channels (channels.rows.length + 1) [] channel

def deeperFirst (depth : ChannelId → ℕ) (left right : ChannelId) : Prop :=
  depth right < depth left ∨ depth right = depth left ∧ left ≤ right

instance (depth : ChannelId → ℕ) (left right : ChannelId) :
    Decidable (deeperFirst depth left right) :=
  inferInstanceAs (Decidable (_ ∨ _))

def orderRemovals (removed : List (ChannelId × Scope)) (before : ShardView) :
    List (ChannelId × Scope) :=
  removed.insertionSort (fun left right => deeperFirst (depthIn before) left.1 right.1)

def created (before after : ShardView) : List Channel :=
  after.channels.rows.filterMap fun new =>
    match before.channels.get? new.id with
    | some old => if old.scope = new.scope then none else some new
    | none => some new

def updated (before after : ShardView) : List PlannedOp :=
  after.channels.rows.filterMap fun new =>
    match before.channels.get? new.id with
    | some old =>
      if old.scope = new.scope then
        let patch := channelPatch old new
        if patch.isNoop then none else some ⟨.updateChannel patch, new.scope⟩
      else none
    | none => none

def channelRemovals (before after : ShardView) : List (ChannelId × Scope) :=
  (after.channels.rows.filterMap fun new =>
    match before.channels.get? new.id with
    | some old => if old.scope = new.scope then none else some (new.id, old.scope)
    | none => none) ++
  before.channels.rows.filterMap fun old =>
    if after.channels.contains old.id then none else some (old.id, old.scope)

def userAdditions (before after : ShardView) : List PlannedOp :=
  after.users.rows.filterMap fun new =>
    match before.users.get? new.session with
    | some old => if old.scope = new.scope then none else some ⟨.addUser new, new.scope⟩
    | none => some ⟨.addUser new, new.scope⟩

def userMoves (before after : ShardView) : List PlannedOp :=
  after.users.rows.filterMap fun new =>
    match before.users.get? new.session with
    | some old =>
      if old.scope = new.scope ∧ old.channel ≠ new.channel then
        some ⟨.moveUser new.session new.channel, new.scope⟩
      else none
    | none => none

def userUpdates (before after : ShardView) : List PlannedOp :=
  after.users.rows.filterMap fun new =>
    match before.users.get? new.session with
    | some old =>
      if old.scope = new.scope ∧ (userPatch old new).isNoop = false then
        some ⟨.updateUser (userPatch old new), new.scope⟩
      else none
    | none => none

def userRemovals (before after : ShardView) : List PlannedOp :=
  (after.users.rows.filterMap fun new =>
    match before.users.get? new.session with
    | some old =>
      if old.scope = new.scope then none else some ⟨.removeUser new.session, old.scope⟩
    | none => none) ++
  before.users.rows.filterMap fun old =>
    if after.users.contains old.session then none
    else some ⟨.removeUser old.session, old.scope⟩

/-- Plan the transition from `before` to `after`. -/
def plan (before after : ShardView) : List PlannedOp :=
  (orderCreations (created before after) before.channels).map
      (fun channel => ⟨.createChannel channel, channel.scope⟩) ++
    updated before after ++ userAdditions before after ++ userMoves before after ++
    userUpdates before after ++ userRemovals before after ++
    (orderRemovals (channelRemovals before after) before).map
      (fun removed => ⟨.removeChannel removed.1, removed.2⟩)

end Plan

structure OverlayOps where
  additions : List PlanOp
  removals : List PlanOp
  deriving DecidableEq

namespace Plan

def overlayCreated (before after : Overlay) : List Channel :=
  after.channels.rows.filter fun new => !before.channels.contains new.id

def overlayUpdated (before after : Overlay) : List PlanOp :=
  after.channels.rows.filterMap fun new =>
    match before.channels.get? new.id with
    | some old =>
      let patch := channelPatch old new
      if patch.isNoop then none else some (.updateChannel patch)
    | none => none

def overlayUsers (before after : Overlay) : List PlanOp :=
  after.users.rows.flatMap fun new =>
    match before.users.get? new.session with
    | some old =>
      let patch := userPatch old new
      (if old.channel = new.channel then [] else [.moveUser new.session new.channel]) ++
        (if patch.isNoop then [] else [.updateUser patch])
    | none => [.addUser new]

def overlayUserRemovals (before after : Overlay) : List PlanOp :=
  before.users.rows.filterMap fun old =>
    if after.users.contains old.session then none else some (.removeUser old.session)

def overlayChannelRemovals (before after : Overlay) : List ChannelId :=
  before.channels.rows.filterMap fun old =>
    if after.channels.contains old.id then none else some old.id

/-- Plan an overlay transition: users before channels on the way out, channels
before users on the way in. -/
def planElements (before after : Overlay) : OverlayOps where
  additions :=
    (orderCreations (overlayCreated before after) Table.empty).map .createChannel ++
      overlayUpdated before after ++ overlayUsers before after
  removals :=
    overlayUserRemovals before after ++
      ((overlayChannelRemovals before after).insertionSort
        (deeperFirst (overlayDepth before.channels))).map .removeChannel

end Plan

end MumbleRuntime
