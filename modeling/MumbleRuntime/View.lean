import MumbleRuntime.Scope
import MumbleRuntime.Ids

/-!
# The rendered shard view and the private overlays layered on it

A shard view holds each fact once, whoever ends up seeing it; an overlay holds
the elements visible to exactly one connection. Both are tables keyed by the
identifier their records carry, so a record is always found under its own id.
-/

namespace MumbleRuntime
open Library

structure Channel where
  key : ChannelKey
  id : ChannelId
  parent : ChannelId
  scope : Scope
  name : String
  position : ℤ
  canEnter : Bool
  canText : Bool
  links : OrderedSet ChannelId
  deriving DecidableEq

structure UserFlags where
  mute : Bool := false
  deaf : Bool := false
  suppress : Bool := false
  selfMute : Bool := false
  selfDeaf : Bool := false
  prioritySpeaker : Bool := false
  recording : Bool := false
  deriving DecidableEq

instance : Inhabited UserFlags := ⟨{}⟩

structure User where
  occupant : Occupant
  session : SessionId
  channel : ChannelId
  scope : Scope
  name : String
  flags : UserFlags
  deriving DecidableEq

abbrev Channels := Table Channel.id
abbrev Users := Table User.session

structure ShardView where
  channels : Channels
  users : Users
  deriving DecidableEq

/-- Elements visible to exactly one connection. -/
structure Overlay where
  channels : Channels
  users : Users
  deriving DecidableEq

def Overlay.empty : Overlay := ⟨Table.empty, Table.empty⟩

instance : Inhabited Overlay := ⟨Overlay.empty⟩

def Overlay.isEmpty (overlay : Overlay) : Bool :=
  overlay.channels.isEmpty && overlay.users.isEmpty

namespace ShardView

def empty : ShardView := ⟨Table.empty, Table.empty⟩

instance : Inhabited ShardView := ⟨empty⟩

/-- The part of this view visible to `see`. -/
def restrict (view : ShardView) (see : ScopeSet) : ShardView where
  channels := view.channels.filter (fun channel => see.sees channel.scope)
  users := view.users.filter (fun user => see.sees user.scope)

/-- This view with `overlay` layered on top. -/
def compose (view : ShardView) (overlay : Overlay) : ShardView where
  channels := view.channels.extend overlay.channels
  users := view.users.extend overlay.users

theorem ext_get? {v w : ShardView} (hc : ∀ id, v.channels.get? id = w.channels.get? id)
    (hu : ∀ s, v.users.get? s = w.users.get? s) : v = w := by
  cases v
  cases w
  congr 1
  · exact Table.ext_get? hc
  · exact Table.ext_get? hu

end ShardView

/-- `On`: the menus a context action is offered in, as a bit set. -/
structure On where
  bits : ℕ
  deriving DecidableEq

namespace On

def server : On := ⟨1⟩
def channel : On := ⟨2⟩
def user : On := ⟨4⟩

def and (a b : On) : On := ⟨a.bits ||| b.bits⟩

def covers (a place : On) : Bool := a.bits &&& place.bits == place.bits

end On

structure Action where
  key : ActionKey
  text : String
  on : On
  deriving DecidableEq

abbrev Actions := Table Action.key

end MumbleRuntime
