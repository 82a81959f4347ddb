import MumbleRuntime.Routing

/-!
# The render builder: the only way a flavor produces a view

A flavor's render is a sequence of calls on one builder. Every call that can
fail records the first refusal and carries on; `finish` returns it, or the first
failure of its three closing checks, or the rendered view. A call's scope is
derived from a handle through `Narrow`, which can only extend.
-/

namespace MumbleRuntime
open Library Table

def maxActions : ℕ := 64

inductive Narrow
  | same
  | into (segment : ℕ)
  deriving DecidableEq

structure ChannelRef where
  id : ChannelId
  scope : Scope
  deriving DecidableEq

structure UserRef where
  session : SessionId
  deriving DecidableEq

inductive NarrowContext
  | channel (name : String)
  | user (name : String)
  deriving DecidableEq

inductive BuildError
  | missingRoot
  | duplicateRoot
  | duplicateChannelKey (key : ChannelKey)
  | duplicateOccupant (occupant : Occupant)
  | scopeTooDeep (context : NarrowContext)
  | exhausted (exhausted : Exhausted)
  | linkAcrossScopes (a b : ChannelId)
  | sharedAndPrivateUser (session : SessionId) (connection : ConnectionId)
  | sharedAndPrivateChannel (channel : ChannelId) (connection : ConnectionId)
  | overlayChannelMissing (connection : ConnectionId) (channel : ChannelId)
  | overlayChannelInvisible (connection : ConnectionId) (channel : ChannelId)
  | tooManyActions (connection : ConnectionId)
  | receiverCannotSeeSender (sender receiver : ConnectionId)
  deriving DecidableEq

structure Rendered where
  view : ShardView
  overlays : OrderedMap ConnectionId Overlay
  actions : OrderedMap ConnectionId Actions
  audio : AudioRelation
  deriving DecidableEq

namespace Rendered

def overlayOf (rendered : Rendered) (connection : ConnectionId) : Overlay :=
  (rendered.overlays.find? connection).getD Overlay.empty

def actionsOf (rendered : Rendered) (connection : ConnectionId) : Actions :=
  (rendered.actions.find? connection).getD Table.empty

end Rendered

/-- What a connection observes; `none` for a connection nobody asked about. -/
abbrev Observations := ConnectionId → Option ScopeSet

def Observations.of (observations : Observations) (connection : ConnectionId) : ScopeSet :=
  (observations connection).getD ScopeSet.none

structure ShardBuilder where
  ids : IdAllocator
  shard : ShardId
  view : ShardView
  overlays : OrderedMap ConnectionId Overlay
  actions : OrderedMap ConnectionId Actions
  audio : AudioRelation
  keysSeen : OrderedSet ChannelKey
  occupantsSeen : List Occupant
  rooted : Bool
  error : Option BuildError

structure PrivateBuilder where
  ids : IdAllocator
  shard : ShardId
  connection : ConnectionId
  overlay : Overlay
  actions : Actions
  error : Option BuildError

inductive PrivateCall
  | userIn (channel : ChannelRef) (who : Occupant) (name : String)
  | channel (parent : ChannelRef) (key : ChannelKey) (name : String)
  | userFlags (user : UserRef) (flags : UserFlags)
  | action (key : ActionKey) (text : String) (on : On)

inductive BuildCall
  | root (name : String)
  | channel (parent : ChannelRef) (key : ChannelKey) (name : String) (narrow : Narrow)
  | user (channel : ChannelRef) (who : Occupant) (name : String) (narrow : Narrow)
  | channelPosition (channel : ChannelRef) (position : ℤ)
  | channelCanEnter (channel : ChannelRef) (yes : Bool)
  | channelCanText (channel : ChannelRef) (yes : Bool)
  | channelLink (a b : ChannelRef)
  | userFlags (user : UserRef) (flags : UserFlags)
  | privately (connection : ConnectionId) (build : List PrivateCall)
  | audioDomain (domain : DomainId) (members : List ConnectionId)
  | audioListen (listener : ConnectionId) (domain : DomainId)
  | audioEdge (sender receiver : ConnectionId)

def Channel.fresh (key : ChannelKey) (id parent : ChannelId) (scope : Scope) (name : String) :
    Channel where
  key := key
  id := id
  parent := parent
  scope := scope
  name := name
  position := 0
  canEnter := true
  canText := true
  links := Table.empty

namespace PrivateBuilder

def fail (builder : PrivateBuilder) (error : BuildError) : PrivateBuilder :=
  { builder with error := builder.error.or (some error) }

def placeUser (builder : PrivateBuilder) (channel : ChannelRef) (who : Occupant) (name : String)
    (session : SessionId) : PrivateBuilder :=
  { builder with
    overlay.users := builder.overlay.users.insert
      { occupant := who, session, channel := channel.id, scope := channel.scope, name, flags := {} } }

def userIn (builder : PrivateBuilder) (channel : ChannelRef) (who : Occupant) (name : String) :
    UserRef × PrivateBuilder :=
  match builder.ids.session who with
  | .ok (session, ids) => (⟨session⟩, { builder with ids }.placeUser channel who name session)
  | .error exhausted =>
    (⟨0⟩, (builder.fail (.exhausted exhausted)).placeUser channel who name 0)

-- A key that the overlay already holds is written over, parent included.
def channel (builder : PrivateBuilder) (parent : ChannelRef) (key : ChannelKey) (name : String) :
    ChannelRef × PrivateBuilder :=
  match builder.ids.channel builder.shard key with
  | .error exhausted => (parent, builder.fail (.exhausted exhausted))
  | .ok (id, ids) =>
    (⟨id, parent.scope⟩,
      { builder with
        ids
        overlay.channels := builder.overlay.channels.insert
          (Channel.fresh key id parent.id parent.scope name) })

def userFlags (builder : PrivateBuilder) (user : UserRef) (flags : UserFlags) : PrivateBuilder :=
  { builder with
    overlay.users := builder.overlay.users.modify user.session fun entry => { entry with flags } }

def action (builder : PrivateBuilder) (key : ActionKey) (text : String) (on : On) : PrivateBuilder :=
  if maxActions ≤ builder.actions.rows.length && !builder.actions.contains key then
    builder.fail (.tooManyActions builder.connection)
  else { builder with actions := builder.actions.insert ⟨key, text, on⟩ }

def call (builder : PrivateBuilder) : PrivateCall → Option ChannelRef × PrivateBuilder
  | .userIn channel who name => (none, (builder.userIn channel who name).2)
  | .channel parent key name =>
    let (handle, builder) := builder.channel parent key name
    (some handle, builder)
  | .userFlags user flags => (none, builder.userFlags user flags)
  | .action key text on => (none, builder.action key text on)

def run (builder : PrivateBuilder) : List PrivateCall → List ChannelRef × PrivateBuilder
  | [] => ([], builder)
  | call :: rest =>
    let (handle, builder) := builder.call call
    let (handles, builder) := builder.run rest
    (handle.toList ++ handles, builder)

end PrivateBuilder

namespace ShardBuilder

def new (ids : IdAllocator) (shard : ShardId) : ShardBuilder where
  ids := ids
  shard := shard
  view := ShardView.empty
  overlays := Table.empty
  actions := Table.empty
  audio := AudioRelation.empty
  keysSeen := Table.empty
  occupantsSeen := []
  rooted := false
  error := none

def fail (builder : ShardBuilder) (error : BuildError) : ShardBuilder :=
  { builder with error := builder.error.or (some error) }

def root (builder : ShardBuilder) (name : String) : ChannelRef × ShardBuilder :=
  if builder.rooted then (⟨rootChannel, Scope.root⟩, builder.fail .duplicateRoot)
  else
    (⟨rootChannel, Scope.root⟩,
      { builder with
        rooted := true
        view.channels := builder.view.channels.insert
          (Channel.fresh rootKey rootChannel rootChannel Scope.root name) })

/-- Apply a `Narrow`; `none` past the depth bound. -/
def narrowed (parent : Scope) : Narrow → Option Scope
  | .same => some parent
  | .into segment => parent.child segment

def channel (builder : ShardBuilder) (parent : ChannelRef) (key : ChannelKey) (name : String)
    (narrow : Narrow) : ChannelRef × ShardBuilder :=
  match narrowed parent.scope narrow with
  | none => (parent, builder.fail (.scopeTooDeep (.channel name)))
  | some scope =>
    if builder.keysSeen.contains key then (parent, builder.fail (.duplicateChannelKey key))
    else
      let builder := { builder with keysSeen := builder.keysSeen.insert key }
      match builder.ids.channel builder.shard key with
      | .error exhausted => (parent, builder.fail (.exhausted exhausted))
      | .ok (id, ids) =>
        (⟨id, scope⟩,
          { builder with
            ids
            view.channels := builder.view.channels.insert
              (Channel.fresh key id parent.id scope name) })

def sessionOrZero (builder : ShardBuilder) (who : Occupant) : SessionId × ShardBuilder :=
  match builder.ids.session who with
  | .ok (session, ids) => (session, { builder with ids })
  | .error exhausted => (0, builder.fail (.exhausted exhausted))

def narrowedUser (builder : ShardBuilder) (channel : ChannelRef) (name : String)
    (narrow : Narrow) : Scope × ShardBuilder :=
  match narrowed channel.scope narrow with
  | some scope => (scope, builder)
  | none => (channel.scope, builder.fail (.scopeTooDeep (.user name)))

def user (builder : ShardBuilder) (channel : ChannelRef) (who : Occupant) (name : String)
    (narrow : Narrow) : UserRef × ShardBuilder :=
  let (scope, builder) := builder.narrowedUser channel name narrow
  let (session, builder) := builder.sessionOrZero who
  if who ∈ builder.occupantsSeen then (⟨session⟩, builder.fail (.duplicateOccupant who))
  else
    (⟨session⟩,
      { builder with
        occupantsSeen := who :: builder.occupantsSeen
        view.users := builder.view.users.insert
          { occupant := who, session, channel := channel.id, scope, name, flags := {} } })

def modifyChannel (builder : ShardBuilder) (id : ChannelId) (f : Channel → Channel) : ShardBuilder :=
  { builder with view.channels := builder.view.channels.modify id f }

def channelPosition (builder : ShardBuilder) (channel : ChannelRef) (position : ℤ) : ShardBuilder :=
  builder.modifyChannel channel.id fun entry => { entry with position }

def channelCanEnter (builder : ShardBuilder) (channel : ChannelRef) (yes : Bool) : ShardBuilder :=
  builder.modifyChannel channel.id fun entry => { entry with canEnter := yes }

def channelCanText (builder : ShardBuilder) (channel : ChannelRef) (yes : Bool) : ShardBuilder :=
  builder.modifyChannel channel.id fun entry => { entry with canText := yes }

def channelLink (builder : ShardBuilder) (a b : ChannelRef) : ShardBuilder :=
  if a.scope.comparable b.scope then
    (builder.modifyChannel a.id fun entry => { entry with links := entry.links.insert b.id }).modifyChannel
      b.id fun entry => { entry with links := entry.links.insert a.id }
  else builder.fail (.linkAcrossScopes a.id b.id)

def userFlags (builder : ShardBuilder) (user : UserRef) (flags : UserFlags) : ShardBuilder :=
  { builder with
    view.users := builder.view.users.modify user.session fun entry => { entry with flags } }

def openPrivate (builder : ShardBuilder) (connection : ConnectionId) : PrivateBuilder where
  ids := builder.ids
  shard := builder.shard
  connection := connection
  overlay := (builder.overlays.find? connection).getD Overlay.empty
  actions := (builder.actions.find? connection).getD Table.empty
  error := builder.error

def closePrivate (builder : ShardBuilder) (inner : PrivateBuilder) : ShardBuilder :=
  { builder with
    ids := inner.ids
    overlays := builder.overlays.set inner.connection inner.overlay
    actions := builder.actions.set inner.connection inner.actions
    error := inner.error }

def privately (builder : ShardBuilder) (connection : ConnectionId) (build : List PrivateCall) :
    List ChannelRef × ShardBuilder :=
  let (handles, inner) := (builder.openPrivate connection).run build
  (handles, builder.closePrivate inner)

def call (builder : ShardBuilder) : BuildCall → List ChannelRef × ShardBuilder
  | .root name =>
    let (handle, builder) := builder.root name
    ([handle], builder)
  | .channel parent key name narrow =>
    let (handle, builder) := builder.channel parent key name narrow
    ([handle], builder)
  | .user channel who name narrow => ([], (builder.user channel who name narrow).2)
  | .channelPosition channel position => ([], builder.channelPosition channel position)
  | .channelCanEnter channel yes => ([], builder.channelCanEnter channel yes)
  | .channelCanText channel yes => ([], builder.channelCanText channel yes)
  | .channelLink a b => ([], builder.channelLink a b)
  | .userFlags user flags => ([], builder.userFlags user flags)
  | .privately connection build => builder.privately connection build
  | .audioDomain domain members =>
    ([], { builder with audio := builder.audio.domain domain members })
  | .audioListen listener domain =>
    ([], { builder with audio := builder.audio.listen listener domain })
  | .audioEdge sender receiver =>
    ([], { builder with audio := builder.audio.edge sender receiver })

def render (builder : ShardBuilder) (calls : List BuildCall) : ShardBuilder :=
  calls.foldl (fun builder call => (builder.call call).2) builder

end ShardBuilder

namespace Build

def checkSharedXorPrivate (view : ShardView) (overlays : OrderedMap ConnectionId Overlay) :
    Option BuildError :=
  overlays.rows.findSome? fun (connection, overlay) =>
    match overlay.users.rows.find? fun user => view.users.contains user.session with
    | some user => some (.sharedAndPrivateUser user.session connection)
    | none =>
      match overlay.channels.rows.find? fun channel => view.channels.contains channel.id with
      | some channel => some (.sharedAndPrivateChannel channel.id connection)
      | none => none

/-- One lookup of `check_overlay_references`: the channel an overlay element
hangs under. -/
def checkReference (view : ShardView) (overlay : Overlay) (see : ScopeSet)
    (connection : ConnectionId) (id : ChannelId) : Option BuildError :=
  if overlay.channels.contains id then none
  else
    match view.channels.get? id with
    | none => some (.overlayChannelMissing connection id)
    | some channel =>
      if see.sees channel.scope then none else some (.overlayChannelInvisible connection id)

def checkOverlayReferences (view : ShardView) (overlays : OrderedMap ConnectionId Overlay)
    (observations : Observations) : Option BuildError :=
  overlays.rows.findSome? fun (connection, overlay) =>
    let see := observations.of connection
    (overlay.users.rows.findSome? fun user =>
        checkReference view overlay see connection user.channel).or
      (overlay.channels.rows.findSome? fun channel =>
        checkReference view overlay see connection channel.parent)

def sharedScope (view : ShardView) : OrderedMap ConnectionId Scope :=
  Table.ofList (view.users.rows.filterMap fun user =>
    user.occupant.connection?.map fun connection => (connection, user.scope))

/-- The connections `receiver` can see privately. -/
def privatelySeen (overlays : OrderedMap ConnectionId Overlay) (receiver : ConnectionId) :
    List ConnectionId :=
  match overlays.find? receiver with
  | some overlay => overlay.users.rows.filterMap fun user => user.occupant.connection?
  | none => []

def canSee (view : ShardView) (overlays : OrderedMap ConnectionId Overlay)
    (observations : Observations) (receiver sender : ConnectionId) : Bool :=
  (privatelySeen overlays receiver).contains sender ||
    match (sharedScope view).find? sender with
    | none => false
    | some scope => (observations.of receiver).sees scope

def representative (view : ShardView) (senders : OrderedSet ConnectionId) (scope : Scope)
    (receiver : ConnectionId) : ConnectionId :=
  (senders.rows.find? fun sender =>
    sender ≠ receiver ∧ (sharedScope view).find? sender = some scope).getD receiver

def perScope (view : ShardView) (senders : OrderedSet ConnectionId) : OrderedMap Scope ℕ :=
  senders.rows.foldl (fun counts sender =>
    match (sharedScope view).find? sender with
    | some scope => counts.set scope ((counts.find? scope).getD 0 + 1)
    | none => counts) Table.empty

def hidden (view : ShardView) (senders : OrderedSet ConnectionId) : List ConnectionId :=
  senders.rows.filter fun sender => ((sharedScope view).find? sender).isNone

def checkGroup (view : ShardView) (overlays : OrderedMap ConnectionId Overlay)
    (observations : Observations) (receivers : List ConnectionId)
    (senders : OrderedSet ConnectionId) : Option BuildError :=
  receivers.findSome? fun receiver =>
    let see := observations.of receiver
    let own := (sharedScope view).find? receiver
    ((perScope view senders).rows.findSome? fun (scope, count) =>
        let others := if own = some scope then count - 1 else count
        if 0 < others && !see.sees scope then
          some (.receiverCannotSeeSender (representative view senders scope receiver) receiver)
        else none).or
      ((hidden view senders).findSome? fun sender =>
        if sender ≠ receiver ∧ (privatelySeen overlays receiver).contains sender = false then
          some (.receiverCannotSeeSender sender receiver)
        else none)

def checkReceiversSeeSenders (view : ShardView) (overlays : OrderedMap ConnectionId Overlay)
    (audio : AudioRelation) (observations : Observations) : Option BuildError :=
  (audio.domains.rows.findSome? fun (_, members) =>
      checkGroup view overlays observations members.rows members).or
    ((audio.listening.findSome? fun (listener, members) =>
        checkGroup view overlays observations [listener] members).or
      (audio.edges.rows.findSome? fun (sender, receiver) =>
        if canSee view overlays observations receiver sender then none
        else some (.receiverCannotSeeSender sender receiver)))

end Build

def ShardBuilder.finish (builder : ShardBuilder) (observations : Observations) :
    Except BuildError Rendered :=
  match builder.error with
  | some error => .error error
  | none =>
    if builder.rooted = false then .error .missingRoot
    else
      match Build.checkSharedXorPrivate builder.view builder.overlays with
      | some error => .error error
      | none =>
        match Build.checkOverlayReferences builder.view builder.overlays observations with
        | some error => .error error
        | none =>
          match Build.checkReceiversSeeSenders builder.view builder.overlays builder.audio
              observations with
          | some error => .error error
          | none => .ok ⟨builder.view, builder.overlays, builder.actions, builder.audio⟩

def Rendered.ofBuilder (builder : ShardBuilder) : Rendered :=
  ⟨builder.view, builder.overlays, builder.actions, builder.audio⟩

variable {builder : ShardBuilder} {rendered : Rendered}

variable {observations : Observations}

theorem ShardBuilder.finish_eq_ok (h : builder.finish observations = .ok rendered) :
    builder.error = none ∧ builder.rooted = true ∧
      Build.checkSharedXorPrivate builder.view builder.overlays = none ∧
      Build.checkOverlayReferences builder.view builder.overlays observations = none ∧
      Build.checkReceiversSeeSenders builder.view builder.overlays builder.audio observations =
        none ∧
      rendered = ⟨builder.view, builder.overlays, builder.actions, builder.audio⟩ := by
  unfold finish at h
  split at h
  · cases h
  rename_i herr
  split_ifs at h with hrtd
  split at h
  · cases h
  rename_i hxor
  split at h
  · cases h
  rename_i hrefs
  split at h
  · cases h
  rename_i hsee
  cases h
  exact ⟨herr, by simpa using hrtd, hxor, hrefs, hsee, rfl⟩

theorem ShardBuilder.finish_ofBuilder
    (h : builder.finish observations = .ok rendered) : rendered = Rendered.ofBuilder builder :=
  (finish_eq_ok h).2.2.2.2.2

theorem ShardBuilder.finish_of_isSome (h : (builder.finish observations).toOption.isSome = true) :
    builder.finish observations = .ok (Rendered.ofBuilder builder) := by
  cases hfinish : builder.finish observations with
  | error refused => simp [hfinish, Except.toOption] at h
  | ok rendered => rw [finish_ofBuilder hfinish]

variable {connection : ConnectionId} {overlays : OrderedMap ConnectionId Overlay}

namespace Build

variable {view : ShardView} {overlay : Overlay}

theorem checkSharedXorPrivate_eq_none (h : checkSharedXorPrivate view overlays = none)
    (hmem : (connection, overlay) ∈ overlays.rows) :
    (∀ id channel, overlay.channels.get? id = some channel → view.channels.get? id = none) ∧
      ∀ session user, overlay.users.get? session = some user → view.users.get? session = none := by
  have hrow := List.findSome?_eq_none_iff.mp h _ hmem
  dsimp only at hrow
  split at hrow
  · cases hrow
  rename_i husr
  split at hrow
  · cases hrow
  rename_i hchs
  rw [List.find?_eq_none] at husr hchs
  constructor
  · intro id channel hch
    obtain ⟨hin, rfl⟩ := get?_eq_some_iff.mp hch
    exact contains_eq_false_iff.mp (by simpa using hchs channel hin)
  · intro session user huser
    obtain ⟨hin, rfl⟩ := get?_eq_some_iff.mp huser
    exact contains_eq_false_iff.mp (by simpa using husr user hin)

theorem checkReference_eq_none {see : ScopeSet} {id : ChannelId}
    (h : checkReference view overlay see connection id = none) :
    overlay.channels.contains id = true ∨
      ∃ channel, view.channels.get? id = some channel ∧ see.sees channel.scope = true := by
  unfold checkReference at h
  split_ifs at h with hin
  · exact Or.inl hin
  · split at h
    · cases h
    · rename_i channel hget
      split_ifs at h with hsees
      exact Or.inr ⟨channel, hget, hsees⟩

theorem checkOverlayReferences_eq_none
    (h : checkOverlayReferences view overlays observations = none)
    (hmem : (connection, overlay) ∈ overlays.rows) {id : ChannelId}
    (hid : (∃ session user, overlay.users.get? session = some user ∧ user.channel = id) ∨
      ∃ key channel, overlay.channels.get? key = some channel ∧ channel.parent = id) :
    overlay.channels.contains id = true ∨ ∃ channel, view.channels.get? id = some channel ∧
      (observations.of connection).sees channel.scope = true := by
  have hrow := List.findSome?_eq_none_iff.mp h _ hmem
  rw [Option.or_eq_none_iff, List.findSome?_eq_none_iff, List.findSome?_eq_none_iff] at hrow
  rcases hid with ⟨session, user, huser, rfl⟩ | ⟨key, channel, hch, rfl⟩
  · exact checkReference_eq_none (hrow.1 user (mem_of_get? huser))
  · exact checkReference_eq_none (hrow.2 channel (mem_of_get? hch))

end Build

/-- A view and a connection's overlay in it, accepted together while the
connection observes `see`. -/
def AcceptedFor (connection : ConnectionId) (see : ScopeSet) (view : ShardView)
    (overlay : Overlay) : Prop :=
  ∃ (builder : ShardBuilder) (observations : Observations) (rendered : Rendered),
    builder.finish observations = .ok rendered ∧ observations connection = some see ∧
      rendered.view = view ∧ rendered.overlayOf connection = overlay

theorem Rendered.shared_xor_private
    (h : builder.finish observations = .ok rendered) (connection : ConnectionId) :
    (∀ id channel, (rendered.overlayOf connection).channels.get? id = some channel →
        rendered.view.channels.get? id = none) ∧
      ∀ session user, (rendered.overlayOf connection).users.get? session = some user →
        rendered.view.users.get? session = none := by
  obtain ⟨-, -, hxor, -, -, rfl⟩ := ShardBuilder.finish_eq_ok h
  unfold overlayOf OrderedMap.find?
  cases hget : builder.overlays.get? connection with
  | none =>
    constructor
    · intro id channel hch
      cases hch
    · intro session user huser
      cases huser
  | some entry =>
    obtain ⟨hmem, rfl⟩ := get?_eq_some_iff.mp hget
    exact Build.checkSharedXorPrivate_eq_none hxor hmem

theorem AcceptedFor.shared_xor_private {see : ScopeSet}
    {view : ShardView} {overlay : Overlay} (h : AcceptedFor connection see view overlay) :
    (∀ id channel, overlay.channels.get? id = some channel → view.channels.get? id = none) ∧
      ∀ session user, overlay.users.get? session = some user → view.users.get? session = none := by
  obtain ⟨builder, observations, rendered, hok, -, rfl, rfl⟩ := h
  exact Rendered.shared_xor_private hok connection

end MumbleRuntime
