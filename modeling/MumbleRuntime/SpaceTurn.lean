import MumbleRuntime.SpaceLogic
import MumbleRuntime.Hearing

/-!
# When a Space accepts its own turn

A Space's turn is refused exactly when two connections are bound and one of them
is not attached to the shard: nobody asked what it observes, so it counts as
seeing nothing, and the audio domain makes it a receiver.
-/

namespace MumbleRuntime.IdAllocator

def HasRoom (ids : IdAllocator) (connections : List ConnectionId) : Prop :=
  connections.countP (fun c => (ids.sessions (.connection c)).isNone) + ceiling ids.nextSession ≤
    2 ^ 32

theorem HasRoom.session {ids : IdAllocator} {connection : ConnectionId}
    {rest : List ConnectionId} (h : ids.HasRoom (connection :: rest)) (hnot : connection ∉ rest) :
    ∃ session ids', ids.session (.connection connection) = .ok (session, ids') ∧
      ids'.HasRoom rest := by
  unfold HasRoom at h
  rw [List.countP_cons] at h
  cases hses : ids.sessions (.connection connection) with
  | some existing =>
    refine ⟨existing, ids, by simp [IdAllocator.session, hses], ?_⟩
    simpa [HasRoom, hses] using h
  | none =>
    rw [hses] at h
    cases hnext : ids.nextSession with
    | none => simp [hnext, ceiling] at h
    | some raw =>
      have hraw := (ids.next_lt raw (.inr hnext)).2
      refine ⟨raw, ids.allocateSession (.connection connection) raw hnext, ?_, ?_⟩
      · unfold IdAllocator.session
        rw [hses]
        simp only
        split
        · rename_i hnone
          rw [hnext] at hnone
          cases hnone
        · rename_i other hoth
          rw [hnext] at hoth
          cases hoth
          rfl
      · have hcnt : rest.countP (fun c => ((ids.allocateSession (.connection connection) raw
            hnext).sessions (.connection c)).isNone) =
            rest.countP (fun c => (ids.sessions (.connection c)).isNone) := by
          apply List.countP_congr
          intro c hc
          have hne : Occupant.connection c ≠ .connection connection := by
            rintro heq
            cases heq
            exact hnot hc
          simp [allocateSession, hne]
        have hceiling := (ceiling_checkedSucc hraw).le
        rw [hnext] at h
        simp only [ceiling, Option.isNone_none, if_true] at h
        unfold HasRoom
        rw [hcnt]
        simp only [allocateSession]
        omega

end MumbleRuntime.IdAllocator

namespace MumbleRuntime.Spaces

open Library
open List

/-- A builder in which the given connections stand in the root and nothing else
was placed beside them. -/
structure StandsInRoot (builder : ShardBuilder) (bound : List ConnectionId) : Prop where
  error : builder.error = none
  rooted : builder.rooted = true
  overlays : builder.overlays = Table.empty
  audio : builder.audio = AudioRelation.empty
  occupants : ∀ who ∈ builder.occupantsSeen, ∃ c ∈ bound, who = .connection c
  users : ∀ session user, builder.view.users.get? session = some user →
    user.scope = Scope.root ∧ ∃ c ∈ bound, user.occupant = .connection c
  placed : ∀ c ∈ bound, ∃ session user, builder.ids.sessions (.connection c) = some session ∧
    builder.view.users.get? session = some user ∧ user.occupant = .connection c

variable {builder : ShardBuilder}

namespace StandsInRoot

theorem root (ids : IdAllocator) (shard : ShardId) (name : String) :
    StandsInRoot ((ShardBuilder.new ids shard).root name).2 [] where
  error := rfl
  rooted := rfl
  overlays := rfl
  audio := rfl
  occupants := by simp [ShardBuilder.root, ShardBuilder.new]
  users := by simp [ShardBuilder.root, ShardBuilder.new, ShardView.empty]
  placed := by simp

theorem get?_userFlags (builder : ShardBuilder) (user : UserRef) (flags : UserFlags)
    (session : SessionId) :
    (builder.userFlags user flags).view.users.get? session =
      if session = user.session then
        (builder.view.users.get? session).map (fun entry => { entry with flags })
      else builder.view.users.get? session :=
  Table.get?_modify _ _ _ _ (fun _ => rfl)

theorem userFlags {bound : List ConnectionId}
    (h : StandsInRoot builder bound) (user : UserRef) (flags : UserFlags) :
    StandsInRoot (builder.userFlags user flags) bound where
  error := h.error
  rooted := h.rooted
  overlays := h.overlays
  audio := h.audio
  occupants := h.occupants
  users := by
    intro session entry hget
    rw [get?_userFlags] at hget
    split_ifs at hget with hses
    · obtain ⟨before, hbef, rfl⟩ := Option.map_eq_some_iff.mp hget
      exact h.users session before hbef
    · exact h.users session entry hget
  placed := by
    intro c hc
    obtain ⟨session, entry, hses, hget, hwho⟩ := h.placed c hc
    refine ⟨session, if session = user.session then { entry with flags } else entry, hses, ?_, ?_⟩
    · rw [get?_userFlags, hget]
      split_ifs <;> rfl
    · split_ifs <;> exact hwho

theorem user {bound rest : List ConnectionId} {connection : ConnectionId}
    (h : StandsInRoot builder bound) (hnot : connection ∉ bound)
    (hrest : connection ∉ rest) (hroom : builder.ids.HasRoom (connection :: rest)) (name : String) :
    StandsInRoot (builder.user ⟨rootChannel, Scope.root⟩ (.connection connection) name .same).2
      (connection :: bound) ∧
    (builder.user ⟨rootChannel, Scope.root⟩ (.connection connection) name .same).2.ids.HasRoom
      rest := by
  obtain ⟨session, ids, hses, hroom'⟩ := hroom.session hrest
  obtain ⟨hnew, hold, -⟩ := IdAllocator.session_ok hses
  have hunseen : Occupant.connection connection ∉ builder.occupantsSeen := by
    intro hmem
    obtain ⟨c, hc, heq⟩ := h.occupants _ hmem
    cases heq
    exact hnot hc
  have hbuilder : (builder.user ⟨rootChannel, Scope.root⟩ (.connection connection) name .same).2 =
      { builder with
        ids
        occupantsSeen := .connection connection :: builder.occupantsSeen
        view.users := builder.view.users.insert
          { occupant := .connection connection, session, channel := rootChannel,
            scope := Scope.root, name, flags := {} } } := by
    simp [ShardBuilder.user, ShardBuilder.narrowedUser, ShardBuilder.narrowed,
      ShardBuilder.sessionOrZero, hses, hunseen]
  rw [hbuilder]
  refine ⟨⟨h.error, h.rooted, h.overlays, h.audio, ?_, ?_, ?_⟩, hroom'⟩
  · intro who hwho
    rcases mem_cons.mp hwho with rfl | hwho
    · exact ⟨connection, mem_cons_self, rfl⟩
    · obtain ⟨c, hc, heq⟩ := h.occupants who hwho
      exact ⟨c, mem_cons_of_mem _ hc, heq⟩
  · intro key entry hget
    rw [Table.get?_insert] at hget
    split_ifs at hget with hkey
    · cases hget
      exact ⟨rfl, connection, mem_cons_self, rfl⟩
    · obtain ⟨hsc, c, hc, hwho⟩ := h.users key entry hget
      exact ⟨hsc, c, mem_cons_of_mem _ hc, hwho⟩
  · intro c hc
    rcases mem_cons.mp hc with rfl | hc
    · exact ⟨session, _, hnew, Table.get?_insert_self _ _, rfl⟩
    · obtain ⟨key, entry, hkey, hget, hwho⟩ := h.placed c hc
      have hne : key ≠ session := by
        rintro rfl
        have heq := ids.sessions_injective _ _ _ (hold _ _ hkey) hnew
        cases heq
        exact hnot hc
      refine ⟨key, entry, hold _ _ hkey, ?_, hwho⟩
      rw [Table.get?_insert, if_neg hne]
      exact hget

theorem participants {R : Type*} (logic : ControllerSpaceLogic R)
    {participants : List RenderParticipant} {bound : List ConnectionId}
    (h : StandsInRoot builder bound)
    (hdistinct : (bound ++ participants.filterMap RenderParticipant.connection).Nodup)
    (hroom : builder.ids.HasRoom (participants.filterMap RenderParticipant.connection)) :
    ∃ placed, (∀ c, c ∈ placed ↔
        c ∈ bound ++ participants.filterMap RenderParticipant.connection) ∧
      StandsInRoot
        (participants.foldl (logic.renderParticipant ⟨rootChannel, Scope.root⟩) builder) placed := by
  induction participants generalizing builder bound with
  | nil => exact ⟨bound, by simp, h⟩
  | cons participant rest ih =>
    rw [foldl_cons]
    cases hconn : participant.connection with
    | none =>
      simp only [filterMap_cons, hconn] at hdistinct hroom ⊢
      simp only [ControllerSpaceLogic.renderParticipant, hconn]
      exact ih h hdistinct hroom
    | some connection =>
      simp only [filterMap_cons, hconn] at hdistinct hroom ⊢
      simp only [ControllerSpaceLogic.renderParticipant, hconn]
      have hperm : (bound ++ connection :: rest.filterMap RenderParticipant.connection).Perm
          (connection :: (bound ++ rest.filterMap RenderParticipant.connection)) :=
        perm_middle
      have hcons := hperm.nodup_iff.mp hdistinct
      have hfr := (nodup_cons.mp hcons).1
      rw [mem_append, not_or] at hfr
      obtain ⟨huser, hroom'⟩ := h.user hfr.1 hfr.2 hroom participant.displayName
      obtain ⟨placed, hplc, hstd⟩ := ih (huser.userFlags _ (logic.flags connection participant))
        hcons hroom'
      refine ⟨placed, fun c => ?_, hstd⟩
      rw [hplc c, cons_append]
      exact (hperm.mem_iff).symm

variable {builder : ShardBuilder} {bound : List ConnectionId}

theorem sharedScope (h : StandsInRoot builder bound) (c : ConnectionId) :
    (Build.sharedScope builder.view).find? c = if c ∈ bound then some Scope.root else none := by
  have hconst : ∀ pair ∈ builder.view.users.rows.filterMap (fun user =>
      user.occupant.connection?.map fun connection => (connection, user.scope)),
      pair.2 = Scope.root := by
    intro pair hpair
    obtain ⟨user, huser, heq⟩ := mem_filterMap.mp hpair
    obtain ⟨connection, -, rfl⟩ := Option.map_eq_some_iff.mp heq
    exact (h.users user.session user (Table.get?_of_mem huser)).1
  rw [Build.sharedScope, Table.ofList, OrderedMap.find?_foldl_insert_const hconst]
  have hmem : c ∈ (builder.view.users.rows.filterMap (fun user =>
      user.occupant.connection?.map fun connection => (connection, user.scope))).map Prod.fst ↔
      c ∈ bound := by
    rw [mem_map]
    constructor
    · rintro ⟨pair, hpair, rfl⟩
      obtain ⟨user, huser, heq⟩ := mem_filterMap.mp hpair
      obtain ⟨-, c, hc, hwho⟩ := h.users user.session user (Table.get?_of_mem huser)
      rw [hwho] at heq
      cases heq
      exact hc
    · intro hc
      obtain ⟨session, user, -, hget, hwho⟩ := h.placed c hc
      refine ⟨(c, user.scope), mem_filterMap.mpr ⟨user, Table.mem_of_get? hget, ?_⟩, rfl⟩
      rw [hwho]
      rfl
  simp only [hmem, OrderedMap.find?_empty]

theorem checkGroup_eq_none_iff (h : StandsInRoot builder bound)
    {senders : OrderedSet ConnectionId} (hsenders : ∀ c, c ∈ senders.rows ↔ c ∈ bound)
    (observations : Observations) :
    Build.checkGroup builder.view builder.overlays observations senders.rows senders = none ↔
      senders.rows.length ≤ 1 ∨
        ∀ c ∈ senders.rows, (observations.of c).sees Scope.root = true := by
  have hpriv : ∀ receiver, ∀ sender ∈ Build.privatelySeen builder.overlays receiver,
      (Build.sharedScope builder.view).find? sender = none := by
    intro receiver sender hseen
    rw [h.overlays] at hseen
    cases hseen
  have hsees : ∀ receiver, ∀ sender ∈ senders.rows,
      Build.canSee builder.view builder.overlays observations receiver sender =
        (observations.of receiver).sees Scope.root := by
    intro receiver sender hsdr
    refine Build.canSee_of_shared ?_ (hpriv receiver)
    rw [h.sharedScope sender, if_pos ((hsenders sender).mp hsdr)]
  rw [Build.checkGroup_eq_none_iff hpriv]
  constructor
  · intro hall
    rw [or_iff_not_imp_left]
    intro hmany receiver hrcvr
    obtain ⟨sender, hsdr, hne⟩ : ∃ sender ∈ senders.rows, sender ≠ receiver := by
      have hnd := senders.rows_nodup
      match hrows : senders.rows, hmany with
      | [], hmany => simp at hmany
      | [_], hmany => simp at hmany
      | first :: second :: rest, _ =>
        rw [hrows] at hnd
        by_cases hfst : first = receiver
        · refine ⟨second, by simp, ?_⟩
          rintro rfl
          simp [hfst] at hnd
        · exact ⟨first, by simp, hfst⟩
    rcases hall receiver hrcvr sender hsdr hne with hseen | halone
    · rwa [hsees receiver sender hsdr] at hseen
    · exact absurd hrcvr halone.1
  · rintro (hfew | hall) receiver hrcvr sender hsdr hne
    · match hrows : senders.rows, hfew with
      | [], _ => rw [hrows] at hsdr; cases hsdr
      | [only], _ =>
        rw [hrows, mem_singleton] at hsdr hrcvr
        exact absurd (hsdr.trans hrcvr.symm) hne
    · left
      rw [hsees receiver sender hsdr]
      exact hall receiver hrcvr

theorem finish_isOk_iff (h : StandsInRoot builder bound) {members : List ConnectionId}
    (hmembers : ∀ c, c ∈ members ↔ c ∈ bound) (hdistinct : members.Nodup)
    (observations : Observations) :
    (∃ rendered, ({ builder with audio := builder.audio.domain 0 members }).finish observations =
        .ok rendered) ↔
      members.length ≤ 1 ∨ ∀ c ∈ members, (observations.of c).sees Scope.root = true := by
  have hmem : ∀ c, c ∈ (members.foldl Table.insert (Table.empty : OrderedSet ConnectionId)).rows ↔
      c ∈ members := by
    intro c
    rw [OrderedSet.mem_rows_iff, OrderedSet.contains_foldl_insert]
    simp
  have hlen : (members.foldl Table.insert (Table.empty : OrderedSet ConnectionId)).rows.length =
      members.length :=
    ((perm_ext_iff_of_nodup (Table.rows_nodup _) hdistinct).mpr hmem).length_eq
  have hgroup := h.checkGroup_eq_none_iff (fun c => (hmem c).trans (hmembers c)) observations
  have hcheck : Build.checkReceiversSeeSenders builder.view builder.overlays
      (builder.audio.domain 0 members) observations =
      Build.checkGroup builder.view builder.overlays observations
        (members.foldl Table.insert (Table.empty : OrderedSet ConnectionId)).rows
        (members.foldl Table.insert Table.empty) := by
    simp [Build.checkReceiversSeeSenders, h.audio, AudioRelation.domain, AudioRelation.empty,
      AudioRelation.listening, OrderedMap.set, Table.insert, Table.insertRow, Table.empty,
      OrderedMap.find?, Table.get?]
  simp only [hmem, hlen] at hgroup
  rw [← hgroup, ← hcheck]
  constructor
  · rintro ⟨rendered, hfinish⟩
    exact (ShardBuilder.finish_eq_ok hfinish).2.2.2.2.1
  · intro hnone
    refine ⟨Rendered.ofBuilder { builder with audio := builder.audio.domain 0 members }, ?_⟩
    simp only [ShardBuilder.finish, h.error, h.rooted, hnone]
    simp only [h.overlays, Build.checkSharedXorPrivate, Build.checkOverlayReferences, Table.empty,
      findSome?_nil, Bool.true_eq_false, if_false, Rendered.ofBuilder]

end StandsInRoot

theorem ControllerSpaceLogic.observations_sees {R : Type*} (logic : ControllerSpaceLogic R)
    (attached : OrderedSet ConnectionId) (c : ConnectionId) :
    ((logic.observations attached).of c).sees Scope.root = attached.contains c := by
  have hroot : ((ScopeSet.new [Scope.root]).toOption.getD ScopeSet.none).sees Scope.root = true := by
    decide
  cases hc : attached.contains c with
  | false => simp [Observations.of, observations, hc]
  | true => simpa [Observations.of, observations, observation, hc] using hroot

theorem ControllerSpaceLogic.renderDesired_isOk_iff {R : Type*} (logic : ControllerSpaceLogic R)
    {desired : RenderState} {ids : IdAllocator} (shard : ShardId)
    (attached : OrderedSet ConnectionId) (hdistinct : desired.bound.Nodup)
    (hroom : ids.HasRoom desired.bound) :
    (∃ rendered, (logic.renderDesired desired (ShardBuilder.new ids shard)).finish
        (logic.observations attached) = .ok rendered) ↔
      desired.bound.length ≤ 1 ∨ ∀ c ∈ desired.bound, attached.contains c = true := by
  obtain ⟨placed, hplc, hstd⟩ := StandsInRoot.participants logic
    (.root ids shard desired.spaceKey) hdistinct hroom
  have hfinish := hstd.finish_isOk_iff (fun c => (hplc c).symm) hdistinct
    (logic.observations attached)
  simp only [ControllerSpaceLogic.observations_sees] at hfinish
  exact hfinish

theorem space_turn_accepted_iff {R : Type*} [SpaceReporter R] (logic : ControllerSpaceLogic R)
    (ids : IdAllocator) (shard : ShardId) (attached : OrderedSet ConnectionId)
    (hdistinct : logic.desired.current.bound.Nodup)
    (hroom : ids.HasRoom logic.desired.current.bound) :
    (∃ rendered, (logic.render (ShardBuilder.new ids shard)).2.finish
        ((logic.render (ShardBuilder.new ids shard)).1.observations attached) = .ok rendered) ↔
      logic.desired.current.bound.length ≤ 1 ∨
        ∀ c ∈ logic.desired.current.bound, attached.contains c = true := by
  simp only [ControllerSpaceLogic.render, SnapshotReader.latest,
    ControllerSpaceLogic.flushDepartures_desired]
  exact ControllerSpaceLogic.renderDesired_isOk_iff _ shard attached hdistinct hroom

instance : SpaceReporter Unit where
  tryReport reporter _ := (true, reporter)

def boundParticipant (participantId : String) (connection : ConnectionId) : RenderParticipant where
  participantId := participantId
  connection := some connection
  displayName := participantId
  serverMute := false
  serverDeaf := false
  selfMute := false
  selfDeaf := false
  acceptedRevision := 1

def duoLogic : ControllerSpaceLogic Unit :=
  .new "lobby"
    ⟨⟨1, "lobby", [boundParticipant "alice" 1, boundParticipant "bob" 2]⟩, 0⟩ ()

theorem space_turn_accepted_duo :
    ∃ rendered, (duoLogic.render (ShardBuilder.new .new 0)).2.finish
      ((duoLogic.render (ShardBuilder.new .new 0)).1.observations (Table.ofList [1, 2, 3])) =
        .ok rendered :=
  (space_turn_accepted_iff duoLogic .new 0 (Table.ofList [1, 2, 3]) (by decide)
    (by simp [IdAllocator.HasRoom, IdAllocator.new, ceiling, duoLogic, boundParticipant,
      RenderState.bound, ControllerSpaceLogic.new])).mpr (.inr (by decide))

/-- The second connection is bound before it is attached: the turn is refused. -/
theorem unattached_refuses_turn :
    duoLogic.desired.current.bound.Nodup ∧
    (duoLogic.desired.current.participants.map RenderParticipant.participantId).Nodup ∧
    IdAllocator.new.HasRoom duoLogic.desired.current.bound ∧
    (duoLogic.render (ShardBuilder.new .new 0)).2.finish
      ((duoLogic.render (ShardBuilder.new .new 0)).1.observations (Table.ofList [1])) =
        .error (.receiverCannotSeeSender 1 2) :=
  ⟨by decide, by decide, by simp [IdAllocator.HasRoom, IdAllocator.new, ceiling, duoLogic,
    boundParticipant, RenderState.bound, ControllerSpaceLogic.new], by decide +kernel⟩

end MumbleRuntime.Spaces
