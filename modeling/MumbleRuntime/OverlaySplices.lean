import MumbleRuntime.OverlayWays

/-!
# When the way from one overlay to another is welcome

The two directions of the equivalence: a client that is never surprised shows
that the overlays give way, and overlays that give way never surprise it.
-/

namespace MumbleRuntime
open Library Plan List ClientModel ShardView Forest
open Option hiding mem_map
open Table

variable {done rest : List PlanOp}

namespace Overlay

variable {base : ShardView} {sent fresh : Overlay} (hsent : sent.Fits base)
  (hfr : fresh.Fits base)

include hsent

variable (h : (base.compose sent).shown.Greets (Plan.overlayWay sent fresh))

include h in
theorem vacant_of_greets {first last : List ChannelId} {n : ChannelId}
    (hspl : dropped sent fresh = first ++ n :: last) :
    (∀ session user, (base.compose sent).users.get? session = some user →
      (base.compose fresh).users.contains session = true → user.channel ≠ n) ∧
    ∀ m, (base.compose sent).above m = some n → m ∈ first := by
  have hway : overlayWay sent fresh = goings sent fresh first ++
      .removeChannel n :: (last.map .removeChannel ++
        ((orderCreations (overlayCreated sent fresh) Table.empty).map .createChannel ++
          (overlayUpdated sent fresh ++ overlayUsers sent fresh))) := by
    simp [overlayWay, goings, hspl]
  have hwelcome := greets_iff.mp h _ _ _ hway
  rw [ClientModel.Welcomes, forest_on_way hsent hway] at hwelcome
  have hfst : ∀ m ∈ first, sent.Drops fresh m := by
    intro m hm
    rw [← mem_dropped, hspl]
    exact mem_append_left _ hm
  obtain ⟨hresident, hchild⟩ := (vacant_on_way_iff hsent hfst).mp hwelcome
  exact ⟨hresident, fun m hup => by_contra fun hnot => hchild m hnot hup⟩

include h in
theorem came_of_greets {first last : List Channel} {channel : Channel}
    (hspl : orderCreations (overlayCreated sent fresh) Table.empty = first ++ channel :: last)
    (hgains : sent.Gains fresh channel.parent) (hnone : base.channels.get? channel.parent = none) :
    ∃ parent ∈ first, parent.id = channel.parent := by
  have hway : overlayWay sent fresh =
      (goings sent fresh (dropped sent fresh) ++ first.map .createChannel) ++
        .createChannel channel :: (last.map .createChannel ++
          (overlayUpdated sent fresh ++ overlayUsers sent fresh)) := by
    simp [overlayWay, goings, hspl]
  have hwelcome := greets_iff.mp h _ _ _ hway
  rw [ClientModel.Welcomes, ← forest_isSome, forest_on_way hsent hway] at hwelcome
  by_contra hnot
  push Not at hnot
  have hout : Sum.inl channel.parent ∉ ((goings sent fresh (dropped sent fresh) ++
      first.map PlanOp.createChannel).filterMap PlanOp.site) := by
    rw [filterMap_append, mem_append, mem_goings_channel, mem_dropped]
    rintro (hdrops | hcame)
    · exact Bool.false_ne_true (hgains.1.symm.trans hdrops.1)
    · obtain ⟨op, hop, hsite⟩ := mem_filterMap.mp hcame
      obtain ⟨parent, hpar, rfl⟩ := mem_map.mp hop
      exact hnot parent hpar (Sum.inl.inj (some.inj hsite))
  rw [mix_parent_of_notMem hout, around_isSome, hgains.1,
    contains_eq_false_iff.mpr hnone] at hwelcome
  exact Bool.false_ne_true hwelcome

include hfr

include h in
theorem givesWay_of_greets : GivesWay base sent fresh := by
  have hself : ∀ channel ∈ overlayCreated sent fresh, channel.parent ≠ channel.id := by
    intro channel hch heq
    obtain ⟨hget, hnew⟩ := mem_overlayCreated.mp hch
    have hthr : fresh.channels.contains channel.id = true :=
      contains_iff.mpr ⟨channel, hget⟩
    obtain ⟨first, last, hspl, hnot⟩ :=
      eq_append_cons_of_mem ((orderCreations_perm _ Table.empty).mem_iff.mpr hch)
    obtain ⟨parent, hpar, hid⟩ := came_of_greets hsent h hspl
      (by rw [heq]; exact ⟨hnew, hthr⟩) (by rw [heq]; exact hfr.channel _ hthr)
    have hcre : parent ∈ overlayCreated sent fresh := by
      refine (orderCreations_perm _ Table.empty).mem_iff.mp ?_
      rw [hspl]
      exact mem_append_left _ hpar
    have hsame := (mem_overlayCreated.mp hcre).1
    rw [hid, heq, hget] at hsame
    rw [← some.inj hsame] at hpar
    exact hnot hpar
  refine ⟨fun session user hget hstays hdrops => ?_, fun id p hup hstays hdrops => ?_,
    fun id hdrops n hn => ?_, fun id channel hget hnew hgains => ?_⟩
  · obtain ⟨first, last, hspl⟩ := append_of_mem (mem_dropped.mpr hdrops)
    exact (vacant_of_greets hsent h hspl).1 session user hget hstays rfl
  · obtain ⟨first, last, hspl⟩ := append_of_mem (mem_dropped.mpr hdrops)
    have hfst := (vacant_of_greets hsent h hspl).2 id hup
    have hgone : sent.Drops fresh id := by
      rw [← mem_dropped, hspl]
      exact mem_append_left _ hfst
    have hnone := around_of_drops hsent hgone
    rw [← not_isSome_iff_eq_none, around_isSome, ← compose_contains] at hnone
    exact hnone hstays
  · refine walk_ne_self_of_before (fun done k rest hspl j hj => ?_) (mem_dropped.mpr hdrops) hn
    exact (vacant_of_greets hsent h hspl).2 j hj
  · obtain rfl : channel.id = id := key_of_get? hget
    have hmem := mem_overlayCreated.mpr ⟨hget, hnew⟩
    obtain ⟨first, last, hspl⟩ := append_of_mem hmem
    have horder := orderCreations_of_no_self hself
    obtain ⟨parent, hpar, hid⟩ := came_of_greets hsent h (horder.trans hspl) hgains
      (hfr.channel _ hgains.2)
    have hsorted : (overlayCreated sent fresh).Pairwise fun a b => a.id < b.id :=
      fresh.channels.sorted.filter _
    rw [hspl, pairwise_append] at hsorted
    rw [← hid]
    exact hsorted.2.2 parent hpar channel mem_cons_self

omit hfr in
theorem overlayDepth_of_above (h : GivesWay base sent fresh) {m n : ChannelId}
    (hm : sent.Drops fresh m) (hup : (base.compose sent).above m = some n) :
    overlayDepth sent.channels m = overlayDepth sent.channels n + 1 := by
  have habove : ∀ k j, within sent.channels k = some j →
      (base.compose sent).above k = some j := by
    intro k j hk
    obtain ⟨entry, hget, hpar⟩ := bind_eq_some_iff.mp hk
    split_ifs at hpar with hself
    obtain rfl := some.inj hpar
    refine above_eq_some_iff.mpr ⟨?_, entry, by rw [compose_channel, hget]; rfl, rfl⟩
    rintro rfl
    rw [hsent.root] at hget
    cases hget
  have hne : n ≠ m := by
    rintro rfl
    exact h.circle n hm 1 one_pos (by simpa [walk] using hup)
  obtain ⟨channel, hch⟩ := contains_iff.mp hm.1
  have hwithin : within sent.channels m = some n := by
    obtain ⟨-, other, hget, rfl⟩ := above_eq_some_iff.mp hup
    rw [compose_channel, hch, some_or] at hget
    obtain rfl := some.inj hget
    simp [within, hch, hne]
  refine overlayDepth_of_within hwithin fun i hi => ?_
  refine h.circle m hm (i + 1) i.succ_pos ?_
  simpa only [walk, hup, bind_some] using walk_mono habove i hi

omit hfr in
theorem before_of_givesWay (h : GivesWay base sent fresh) {first last : List ChannelId}
    {n : ChannelId} (hspl : dropped sent fresh = first ++ n :: last) {m : ChannelId}
    (hup : (base.compose sent).above m = some n) : m ∈ first := by
  have hn : sent.Drops fresh n := by
    rw [← mem_dropped, hspl]
    simp
  have hm : sent.Drops fresh m := by
    by_contra hnot
    obtain ⟨-, channel, hget, -⟩ := above_eq_some_iff.mp hup
    refine h.channel m n hup ?_ hn
    rw [compose_contains, Bool.or_eq_true]
    rw [compose_channel] at hget
    cases hpriv : sent.channels.get? m with
    | none =>
      rw [hpriv, none_or] at hget
      exact .inr (contains_iff.mpr ⟨channel, hget⟩)
    | some other =>
      refine .inl ?_
      by_contra hgone
      exact hnot ⟨contains_iff.mpr ⟨other, hpriv⟩, Bool.eq_false_iff.mpr hgone⟩
  have hdepth := overlayDepth_of_above hsent h hm hup
  have hin := mem_dropped.mpr hm
  rw [hspl, mem_append] at hin
  refine hin.resolve_right fun hlat => ?_
  rcases mem_cons.mp hlat with rfl | hlast
  · omega
  · have hsorted : (dropped sent fresh).Pairwise (deeperFirst (overlayDepth sent.channels)) :=
      insertionSort_deeperFirst (overlayDepth sent.channels) id _
    rw [hspl, pairwise_append] at hsorted
    have hdeeper := (pairwise_cons.mp hsorted.2.1).1 m hlast
    simp only [deeperFirst] at hdeeper
    omega

omit hfr in
theorem held_on_way (hway : overlayWay sent fresh = done ++ rest) {id : ChannelId}
    (hid : fresh.channels.contains id = true ∨ base.channels.contains id = true)
    (hcame : sent.Gains fresh id → ∃ channel, .createChannel channel ∈ done ∧ channel.id = id) :
    ((base.compose sent).shown.applyOps done).channels.contains id = true := by
  by_cases hgains : sent.Gains fresh id
  · obtain ⟨channel, hmem, rfl⟩ := hcame hgains
    exact contains_of_came hsent hway hmem
  · refine contains_on_way hsent hway ?_ (by rw [compose_contains, Bool.or_eq_true]; exact hid)
    rw [compose_contains, Bool.or_eq_true]
    rcases hid with hthr | hbase
    · refine .inl ?_
      by_contra hnot
      exact hgains ⟨Bool.eq_false_iff.mpr hnot, hthr⟩
    · exact .inr hbase

omit hsent hfr in
theorem users_on_way {op : PlanOp}
    (h : overlayWay sent fresh = done ++ op :: rest) (hsite : ∀ n, op.site ≠ some (.inl n))
    (hremoval : op.isRemoval = false) :
    ∃ new, fresh.users.get? new.session = some new ∧
      (op = .addUser new ∨
        (op = .moveUser new.session new.channel ∧ sent.users.contains new.session = true) ∨
        ∃ patch, op = .updateUser patch) := by
  have hop : op ∈ overlayWay sent fresh := by
    rw [h]
    simp
  rcases overlayWay_cases hop with ⟨session, rfl, -⟩ | ⟨id, rfl, -⟩ | ⟨channel, rfl, -⟩ |
    ⟨old, new, rfl, -⟩ | huser
  · cases hremoval
  · cases hremoval
  · exact absurd rfl (hsite channel.id)
  · exact absurd rfl (hsite new.id)
  · exact of_mem_overlayUsers huser

omit hsent hfr in
theorem came_before_users {op : PlanOp}
    (h : overlayWay sent fresh = done ++ op :: rest) (hsite : ∀ n, op.site ≠ some (.inl n))
    (hremoval : op.isRemoval = false) {id : ChannelId} (hgains : sent.Gains fresh id) :
    ∃ channel, .createChannel channel ∈ done ∧ channel.id = id := by
  obtain ⟨channel, hget⟩ := contains_iff.mp hgains.2
  obtain rfl : channel.id = id := key_of_get? hget
  have hcre : channel ∈ orderCreations (overlayCreated sent fresh) Table.empty :=
    (orderCreations_perm _ _).mem_iff.mpr (mem_overlayCreated.mpr ⟨hget, hgains.1⟩)
  obtain ⟨later, rfl, hlat⟩ := append_of_notMem h (by
    intro hin
    obtain ⟨session, rfl, -⟩ := mem_overlayUserRemovals.mp hin
    cases hremoval)
  obtain ⟨created, rfl, hmore⟩ := append_of_notMem hlat (by
    intro hin
    obtain ⟨n, -, rfl⟩ := mem_map.mp hin
    cases hremoval)
  obtain ⟨others, rfl, -⟩ := append_of_notMem hmore (by
    intro hin
    obtain ⟨other, -, rfl⟩ := mem_map.mp hin
    exact hsite other.id rfl)
  refine ⟨channel, ?_, rfl⟩
  simp only [mem_append, mem_map]
  exact .inr (.inr (.inl ⟨channel, hcre, rfl⟩))

theorem greets_of_givesWay (h : GivesWay base sent fresh) :
    (base.compose sent).shown.Greets (overlayWay sent fresh) := by
  have hself : ∀ channel ∈ overlayCreated sent fresh, channel.parent ≠ channel.id := by
    intro channel hch heq
    obtain ⟨hget, hnew⟩ := mem_overlayCreated.mp hch
    have hless := h.created channel.id channel hget hnew
      (by rw [heq]; exact ⟨hnew, contains_iff.mpr ⟨channel, hget⟩⟩)
    exact hless.ne heq
  have horder := orderCreations_of_no_self hself
  refine greets_iff.mpr fun done op rest hway => ?_
  cases op with
  | removeChannel n =>
    obtain ⟨first, last, hspl, rfl⟩ := way_at_drop hway
    have hdrops : ∀ m ∈ first ++ n :: last, sent.Drops fresh m := by
      intro m hm
      rw [← mem_dropped, hspl]
      exact hm
    rw [ClientModel.Welcomes, forest_on_way hsent hway]
    refine (vacant_on_way_iff hsent fun m hm => hdrops m (mem_append_left _ hm)).mpr
      ⟨fun session user hget hstays heq => ?_, fun m hm hup => ?_⟩
    · exact h.user session user hget hstays (by rw [heq]; exact hdrops n (by simp))
    · exact hm (before_of_givesWay hsent h hspl hup)
  | createChannel channel =>
    obtain ⟨first, last, hspl, rfl⟩ := way_at_create hway
    rw [horder] at hspl
    have hmem : channel ∈ overlayCreated sent fresh := by
      rw [hspl]
      simp
    obtain ⟨hget, hnew⟩ := mem_overlayCreated.mp hmem
    refine held_on_way hsent hway (hfr.parent channel.id channel hget) fun hgains => ?_
    have hless := h.created channel.id channel hget hnew hgains
    obtain ⟨parent, hpar⟩ := contains_iff.mp hgains.2
    have hid : parent.id = channel.parent := key_of_get? hpar
    have hcre : parent ∈ overlayCreated sent fresh := by
      refine mem_overlayCreated.mpr ⟨by rw [hid]; exact hpar, by rw [hid]; exact hgains.1⟩
    refine ⟨parent, mem_append_right _ (mem_map_of_mem ?_), hid⟩
    have hsorted : (overlayCreated sent fresh).Pairwise fun a b => a.id < b.id :=
      fresh.channels.sorted.filter _
    rw [hspl, pairwise_append] at hsorted
    rw [hspl, mem_append] at hcre
    refine hcre.resolve_right fun hlat => ?_
    rw [← hid] at hless
    rcases mem_cons.mp hlat with rfl | hlast
    · exact lt_irrefl _ hless
    · exact lt_asymm hless ((pairwise_cons.mp hsorted.2.1).1 parent hlast)
  | addUser user
  | moveUser session channel =>
    obtain ⟨new, hnew, heq⟩ := users_on_way hway (fun n => nofun) rfl
    have hplace := hfr.place new.session new hnew
    rcases heq with heq | ⟨heq, -⟩ | ⟨patch, heq⟩ <;> cases heq
    exact held_on_way hsent hway hplace (came_before_users hway (fun n => nofun) rfl)
  | _ => trivial

end Overlay

instance (sent fresh : Overlay) (id : ChannelId) : Decidable (sent.Drops fresh id) :=
  inferInstanceAs (Decidable (_ ∧ _))

instance (sent fresh : Overlay) (id : ChannelId) : Decidable (sent.Gains fresh id) :=
  inferInstanceAs (Decidable (_ ∧ _))

theorem givesWay_of_rows {base : ShardView} {sent fresh : Overlay} (fuel : ℕ)
    (huser : ∀ user ∈ (base.compose sent).users.rows,
      (base.compose fresh).users.contains user.session = true → ¬sent.Drops fresh user.channel)
    (hch : ∀ channel ∈ (base.compose sent).channels.rows, channel.id ≠ rootChannel →
      (base.compose fresh).channels.contains channel.id = true →
      ¬sent.Drops fresh channel.parent)
    (hcircle : ∀ channel ∈ sent.channels.rows,
      walk (base.compose sent).above fuel channel.id = none ∧
      ∀ n ∈ range fuel, 0 < n → walk (base.compose sent).above n channel.id ≠ some channel.id)
    (hcre : ∀ channel ∈ fresh.channels.rows, sent.channels.contains channel.id = false →
      sent.Gains fresh channel.parent → channel.parent < channel.id) :
    Overlay.GivesWay base sent fresh := by
  refine ⟨fun session user hget hstays => ?_, fun id p hup hstays => ?_,
    fun id hdrops n hn hwalk => ?_, fun id channel hget hnew => ?_⟩
  · obtain rfl : user.session = session := key_of_get? hget
    exact huser user (mem_of_get? hget) hstays
  · obtain ⟨hroot, channel, hget, rfl⟩ := above_eq_some_iff.mp hup
    obtain rfl : channel.id = id := key_of_get? hget
    exact hch channel (mem_of_get? hget) hroot hstays
  · obtain ⟨channel, hget⟩ := contains_iff.mp hdrops.1
    obtain rfl : channel.id = id := key_of_get? hget
    obtain ⟨hends, hmiss⟩ := hcircle channel (mem_of_get? hget)
    by_cases hless : n < fuel
    · exact hmiss n (mem_range.mpr hless) hn hwalk
    · rw [walk_none_of_le hends (by omega)] at hwalk
      cases hwalk
  · obtain rfl : channel.id = id := key_of_get? hget
    exact hcre channel (mem_of_get? hget) hnew

def privateBuilder (ids : IdAllocator) (build : List PrivateCall) : ShardBuilder :=
  (ShardBuilder.new ids 0).render [.root "Lobby", .privately 1 build]

def privateOverlay (ids : IdAllocator) (build : List PrivateCall) : Overlay :=
  (Rendered.ofBuilder (privateBuilder ids build)).overlayOf 1

def lobbyView : ShardView := (privateBuilder IdAllocator.new []).view

theorem private_accepted {ids : IdAllocator} {build : List PrivateCall}
    (hok : ((privateBuilder ids build).finish fun _ => some observesRoot).toOption.isSome = true)
    (hview : (privateBuilder ids build).view = lobbyView) :
    Overlay.AcceptedWith 1 observesRoot lobbyView (privateOverlay ids build) :=
  ⟨ids, 0, [.root "Lobby", .privately 1 build], fun _ => some observesRoot, _,
    ⟨by simp [BuildCall.placing], by simp [BuildCall.placing], trivial⟩,
    ShardBuilder.finish_of_isSome hok, rfl, hview, rfl⟩

def nookAndGuest : List PrivateCall :=
  [.channel ⟨rootChannel, Scope.root⟩ 5 "Nook", .userIn ⟨1, Scope.root⟩ (.synthetic 7) "Guest"]

def nookIds : IdAllocator := (privateBuilder IdAllocator.new nookAndGuest).ids

/-- The operations between two accepted overlays are welcome one by one exactly
when the overlays give way. -/
theorem overlay_splice_welcome_iff {connection : ConnectionId} {see : ScopeSet} {view : ShardView}
    {sent fresh : Overlay} (hsent : Overlay.AcceptedWith connection see view sent)
    (hfresh : Overlay.AcceptedWith connection see view fresh) :
    ((view.restrict see).compose sent).shown.Greets
        (Compose.collapse (Compose.splice [] (Plan.planElements sent fresh))) ↔
      Overlay.GivesWay (view.restrict see) sent fresh := by
  rw [splice_nil_eq]
  exact ⟨Overlay.givesWay_of_greets hsent.fits hfresh.fits,
    Overlay.greets_of_givesWay hsent.fits hfresh.fits⟩

section

attribute [local irreducible] ClientModel.Greets

theorem overlay_splice_welcome_iff_emptied :
    ((lobbyView.restrict observesRoot).compose (privateOverlay IdAllocator.new nookAndGuest)).shown.Greets
      (Compose.collapse (Compose.splice [] (Plan.planElements
        (privateOverlay IdAllocator.new nookAndGuest) (privateOverlay nookIds [])))) :=
  (overlay_splice_welcome_iff (private_accepted (by decide +kernel) (by decide +kernel))
    (private_accepted (by decide +kernel) (by decide +kernel))).mpr
    (givesWay_of_rows 3 (by decide +kernel) (by decide +kernel) (by decide +kernel)
      (by decide +kernel))

end

/-- The nook goes while the guest that stays is still in it. -/
theorem nook_removed_under_guest :
    Overlay.AcceptedWith 1 observesRoot lobbyView (privateOverlay IdAllocator.new nookAndGuest) ∧
      Overlay.AcceptedWith 1 observesRoot lobbyView (privateOverlay nookIds
        [.userIn ⟨rootChannel, Scope.root⟩ (.synthetic 7) "Guest"]) ∧
      ¬((lobbyView.restrict observesRoot).compose
        (privateOverlay IdAllocator.new nookAndGuest)).shown.Greets
        (Compose.collapse (Compose.splice [] (Plan.planElements
          (privateOverlay IdAllocator.new nookAndGuest)
          (privateOverlay nookIds [.userIn ⟨rootChannel, Scope.root⟩ (.synthetic 7) "Guest"])))) := by
  refine ⟨private_accepted (by decide +kernel) (by decide +kernel),
    private_accepted (by decide +kernel) (by decide +kernel), fun hgreets => ?_⟩
  have hops : Compose.collapse (Compose.splice [] (planElements
      (privateOverlay IdAllocator.new nookAndGuest)
      (privateOverlay nookIds [.userIn ⟨rootChannel, Scope.root⟩ (.synthetic 7) "Guest"]))) =
      [.removeChannel 1, .moveUser 1 rootChannel] := by
    decide +kernel
  rw [hops] at hgreets
  exact hgreets.1.resident 1 (by decide +kernel)

end MumbleRuntime
