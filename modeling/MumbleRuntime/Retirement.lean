import MumbleRuntime.Burials

/-!
# Removed channel ids stay dead

A shard retires the number of every channel a client of its has accepted as
removed, so a later render gives the channel another one. Three things undo
this: a connection that comes back to a shard which still uses a number that was
removed elsewhere, a client that lost the root and is shown the shard again, and
a retry under an overlay the shared view has overtaken. In every other run,
nothing is stated of a removed channel.
-/

namespace MumbleRuntime
open Library Table ShardBuilder Option Plan OutboundQueue Diff
open List hiding contains isEmpty
open AttachedConnection

namespace IdAllocator

def Below (ids : IdAllocator) (channels : Channels) : Prop :=
  ∀ id, channels.contains id = true → id < ceiling ids.nextChannel

theorem root_lt_ceiling (ids : IdAllocator) : rootChannel < ceiling ids.nextChannel := by
  cases hnext : ids.nextChannel with
  | none => exact Nat.pow_pos (by omega)
  | some n => exact (ids.next_lt n (Or.inl hnext)).1

variable {ids : IdAllocator} {channels : Channels}

theorem Below.mono {ids' : IdAllocator} (h : ids.Below channels)
    (hle : ceiling ids.nextChannel ≤ ceiling ids'.nextChannel) : ids'.Below channels :=
  fun id hid => lt_of_lt_of_le (h id hid) hle

variable {shard : ShardId}

theorem Below.of_known (h : channels.Known ids shard) : ids.Below channels := by
  intro id hid
  rcases h id hid with rfl | ⟨key, hkey⟩
  · exact ids.root_lt_ceiling
  · exact (ids.channels_lt shard key id hkey).2

def Spent (ids : IdAllocator) (shard : ShardId) (id : ChannelId) : Prop :=
  id < ceiling ids.nextChannel ∧ ∀ key, ids.channels shard key ≠ some id

variable {id : ChannelId}

theorem Spent.grows {ids' : IdAllocator} (h : ids.Spent shard id) (hgrows : Grows shard ids ids') :
    ids'.Spent shard id := by
  refine ⟨lt_of_lt_of_le h.1 hgrows.1, fun key hkey => ?_⟩
  rcases hgrows.2 key id hkey with hold | hfr
  · exact h.2 key hold
  · exact absurd h.1 (not_lt.mpr hfr)

theorem Spent.not_known (h : ids.Spent shard id) (hroot : id ≠ rootChannel)
    (hknown : channels.Known ids shard) : channels.contains id = false := by
  by_contra hctn
  rcases hknown id (by simpa using hctn) with heq | ⟨key, hkey⟩
  · exact hroot heq
  · exact h.2 key hkey

theorem retireChannelIds_free (ids : IdAllocator) (shard : ShardId) {retired : List ChannelId}
    (h : id ∈ retired) (key : ChannelKey) :
    (ids.retireChannelIds shard (ofList retired)).channels shard key ≠ some id := by
  intro hkey
  have hkeep : (decide (shard ≠ shard) ||
      !contains (ofList retired : OrderedSet ChannelId) id) = true :=
    (filter_eq_some_iff.mp hkey).2
  rw [ofList, OrderedSet.contains_foldl_insert] at hkeep
  simp [h] at hkeep

end IdAllocator

variable {id : ChannelId}

namespace Shard

def ofChannel (e : ElementId) : Prop := ∃ id, e = .channel id

/-- How a committed connection stands to the views since: their numbers are
handed out, and none the client has had removed is shown in one of them. -/
structure Follows (ids : IdAllocator) (shard : Shard) (attached : AttachedConnection)
    (first : ShardView) (views : List ShardView) : Prop where
  trails : shard.Trails ofChannel attached first views
  overlay : ids.Below attached.overlaySent.channels
  rootless : attached.overlaySent.channels.contains rootChannel = false
  below : ∀ view ∈ first :: views, ids.Below view.channels
  planted : ∀ view ∈ views, view.Planted
  start : ∀ root, first.channels.get? rootChannel = some root → root.scope = Scope.root
  unseen : ∀ id, attached.queue.Removed id → id ≠ rootChannel →
    ∀ view ∈ views, view.channels.contains id = false

structure Buries (ids : IdAllocator) (shard : Shard) (attached : AttachedConnection) : Prop where
  final : attached.queue.Final
  spent : ∀ id, attached.queue.Removed id → id ≠ rootChannel → ids.Spent shard.id id
  blind : attached.queue.Removed rootChannel → attached.held = none → attached.see.isEmpty = true
  held : ∀ held, attached.held = some held → ids.Below held.channels
  follows : attached.held = none → ∃ first views, shard.Follows ids attached first views

variable {ids ids' : IdAllocator} {shard shard' : Shard} {attached : AttachedConnection}

variable {first : ShardView} {views : List ShardView}

theorem Follows.mono (h : shard.Follows ids attached first views)
    (hle : ceiling ids.nextChannel ≤ ceiling ids'.nextChannel) :
    shard.Follows ids' attached first views :=
  ⟨h.trails, h.overlay.mono hle, h.rootless, fun view hview => (h.below view hview).mono hle,
    h.planted, h.start, h.unseen⟩

variable (h : shard.Buries ids attached)

include h in
theorem Buries.requeue (hsame : shard.Recast shard')
    (hgrows : ids.Grows shard.id ids') {queue : OutboundQueue}
    (hnews : ∀ id, queue.news id = attached.queue.news id) :
    shard'.Buries ids' { attached with queue } := by
  have hid : shard'.id = shard.id := hsame.get Shard.id rfl
  have hrmv : ∀ id, queue.Removed id → attached.queue.Removed id :=
    fun id hque => (removed_congr (hnews id)).mp hque
  refine ⟨h.final.congr hnews, ?_, ?_, ?_, ?_⟩
  · intro id hque hroot
    rw [hid]
    exact (h.spent id (hrmv id hque) hroot).grows hgrows
  · intro hque hheld
    exact h.blind (hrmv _ hque) hheld
  · intro held hheld
    exact (h.held held hheld).mono hgrows.1
  · intro hheld
    obtain ⟨first, views, hfol⟩ := h.follows hheld
    have hmono := hfol.mono hgrows.1
    exact ⟨first, views, hmono.trails.requeue hsame queue, hmono.overlay, hmono.rootless,
      hmono.below, hmono.planted, hmono.start,
      fun id hque => hmono.unseen id (hrmv id hque)⟩

include h in
theorem Buries.composed_below : ids.Below (attached.composed shard.view).channels := by
  cases hheld : attached.held with
  | some held => simpa [composed, hheld] using h.held held hheld
  | none =>
    obtain ⟨first, views, hfol⟩ := h.follows hheld
    have hlast : shard.view ∈ first :: views := by
      rw [← hfol.trails.last]
      exact getLastD_mem_cons
    intro id hid
    simp only [composed, hheld, contains, ShardView.compose,
      get?_extend, isSome_or, Bool.or_eq_true] at hid
    rcases hid with hov | hview
    · exact hfol.overlay id hov
    · refine hfol.below shard.view hlast id ?_
      simp only [ShardView.restrict, get?_filter] at hview
      exact isSome_of_isSome_filter _ _ hview

/-- What a transition of a connection may do to the channels: nothing is stated
of one it removes or has removed, what it removes is spent, and it takes the root
only from a connection that observes nothing any more. -/
structure Respects (ids : IdAllocator) (attached : AttachedConnection) (see : ScopeSet)
    (ops : List PlanOp) : Prop where
  last : ∀ id, Write.DropsLast (ops.filterMap (PlanOp.channelWrite id))
  stated : ∀ id, attached.queue.Removed id →
    ∀ write ∈ ops.filterMap (PlanOp.channelWrite id), write.isDrop = true
  dropped : ∀ id, ∀ write ∈ ops.filterMap (PlanOp.channelWrite id), write.isDrop = true →
    id < ceiling ids.nextChannel ∧ (id = rootChannel → see.isEmpty = true)

section Accepted

variable {ops : List PlanOp} {actions : Actions} {queue : OutboundQueue} {see : ScopeSet}

theorem Respects.final (h : Respects ids attached see ops) (hfinal : attached.queue.Final)
    (hacc : queue.accepted = attached.queue.accepted ++ attached.batch ops actions) :
    queue.Final :=
  hfinal.append (news_batch hacc) h.last h.stated

theorem removed_batch
    (hacc : queue.accepted = attached.queue.accepted ++ attached.batch ops actions)
    (h : queue.Removed id) :
    attached.queue.Removed id ∨
      ∃ write ∈ ops.filterMap (PlanOp.channelWrite id), write.isDrop = true := by
  rw [OutboundQueue.Removed, news_batch hacc, mem_append] at h
  rcases h with hold | hnew
  · exact Or.inl hold
  · obtain ⟨write, hwr, hdrop⟩ := mem_map.mp hnew
    exact Or.inr ⟨write, hwr, hdrop⟩

theorem Respects.spent (h : Respects ids attached see ops)
    (hspent : ∀ id, attached.queue.Removed id → id ≠ rootChannel → ids.Spent shard.id id)
    (hacc : queue.accepted = attached.queue.accepted ++ attached.batch ops actions)
    (hgrows : ids.Grows shard.id ids')
    (hretires : ∀ id ∈ retiredChannels ops, ∀ key, ids'.channels shard.id key ≠ some id)
    (hrmv : queue.Removed id) (hroot : id ≠ rootChannel) :
    ids'.Spent shard.id id := by
  rcases removed_batch hacc hrmv with hold | ⟨write, hwr, hdrop⟩
  · exact (hspent id hold hroot).grows hgrows
  · exact ⟨lt_of_lt_of_le (h.dropped id write hwr hdrop).1 hgrows.1,
      hretires id (mem_retiredChannels_of_drop hwr hdrop)⟩

end Accepted

section Rendered

variable {logic : ShardLogic} {rendered : Rendered}

section

variable (hok : (shard.rendering ids logic).finish (shard.observations logic) = .ok rendered)

include hok

theorem rendered_known :
    ids.Extends (shard.rendering ids logic).ids ∧
      rendered.view.channels.Known (shard.rendering ids logic).ids shard.id ∧
      ∀ connection, (rendered.overlayOf connection).channels.Known
        (shard.rendering ids logic).ids shard.id := by
  have hkeyed := render_keyed (new_keyed ids shard.id) logic.render
  obtain rfl := finish_ofBuilder hok
  exact ⟨hkeyed.ids, hkeyed.channels, hkeyed.overlays⟩

theorem rendered_planted : rendered.view.Planted := by
  have hplanted : (shard.rendering ids logic).Planted :=
    render_planted (fun hrtd => (by cases hrtd)) logic.render
  obtain ⟨-, hrtd, -⟩ := finish_eq_ok hok
  obtain rfl := finish_ofBuilder hok
  exact hplanted hrtd

theorem rendered_rootless (connection : ConnectionId) :
    (rendered.overlayOf connection).channels.contains rootChannel = false := by
  obtain ⟨root, hroot, -⟩ := rendered_planted hok
  rw [contains_eq_false_iff]
  by_contra hsome
  obtain ⟨channel, hch⟩ := ne_none_iff_exists'.mp hsome
  have hnone := (Rendered.shared_xor_private hok connection).1 rootChannel channel hch
  rw [hroot] at hnone
  cases hnone

end

include h in
theorem not_shown_of_removed
    (hok : (shard.rendering ids logic).finish (shard.observations logic) = .ok rendered)
    (hrmv : attached.queue.Removed id) (hroot : id ≠ rootChannel) :
    rendered.view.channels.contains id = false ∧
      ∀ connection, (rendered.overlayOf connection).channels.contains id = false := by
  obtain ⟨hextends, hview, hov⟩ := rendered_known hok
  have hspent := (h.spent id hrmv hroot).grows (hextends.grows shard.id)
  exact ⟨hspent.not_known hroot hview, fun connection => hspent.not_known hroot (hov connection)⟩

def StaysBlind (attached : AttachedConnection) (observed : ScopeSet) : Prop :=
  attached.queue.Removed rootChannel → observed.isEmpty = true

theorem restrict_rootless {see : ScopeSet} (hsee : see.isEmpty = true) (view : ShardView)
    (id : ChannelId) : (view.channels.get? id).any
    (fun channel => see.sees channel.scope) = false := by
  have hnone : see.scopes = empty := eq_empty_of_isEmpty hsee
  have hsees : ∀ scope, see.sees scope = false := by
    intro scope
    rw [ScopeSet.sees, hnone]
    rfl
  cases view.channels.get? id with
  | none => rfl
  | some channel => exact hsees channel.scope

include h in
theorem replan_respects
    (hok : (shard.rendering ids logic).finish (shard.observations logic) = .ok rendered)
    {observed : ScopeSet} (hblind' : StaysBlind attached observed) :
    Respects (shard.rendering ids logic).ids attached observed
      (replanOps (attached.composed shard.view)
        ((rendered.view.restrict observed).compose (rendered.overlayOf attached.id))) := by
  have hcell := fun id => (channelCell id).composed_isSome rendered.view observed
    (rendered.overlayOf attached.id)
  refine ⟨fun id => (channelCell id).replan_dropsLast _ _, ?_, ?_⟩
  · intro id hrmv write hwr
    by_contra hkept
    have hshn := ((channelCell id).mem_replan hwr).1 (by simpa using hkept)
    rw [hcell, Bool.or_eq_true] at hshn
    by_cases hroot : id = rootChannel
    · subst hroot
      rcases hshn with hov | hview
      · exact Bool.eq_false_iff.mp (rendered_rootless hok attached.id) hov
      · exact Bool.eq_false_iff.mp (restrict_rootless (hblind' hrmv) rendered.view _) hview
    · obtain ⟨hview, hov⟩ := not_shown_of_removed h hok hrmv hroot
      rcases hshn with hshn | hshn
      · exact Bool.eq_false_iff.mp (hov attached.id) hshn
      · exact Bool.eq_false_iff.mp hview (isSome_of_any hshn)
  · intro id write hwr hdrop
    obtain ⟨hbase, htgt⟩ := ((channelCell id).mem_replan hwr).2 hdrop
    have hextends := (rendered_known hok).1
    refine ⟨lt_of_lt_of_le (h.composed_below id hbase) (hextends.grows shard.id).1, ?_⟩
    rintro rfl
    by_contra hsee
    obtain ⟨root, hroot, hsc⟩ := rendered_planted hok
    have hsees := ScopeSet.sees_root (Bool.eq_false_iff.mpr hsee)
    have hshn := hcell rootChannel
    rw [htgt] at hshn
    simp [channelCell, Cell.seen, hroot, hsc, hsees] at hshn

end Rendered

theorem push_respects {fresh : Overlay}
    (hapart : attached.overlaySent.Apart ofChannel attached.see first)
    (hov : ids.Below attached.overlaySent.channels)
    (hrootless : attached.overlaySent.channels.contains rootChannel = false)
    (hbelow : ∀ view ∈ first :: views, ids.Below view.channels)
    (hplanted : ∀ view ∈ views, view.Planted)
    (hstart : ∀ root, first.channels.get? rootChannel = some root → root.scope = Scope.root)
    (hunseen : ∀ id, attached.queue.Removed id → id ≠ rootChannel →
      ∀ view ∈ views, view.channels.contains id = false)
    (hblind : attached.queue.Removed rootChannel → attached.see.isEmpty = true)
    (hfr : ∀ id, attached.queue.Removed id →
      (channelCell id).diff.arrivals (fun _ _ => true) (fun _ => true)
        (attached.overlaySent.channels.get? id, fresh.channels.get? id) = []) :
    Respects ids attached attached.see (Compose.collapse (Compose.splice
      (Lag.shared attached.see (versionsOf first views))
      (planElements attached.overlaySent fresh))) := by
  refine ⟨?_, ?_, ?_⟩
  · intro id
    exact (channelCell id).push_dropsLast _ _ _ _ _ (hapart.channels id ⟨id, rfl⟩)
  · intro id hrmv write hwr
    by_contra hkept
    rcases ((channelCell id).mem_push hwr).1 (by simpa using hkept) with
      ⟨view, hview, hshn⟩ | harrival
    · by_cases hroot : id = rootChannel
      · subst hroot
        exact Bool.eq_false_iff.mp (restrict_rootless (hblind hrmv) view _) hshn
      · exact Bool.eq_false_iff.mp (hunseen id hrmv hroot view hview) (isSome_of_any hshn)
    · have hnil := hfr id hrmv
      change write ∈ (channelCell id).diff.arrivals (fun _ _ => true) (fun _ => true)
        (attached.overlaySent.channels.get? id, fresh.channels.get? id) at harrival
      rw [hnil] at harrival
      cases harrival
  · intro id write hwr hdrop
    rcases ((channelCell id).mem_push hwr).2 hdrop with ⟨version, hversion, hgone⟩ | hsent
    · obtain ⟨hbef, haft⟩ := mem_versionsOf hversion
      have hheld := any_of_disappears hgone
      refine ⟨hbelow version.1 hbef id (isSome_of_any hheld), ?_⟩
      rintro rfl
      exfalso
      obtain ⟨root, hroot, hsc⟩ := hplanted version.2 haft
      have hbase : ∀ old, version.1.channels.get? rootChannel = some old →
          old.scope = Scope.root := by
        intro old hold
        rcases mem_cons.mp hbef with hfst | hlat
        · exact hstart old (hfst ▸ hold)
        · obtain ⟨planted, hget, hrtd⟩ := hplanted version.1 hlat
          rw [hget] at hold
          exact some.inj hold ▸ hrtd
      change disappears sameChannelScope _
        (version.1.channels.get? rootChannel, version.2.channels.get? rootChannel) = true at hgone
      rw [hroot] at hgone
      cases hold : version.1.channels.get? rootChannel with
      | none =>
        rw [hold] at hgone
        cases hgone
      | some old =>
        rw [hold] at hgone
        simp [disappears, sameChannelScope, hbase old hold, hsc] at hgone
    · refine ⟨hov id hsent, ?_⟩
      rintro rfl
      exact absurd hsent (Bool.eq_false_iff.mp hrootless)

variable {logic : ShardLogic} {rendered : Rendered}

theorem Follows.refuse (h : shard.Follows ids attached first views)
    (hbur : shard.Buries ids attached)
    (hok : (shard.rendering ids logic).finish (shard.observations logic) = .ok rendered)
    (queue : OutboundQueue) (hnews : ∀ id, queue.news id = attached.queue.news id) :
    (shard.accept (shard.rendering ids logic).ids logic rendered).1.Follows
      (shard.rendering ids logic).ids { attached with queue } first (views ++ [rendered.view]) := by
  obtain ⟨hextends, hview, -⟩ := rendered_known hok
  have hceiling := (hextends.grows shard.id).1
  refine ⟨h.trails.refuse rendered logic _ queue, h.overlay.mono hceiling, h.rootless, ?_, ?_,
    h.start, ?_⟩
  · intro view hmem
    rw [← cons_append, mem_append, mem_singleton] at hmem
    rcases hmem with hold | rfl
    · exact (h.below view hold).mono hceiling
    · exact .of_known hview
  · intro view hmem
    rcases mem_append.mp hmem with hold | hnew
    · exact h.planted view hold
    · exact mem_singleton.mp hnew ▸ rendered_planted hok
  · intro id hque hroot view hmem
    have hrmv := (removed_congr (hnews id)).mp hque
    rcases mem_append.mp hmem with hold | hnew
    · exact h.unseen id hrmv hroot view hold
    · exact mem_singleton.mp hnew ▸ (not_shown_of_removed hbur hok hrmv hroot).1

include h in
theorem turn_respects (hstep : shard.InStep)
    (hok : (shard.rendering ids logic).finish (shard.observations logic) = .ok rendered)
    (hblind' : StaysBlind attached (logic.observation attached.id)) {ops : List PlanOp}
    (hops : shard.turnOps logic rendered attached = some ops) :
    Respects (shard.rendering ids logic).ids attached (logic.observation attached.id) ops := by
  unfold turnOps AttachedConnection.turnOps at hops
  split_ifs at hops with hmoved
  · obtain rfl := some.inj hops
    exact replan_respects h hok hblind'
  · obtain ⟨hheld, hsee⟩ := not_moved hmoved
    rw [published_eq_head hstep rendered] at hops
    split at hops
    · cases hops
    · rename_i replayed hrpl
      obtain rfl := some.inj hops
      obtain ⟨first, views, hfol⟩ := h.follows hheld
      have hlonger := hfol.refuse h hok attached.queue fun _ => rfl
      rw [pushOps_eq hlonger.trails hrpl, ← hsee]
      apply push_respects hlonger.trails.apart hlonger.overlay hlonger.rootless hlonger.below
        hlonger.planted hlonger.start hlonger.unseen fun hroot => h.blind hroot hheld
      intro id hrmv
      apply arrivals_nil
      by_cases hroot : id = rootChannel
      · subst hroot
        rw [contains_eq_false_iff.mp (rendered_rootless hok attached.id)]
        rfl
      · have hhidden := (not_shown_of_removed h hok hrmv hroot).2 attached.id
        rw [contains_eq_false_iff.mp hhidden]
        rfl

theorem accept_retires (hget : shard.connections.get? attached.id = some attached)
    {ops : List PlanOp} (hretired : ((shard.publish rendered).delivery shard.view logic rendered
      attached).retired = retiredChannels ops) (hid : id ∈ retiredChannels ops)
    (key : ChannelKey) :
    (shard.accept ids logic rendered).2.channels shard.id key ≠ some id := by
  apply IdAllocator.retireChannelIds_free
  refine mem_flatMap.mpr ⟨attached, ?_, ?_⟩
  · rw [publish_connections]
    exact mem_of_get? hget
  · rw [hretired]
    exact hid

theorem accept_grows (ids : IdAllocator) (logic : ShardLogic) (rendered : Rendered) (k : ShardId) :
    ids.Grows k (shard.accept ids logic rendered).2 :=
  (ids.retain_grows _ k).trans (IdAllocator.retain_grows _ _ k)

include h in
theorem Buries.turned (hstep : shard.InStep)
    (hget : shard.connections.get? attached.id = some attached)
    (hok : (shard.rendering ids logic).finish (shard.observations logic) = .ok rendered)
    (hblind' : StaysBlind attached (logic.observation attached.id)) :
    (shard.accept (shard.rendering ids logic).ids logic rendered).1.Buries
      (shard.accept (shard.rendering ids logic).ids logic rendered).2
      (shard.turned logic rendered attached) := by
  obtain ⟨hextends, hview, hov⟩ := rendered_known hok
  have hrender := hextends.grows shard.id
  have haccept := shard.accept_grows (shard.rendering ids logic).ids logic rendered shard.id
  have hid : (shard.accept (shard.rendering ids logic).ids logic rendered).1.id = shard.id :=
    shard.publish_id rendered
  rcases shard.turned_cases logic rendered attached with
    ⟨ops, hops, -, hretired, queue, hacc, htrn⟩ | ⟨-, -, queue, hacc, htrn⟩
  · have hrespects := turn_respects h hstep hok hblind' hops
    rw [htrn]
    refine ⟨hrespects.final h.final hacc, ?_, ?_, fun held hheld => (by cases hheld), ?_⟩
    · intro id hrmv hroot
      rw [hid]
      exact hrespects.spent (fun id hold hroot => (h.spent id hold hroot).grows hrender) hacc
        haccept (fun id hid => accept_retires hget hretired hid) hrmv hroot
    · intro hrmv _
      rcases removed_batch hacc hrmv with hold | ⟨write, hwr, hdrop⟩
      · exact hblind' hold
      · exact (hrespects.dropped _ write hwr hdrop).2 rfl
    · intro _
      refine ⟨rendered.view, [], ?_, ?_, rendered_rootless hok attached.id, ?_, ?_, ?_, ?_⟩
      · have hpub : (shard.accept (shard.rendering ids logic).ids logic rendered).1.view =
            rendered.view := shard.publish_view rendered
        rw [← hpub]
        refine Trails.start (published_eq_head hstep rendered) ?_
        rw [hpub]
        exact Overlay.apart_of_finish hok attached.id ofChannel _
      · exact (IdAllocator.Below.of_known (hov attached.id)).mono haccept.1
      · intro view hmem
        rw [mem_singleton.mp hmem]
        exact (IdAllocator.Below.of_known hview).mono haccept.1
      · intro view hmem
        cases hmem
      · intro root hroot
        obtain ⟨planted, hplanted, hsc⟩ := rendered_planted hok
        rw [hplanted] at hroot
        exact some.inj hroot ▸ hsc
      · intro id _ _ view hmem
        cases hmem
  · have hnews : ∀ id, queue.news id = attached.queue.news id :=
      OutboundQueue.Adds.news (.of_eq hacc)
    have hrmv : ∀ id, queue.Removed id → attached.queue.Removed id :=
      fun id hque => (removed_congr (hnews id)).mp hque
    rw [htrn]
    refine ⟨h.final.congr hnews, ?_, ?_, ?_, ?_⟩
    · intro id hque hroot
      rw [hid]
      exact (h.spent id (hrmv id hque) hroot).grows (hrender.trans haccept)
    · intro hque hheld
      exact h.blind (hrmv _ hque) hheld
    · intro held hheld
      exact (h.held held hheld).mono (hrender.1.trans haccept.1)
    · intro hheld
      obtain ⟨first, views, hfol⟩ := h.follows hheld
      exact ⟨first, views ++ [rendered.view], (hfol.refuse h hok queue hnews).mono haccept.1⟩

theorem arrivals_self (id : ChannelId) (content : Option Channel) :
    (channelCell id).diff.arrivals (fun _ _ => true) (fun _ => true) (content, content) = [] := by
  cases content with
  | none => rfl
  | some channel =>
    have hlinks : channel.links.difference channel.links = empty :=
      OrderedSet.ext_contains fun a => by simp
    simp [arrivals, channelCell, channelDiff, channelPatches, channelPatch,
      changed, ChannelPatch.isNoop, hlinks, isEmpty, empty]

include h in
theorem Buries.retried (hsame : shard.Recast shard') (hheld : attached.held = none)
    (hapart : attached.admitsRetry shard.journal = true →
      attached.overlaySent.Apart ofChannel attached.see shard.view) :
    shard'.Buries
      (ids.retireChannelIds shard.id (ofList (attached.push shard.journal
        shard.journal.head attached.overlaySent attached.actionsSent).retired))
      (attached.push shard.journal shard.journal.head attached.overlaySent
        attached.actionsSent).attached := by
  have hview : shard'.view = shard.view := hsame.get view rfl
  have hjournal : shard'.journal = shard.journal := hsame.get journal rfl
  have hid : shard'.id = shard.id := hsame.get Shard.id rfl
  rcases attached.push_cases shard.journal with
    ⟨replayed, hrpl, hadm, queue, hacc, hpush⟩ | ⟨queue, outcome, hacc, hpush⟩
  · obtain ⟨first, views, hfol⟩ := h.follows hheld
    have hblind := fun hroot => h.blind hroot hheld
    have hrespects : Respects ids attached attached.see
        (attached.pushOps replayed attached.overlaySent) := by
      rw [pushOps_eq hfol.trails hrpl]
      exact push_respects hfol.trails.apart hfol.overlay hfol.rootless hfol.below
        hfol.planted hfol.start hfol.unseen hblind fun id _ => arrivals_self id _
    have hlast : shard.view ∈ first :: views := by
      rw [← hfol.trails.last]
      exact getLastD_mem_cons
    rw [hpush]
    refine ⟨hrespects.final h.final hacc, ?_, ?_, fun held hnone => (by cases hnone), ?_⟩
    · intro id hrmv hroot
      rw [hid]
      exact hrespects.spent h.spent hacc (ids.retain_grows _ shard.id)
        (fun id hmem => ids.retireChannelIds_free shard.id hmem) hrmv hroot
    · intro hrmv _
      rcases removed_batch hacc hrmv with hold | ⟨write, hwr, hdrop⟩
      · exact hblind hold
      · exact (hrespects.dropped _ write hwr hdrop).2 rfl
    · intro _
      refine ⟨shard.view, [], ?_, hfol.overlay, hfol.rootless, ?_, ?_, ?_, ?_⟩
      · rw [← hview]
        exact Trails.start (hjournal ▸ rfl) (hview ▸ hapart hadm)
      · intro view hmem
        rw [mem_singleton.mp hmem]
        exact hfol.below shard.view hlast
      · intro view hmem
        cases hmem
      · intro root hroot
        rcases mem_cons.mp hlast with hfst | hlat
        · exact hfol.start root (hfst ▸ hroot)
        · obtain ⟨planted, hplanted, hsc⟩ := hfol.planted shard.view hlat
          rw [hplanted] at hroot
          exact some.inj hroot ▸ hsc
      · intro id _ _ view hmem
        cases hmem
  · rw [hpush]
    exact h.requeue hsame (ids.retain_grows _ shard.id) (OutboundQueue.Adds.news (.of_eq hacc))

end Shard

end MumbleRuntime
