import MumbleRuntime.Trail
import MumbleRuntime.Library.LastDrops

/-!
# What a client is told about one channel

Every message about a channel removes it or states something of it. A transition
that removes a channel says nothing of it afterwards, whatever lag it catches up
with; what it states stands in its target, and what it removes stood in its base.
-/

namespace MumbleRuntime
open Library ControlMessage Write PlanOp Diff Compose List Lag AttachedConnection Emit

def ControlMessage.removes (id : ChannelId) : ControlMessage → Option Bool
  | .channelState state => if state.channelId = some id then some false else none
  | .channelRemove channel => if channel = id then some true else none
  | _ => none

theorem ControlMessage.removes_of_aside {message : ControlMessage} (h : message.isAside = true)
    (id : ChannelId) : message.removes id = none := by
  cases message <;> first | rfl | cases h

theorem Emit.removes_emitOp (id : ChannelId) (op : PlanOp) :
    (emitOp op).removes id = (op.channelWrite id).map isDrop := by
  cases op with
  | createChannel channel =>
    by_cases h : channel.id = id <;> simp [emitOp, removes, createdChannel, channelWrite, h, isDrop]
  | updateChannel patch =>
    by_cases h : patch.id = id <;> simp [emitOp, removes, patchedChannel, channelWrite, h, isDrop]
  | removeChannel channel =>
    by_cases h : channel = id <;> simp [emitOp, removes, channelWrite, h, isDrop]
  | _ => rfl

theorem Emit.removes_emit (id : ChannelId) (ops : List PlanOp) (self : SessionId) :
    (emit ops self).filterMap (removes id) = (ops.filterMap (channelWrite id)).map isDrop := by
  rw [emit, filterMap_map, map_filterMap]
  have hread : (removes id ∘ emitOp) =
      fun op => (op.channelWrite id).map isDrop := funext (removes_emitOp id)
  rw [hread]
  refine filterMap_selfFirst _ ops self (Or.inl ?_)
  intro op hself
  cases op <;> first | rfl | cases hself

variable {ops : List PlanOp}

namespace OutboundQueue

def news (queue : OutboundQueue) (id : ChannelId) : List Bool :=
  queue.accepted.filterMap (ControlMessage.removes id)

def Removed (queue : OutboundQueue) (id : ChannelId) : Prop := true ∈ queue.news id

def Final (queue : OutboundQueue) : Prop :=
  ∀ id, (queue.news id).Pairwise fun earlier later => earlier = true → later = true

variable {queue queue' : OutboundQueue}

theorem news_append {messages : List ControlMessage}
    (h : queue'.accepted = queue.accepted ++ messages) (id : ChannelId) :
    queue'.news id = queue.news id ++ messages.filterMap (removes id) := by
  rw [news, h, filterMap_append, news]

theorem Adds.news (h : Adds (fun message => message.isAside = true) queue queue') (id : ChannelId) :
    queue'.news id = queue.news id := by
  obtain ⟨more, hacc, hasd⟩ := h
  have hnone : more.filterMap (removes id) = [] :=
    filterMap_eq_nil_iff.mpr fun message hmsg =>
      removes_of_aside (hasd message hmsg) id
  rw [news_append hacc, hnone, append_nil]

theorem Touched.news (h : queue.Touched queue') (id : ChannelId) :
    queue'.news id = queue.news id := by
  have hadds : Adds (fun message => message.isAside = true) queue queue' := h.adds rfl
  exact hadds.news id

theorem Final.congr (h : queue.Final) (hnews : ∀ id, queue'.news id = queue.news id) :
    queue'.Final := by
  intro id
  rw [hnews id]
  exact h id

theorem removed_congr {id : ChannelId} (hnews : queue'.news id = queue.news id) :
    queue'.Removed id ↔ queue.Removed id := by
  rw [Removed, hnews, Removed]

theorem Final.append (h : queue.Final) (hnews : ∀ id, queue'.news id =
      queue.news id ++ (ops.filterMap (channelWrite id)).map isDrop)
    (hlast : ∀ id, Write.DropsLast (ops.filterMap (channelWrite id)))
    (hstated : ∀ id, queue.Removed id →
      ∀ write ∈ ops.filterMap (channelWrite id), write.isDrop = true) : queue'.Final := by
  intro id
  rw [hnews id]
  refine pairwise_append.mpr ⟨h id, pairwise_map.mpr (hlast id), ?_⟩
  rintro earlier hearlier later hlat rfl
  obtain ⟨write, hwr, rfl⟩ := mem_map.mp hlat
  exact hstated id hearlier write hwr

end OutboundQueue

theorem AttachedConnection.news_batch {attached : AttachedConnection} {queue : OutboundQueue}
    {actions : Actions}
    (h : queue.accepted = attached.queue.accepted ++ attached.batch ops actions) (id : ChannelId) :
    queue.news id = attached.queue.news id ++ (ops.filterMap (channelWrite id)).map isDrop := by
  have hactions : (Emit.actions attached.actionsSent actions).filterMap (removes id) = [] :=
    filterMap_eq_nil_iff.mpr fun message hmsg =>
      removes_of_aside (actions_isAside _ _ message hmsg) id
  rw [OutboundQueue.news_append h, batch, filterMap_append, hactions, append_nil, removes_emit]

theorem mem_retiredChannels_of_drop {id : ChannelId} {write : Write ClientChannel}
    (hwr : write ∈ ops.filterMap (channelWrite id)) (hdrop : write.isDrop = true) :
    id ∈ retiredChannels ops := by
  obtain ⟨op, hop, hop'⟩ := mem_filterMap.mp hwr
  have hrmv := ((channelCell id).write_drop op write hop').mp hdrop
  refine mem_filterMap.mpr ⟨op, hop, ?_⟩
  cases op <;> simp_all [removed, channelCell]

theorem mem_versionsOf {first : ShardView} {views : List ShardView} {version : Version}
    (h : version ∈ versionsOf first views) : version.1 ∈ first :: views ∧ version.2 ∈ views := by
  induction views generalizing first with
  | nil => cases h
  | cons next rest ih =>
    rcases mem_cons.mp h with rfl | hrest
    · exact ⟨mem_cons_self, mem_cons_self⟩
    · obtain ⟨hbef, haft⟩ := ih hrest
      exact ⟨mem_cons_of_mem _ hbef, mem_cons_of_mem _ haft⟩

namespace Cell

variable {α δ φ : Type} (cell : Cell α δ φ)

theorem shared_writesOf (see : ScopeSet) (versions : List Version) :
    (shared see versions).filterMap cell.write = (versions.map cell.step).flatMap
      (cell.diff.writesOf cell.same (cell.seen see)) := by
  rw [shared, filterMap_flatMap, flatMap_map]
  simp only [cell.plan_writes]
  rfl

theorem push_writes (see : ScopeSet) (versions : List Version) (sent fresh : Overlay) :
    ∃ front back, front ++ back = (versions.map cell.step).flatMap
        (cell.diff.writesOf cell.same (cell.seen see)) ∧
      (collapse (splice (shared see versions)
        (Plan.planElements sent fresh))).filterMap cell.write =
        settle (front ++
          cell.diff.departures (fun _ _ => true) (fun _ => true)
            (cell.inOverlay sent, cell.inOverlay fresh) ++
          cell.diff.arrivals (fun _ _ => true) (fun _ => true)
            (cell.inOverlay sent, cell.inOverlay fresh) ++ back) := by
  refine ⟨((shared see versions).takeWhile fun op => !op.isRemoval).filterMap cell.write,
    ((shared see versions).dropWhile fun op => !op.isRemoval).filterMap cell.write, ?_, ?_⟩
  · rw [← filterMap_append, takeWhile_append_dropWhile, cell.shared_writesOf]
  · rw [cell.collapse_writes, splice]
    simp only [filterMap_append, cell.overlayRemovals, cell.overlayAdditions]

theorem push_dropsLast (see : ScopeSet) (first : ShardView) (views : List ShardView)
    (sent fresh : Overlay)
    (hxor : (cell.inOverlay sent).isSome = true →
      (cell.inView first).any (cell.seen see) = false) :
    Write.DropsLast ((collapse (splice (shared see (versionsOf first views))
      (Plan.planElements sent fresh))).filterMap cell.write) := by
  obtain ⟨front, back, hspl, hwrites⟩ := cell.push_writes see (versionsOf first views) sent fresh
  rw [hwrites]
  exact splice_dropsLast (cell.keep_of_same see) (cell.versionsOf_chain first views) hxor hspl

theorem replan_dropsLast (before after : ShardView) :
    Write.DropsLast ((replanOps before after).filterMap cell.write) := by
  rw [cell.replan_writes]
  refine dropsLast_settle fun hset => ?_
  rw [any_append, Bool.or_eq_false_iff, arrivals_isSet] at hset
  have hchn : Diff.Chain (cell.inView before) [cell.step (before, after)] (cell.inView after) :=
    ⟨rfl, rfl⟩
  have hlast : Write.DropsLast
      ([cell.step (before, after)].flatMap (cell.diff.writesOf cell.same fun _ => true)) :=
    chain_dropsLast (fun _ _ _ => rfl) hchn (by simpa using hset.1)
  simpa [writesOf] using hlast

theorem mem_push {see : ScopeSet} {first : ShardView} {views : List ShardView}
    {sent fresh : Overlay} {write : Write δ}
    (h : write ∈ (collapse (splice (shared see (versionsOf first views))
      (Plan.planElements sent fresh))).filterMap cell.write) :
    (write.isDrop = false →
      (∃ view ∈ views, (cell.inView view).any (cell.seen see) = true) ∨
        write ∈ cell.diff.arrivals (fun _ _ => true) (fun _ => true)
          (cell.inOverlay sent, cell.inOverlay fresh)) ∧
    (write.isDrop = true →
      (∃ version ∈ versionsOf first views, disappears cell.same
        (cell.seen see) (cell.step version) = true) ∨
        (cell.inOverlay sent).isSome = true) := by
  obtain ⟨front, back, hspl, hwrites⟩ := cell.push_writes see (versionsOf first views) sent fresh
  rw [hwrites] at h
  have hshr : write ∈ front ++ back →
      ∃ version ∈ versionsOf first views, write ∈ cell.diff.writesOf cell.same
        (cell.seen see) (cell.step version) := by
    intro hmem
    rw [hspl, flatMap_map] at hmem
    exact mem_flatMap.mp hmem
  have hstep : write ∈ front ++ back →
      (write.isDrop = false →
        ∃ view ∈ views, (cell.inView view).any (cell.seen see) = true) ∧
      (write.isDrop = true → ∃ version ∈ versionsOf first views, disappears cell.same
        (cell.seen see) (cell.step version) = true) := by
    intro hmem
    obtain ⟨version, hversion, hwr⟩ := hshr hmem
    obtain ⟨hstated, hdrp⟩ := kept_of_mem_writesOf hwr
    exact ⟨fun hkept => ⟨version.2, (mem_versionsOf hversion).2, hstated hkept⟩,
      fun hdrop => ⟨version, hversion, hdrp hdrop⟩⟩
  rcases mem_append.mp (mem_of_mem_settle h) with hmem | hback
  · rcases mem_append.mp hmem with hmem | harrival
    · rcases mem_append.mp hmem with hfront | hdeparture
      · obtain ⟨hstated, hdrp⟩ := hstep (mem_append_left _ hfront)
        exact ⟨fun hkept => Or.inl (hstated hkept), fun hdrop => Or.inl (hdrp hdrop)⟩
      · obtain ⟨hisDrop, hsent⟩ := departure_own hdeparture
        exact ⟨fun hkept => (by rw [hisDrop] at hkept; cases hkept), fun _ => Or.inr hsent⟩
    · have hnot : write.isDrop = false := by
        simpa using any_eq_false.mp (arrivals_isDrop _) write harrival
      exact ⟨fun _ => Or.inr harrival, fun hdrop => (by rw [hnot] at hdrop; cases hdrop)⟩
  · obtain ⟨hstated, hdrp⟩ := hstep (mem_append_right _ hback)
    exact ⟨fun hkept => Or.inl (hstated hkept), fun hdrop => Or.inl (hdrp hdrop)⟩

theorem mem_replan {before after : ShardView} {write : Write δ}
    (h : write ∈ (replanOps before after).filterMap cell.write) :
    (write.isDrop = false → (cell.inView after).isSome = true) ∧
      (write.isDrop = true → (cell.inView before).isSome = true ∧ cell.inView after = none) := by
  rw [cell.replan_writes] at h
  have hmem : write ∈ cell.diff.writesOf cell.same (fun _ => true) (cell.step (before, after)) :=
    mem_of_mem_settle h
  have hany : ∀ content : Option α, (content.any fun _ => true) = content.isSome := by
    intro content
    cases content <;> rfl
  have hstated := (kept_of_mem_writesOf hmem).1
  refine ⟨hstated, fun hdrop => ?_⟩
  obtain ⟨hbef, haft⟩ := gone_of_mem_settle h hdrop
  have hnone : ¬(cell.inView after).isSome = true := Bool.eq_false_iff.mp haft
  exact ⟨hbef, Option.not_isSome_iff_eq_none.mp hnone⟩

end Cell

end MumbleRuntime
