import MumbleRuntime.ClientForest

/-!
# A planned transition as a schedule

The transition of an observer that sees the scopes `keep` puts the channels it
keeps or gains, then settles the users, then drops the channels it loses, each
after those under it. It is a schedule from the forest the observer holds to the
one it is to hold, and the creations and updates come in the order of the passes.
-/

namespace MumbleRuntime
open Library Table ShardView PlanOp List Cell ClientModel AttachedConnection

/-- The part of a view in the scopes `keep` keeps. -/
def ShardView.keeping (view : ShardView) (keep : Scope → Bool) : ShardView where
  channels := view.channels.filter fun channel => keep channel.scope
  users := view.users.filter fun user => keep user.scope

theorem ShardView.keeping_all (view : ShardView) : view.keeping (fun _ => true) = view :=
  ext_get? (fun _ => (get?_filter _ _ _).trans (filter_true _))
    (fun _ => (get?_filter _ _ _).trans (filter_true _))

theorem ShardView.keeping_channel {view : ShardView} {keep : Scope → Bool} {id : ChannelId}
    {channel : Channel} :
    (view.keeping keep).channels.get? id = some channel ↔
      view.channels.get? id = some channel ∧ keep channel.scope = true := by
  rw [keeping, get?_filter, Option.filter_eq_some_iff]

variable {session : SessionId}

theorem ShardView.keeping_user {view : ShardView} {keep : Scope → Bool} {user : User} :
    (view.keeping keep).users.get? session = some user ↔
      view.users.get? session = some user ∧ keep user.scope = true := by
  rw [keeping, get?_filter, Option.filter_eq_some_iff]

namespace Plan

variable {keep : Scope → Bool} {before after : ShardView}

def transition (keep : Scope → Bool) (before after : ShardView) : List PlanOp :=
  Compose.collapse (kept keep (plan before after))

theorem transition_all (before after : ShardView) :
    transition (fun _ => true) before after = replanOps before after := by
  simp [transition, kept, replanOps]

theorem transition_cell {α δ φ : Type} (cell : Cell α δ φ) (keep : Scope → Bool)
    (before after : ShardView) :
    Write.runAll ((transition keep before after).filterMap cell.write)
      (((cell.inView before).filter fun a => keep (cell.scope a)).map cell.diff.shown) =
      ((cell.inView after).filter fun a => keep (cell.scope a)).map cell.diff.shown := by
  rw [transition, cell.collapse_writes, cell.plan_writes]
  exact Diff.settle_step cell.lawful (fun old new h => by rw [cell.same_scope old new h])
    (cell.step_holds (before, after))

theorem transition_converges (keep : Scope → Bool) (before after : ShardView) :
    (before.keeping keep).shown.applyOps (transition keep before after) =
      (after.keeping keep).shown := by
  refine clientModel_eq_iff.mpr ⟨fun id => ?_, fun session => ?_⟩
  · have hview : ∀ view : ShardView, (channelCell id).inView (view.keeping keep) =
        ((channelCell id).inView view).filter fun channel => keep channel.scope :=
      fun view => get?_filter _ _ _
    rw [inClient_applyOps, inClient_shown, inClient_shown, hview, hview]
    exact transition_cell (channelCell id) keep before after
  · have hview : ∀ view : ShardView, (userCell session).inView (view.keeping keep) =
        ((userCell session).inView view).filter fun user => keep user.scope :=
      fun view => get?_filter _ _ _
    rw [inClient_applyOps, inClient_shown, inClient_shown, hview, hview]
    exact transition_cell (userCell session) keep before after

variable {op : PlanOp}

theorem mem_kept_iff {ops : List PlannedOp} :
    op ∈ kept keep ops ↔ ∃ scope, ⟨op, scope⟩ ∈ ops ∧ keep scope = true := by
  rw [kept, mem_map]
  constructor
  · rintro ⟨planned, hmem, rfl⟩
    exact ⟨planned.scope, mem_filter.mp hmem⟩
  · rintro ⟨scope, hmem, hkeep⟩
    exact ⟨⟨op, scope⟩, mem_filter.mpr ⟨hmem, hkeep⟩, rfl⟩

theorem kept_append (ops more : List PlannedOp) :
    kept keep (ops ++ more) = kept keep ops ++ kept keep more := by
  simp [kept]

def creations (before after : ShardView) : List PlannedOp :=
  (orderCreations (created before after) before.channels).map
    fun channel => ⟨.createChannel channel, channel.scope⟩

def channelDrops (before after : ShardView) : List PlannedOp :=
  (orderRemovals (channelRemovals before after) before).map
    fun removed => ⟨.removeChannel removed.1, removed.2⟩

variable {scope : Scope}

theorem mem_creations :
    ⟨op, scope⟩ ∈ creations before after ↔ ∃ channel, op = .createChannel channel ∧
      scope = channel.scope ∧ after.channels.get? channel.id = some channel ∧
      arrives before after channel.id = true := by
  rw [creations, mem_map]
  constructor
  · rintro ⟨channel, hmem, heq⟩
    cases heq
    exact ⟨channel, rfl, rfl, mem_created_iff.mp ((orderCreations_perm _ _).mem_iff.mp hmem)⟩
  · rintro ⟨channel, rfl, rfl, hcre⟩
    exact ⟨channel, (orderCreations_perm _ _).mem_iff.mpr (mem_created_iff.mpr hcre), rfl⟩

theorem of_mem_updated (h : ⟨op, scope⟩ ∈ updated before after) :
    ∃ old new, op = .updateChannel (channelPatch old new) ∧ scope = new.scope ∧
      after.channels.get? new.id = some new ∧ before.channels.get? new.id = some old ∧
      old.scope = new.scope := by
  obtain ⟨new, hnew, hpick⟩ := mem_filterMap.mp h
  cases hold : before.channels.get? new.id with
  | none => simp [hold] at hpick
  | some old =>
    simp only [hold] at hpick
    split_ifs at hpick with hsc hnoop
    cases hpick
    exact ⟨old, new, rfl, rfl, get?_of_mem hnew, hold, hsc⟩

theorem mem_userAdditions :
    ⟨op, scope⟩ ∈ userAdditions before after ↔ ∃ new, op = .addUser new ∧ scope = new.scope ∧
      after.users.get? new.session = some new ∧
      ∀ old, before.users.get? new.session = some old → old.scope ≠ new.scope := by
  rw [userAdditions, mem_filterMap]
  constructor
  · rintro ⟨new, hnew, hpick⟩
    cases hold : before.users.get? new.session with
    | none =>
      simp only [hold] at hpick
      cases hpick
      exact ⟨new, rfl, rfl, get?_of_mem hnew, fun old hget => by rw [hold] at hget; cases hget⟩
    | some old =>
      simp only [hold] at hpick
      split_ifs at hpick with hsc
      cases hpick
      refine ⟨new, rfl, rfl, get?_of_mem hnew, fun other hget => ?_⟩
      rw [hold] at hget
      cases hget
      exact hsc
  · rintro ⟨new, rfl, rfl, hget, hsc⟩
    refine ⟨new, mem_of_get? hget, ?_⟩
    cases hold : before.users.get? new.session with
    | none => rfl
    | some old => exact if_neg (hsc old hold)

theorem of_mem_userMoves (h : ⟨op, scope⟩ ∈ userMoves before after) :
    ∃ old new, op = .moveUser new.session new.channel ∧ scope = new.scope ∧
      after.users.get? new.session = some new ∧ before.users.get? new.session = some old ∧
      old.scope = new.scope := by
  obtain ⟨new, hnew, hpick⟩ := mem_filterMap.mp h
  cases hold : before.users.get? new.session with
  | none => simp [hold] at hpick
  | some old =>
    simp only [hold] at hpick
    split_ifs at hpick with hboth
    cases hpick
    exact ⟨old, new, rfl, rfl, get?_of_mem hnew, hold, hboth.1⟩

theorem of_mem_userUpdates (h : ⟨op, scope⟩ ∈ userUpdates before after) :
    ∃ patch, op = .updateUser patch := by
  obtain ⟨new, -, hpick⟩ := mem_filterMap.mp h
  cases hold : before.users.get? new.session with
  | none => simp [hold] at hpick
  | some old =>
    simp only [hold] at hpick
    split_ifs at hpick
    cases hpick
    exact ⟨_, rfl⟩

theorem of_mem_userRemovals (h : ⟨op, scope⟩ ∈ userRemovals before after) :
    ∃ session old, op = .removeUser session ∧ scope = old.scope ∧
      before.users.get? session = some old ∧
      ∀ new, after.users.get? session = some new → old.scope ≠ new.scope := by
  rcases mem_append.mp h with hfst | hsec
  · obtain ⟨new, hnew, hpick⟩ := mem_filterMap.mp hfst
    cases hold : before.users.get? new.session with
    | none => simp [hold] at hpick
    | some old =>
      simp only [hold] at hpick
      split_ifs at hpick with hsc
      cases hpick
      refine ⟨new.session, old, rfl, rfl, hold, fun other hget => ?_⟩
      rw [get?_of_mem hnew] at hget
      cases hget
      exact hsc
  · obtain ⟨old, hold, hpick⟩ := mem_filterMap.mp hsec
    split_ifs at hpick with hstays
    cases hpick
    refine ⟨old.session, old, rfl, rfl, get?_of_mem hold, fun new hget => ?_⟩
    exact absurd (contains_iff.mpr ⟨new, hget⟩) hstays

theorem of_mem_channelDrops (h : ⟨op, scope⟩ ∈ channelDrops before after) :
    ∃ id old, op = .removeChannel id ∧ scope = old.scope ∧ before.channels.get? id = some old ∧
      ∀ new, after.channels.get? id = some new → old.scope ≠ new.scope := by
  obtain ⟨removed, hmem, heq⟩ := mem_map.mp h
  cases heq
  rcases mem_append.mp ((orderRemovals_perm _ _).mem_iff.mp hmem) with hfst | hsec
  · obtain ⟨new, hnew, hpick⟩ := mem_filterMap.mp hfst
    cases hold : before.channels.get? new.id with
    | none => simp [hold] at hpick
    | some old =>
      simp only [hold] at hpick
      split_ifs at hpick with hsc
      cases hpick
      refine ⟨new.id, old, rfl, rfl, hold, fun other hget => ?_⟩
      rw [get?_of_mem hnew] at hget
      cases hget
      exact hsc
  · obtain ⟨old, hold, hpick⟩ := mem_filterMap.mp hsec
    split_ifs at hpick with hstays
    cases hpick
    refine ⟨old.id, old, rfl, rfl, get?_of_mem hold, fun new hget => ?_⟩
    exact absurd (contains_iff.mpr ⟨new, hget⟩) hstays

def surviving (keep : Scope → Bool) (before after : ShardView) (ops : List PlannedOp) :
    List PlanOp :=
  (kept keep ops).filter
    (Compose.survives ((kept keep (plan before after)).filterMap PlanOp.added))

def placings (keep : Scope → Bool) (before after : ShardView) : List PlanOp :=
  kept keep (creations before after) ++ kept keep (updated before after)

def seatings (keep : Scope → Bool) (before after : ShardView) : List PlanOp :=
  kept keep (userAdditions before after) ++ kept keep (userMoves before after) ++
    kept keep (userUpdates before after) ++
    surviving keep before after (userRemovals before after)

theorem transition_eq (keep : Scope → Bool) (before after : ShardView) :
    transition keep before after = placings keep before after ++ (seatings keep before after ++
      surviving keep before after (channelDrops before after)) := by
  have hadditions : (kept keep (additions before after)).filter
      (Compose.survives ((kept keep (plan before after)).filterMap added)) =
      kept keep (additions before after) := by
    refine filter_eq_self.mpr fun op hop => ?_
    have hnot := isRemoval_additions hop
    cases op <;> first | rfl | cases hnot
  have hplan := plan_eq before after
  rw [transition, Compose.collapse]
  conv_lhs => arg 2; rw [hplan, kept_append]
  rw [filter_append, hadditions, additions, removals]
  simp only [kept_append, filter_append, placings, seatings, surviving, creations, channelDrops,
    append_assoc]

def held (keep : Scope → Bool) (view : ShardView) : Forest ChannelId SessionId :=
  (view.keeping keep).shown.forest

variable {view : ShardView}

theorem held_parent {channel : Channel} (hget : view.channels.get? channel.id = some channel)
    (hkeep : keep channel.scope = true) :
    (held keep view).parent channel.id = some channel.shown.parent := by
  rw [held, forest_shown_parent, keeping_channel.mpr ⟨hget, hkeep⟩]
  rfl

variable {id : ChannelId}

theorem held_parent_eq_none
    (h : ∀ channel, view.channels.get? id = some channel → keep channel.scope = false) :
    (held keep view).parent id = none := by
  rw [held, forest_shown_parent, Option.map_eq_none_iff]
  by_contra hsome
  obtain ⟨channel, hch⟩ := Option.ne_none_iff_exists'.mp hsome
  obtain ⟨hget, hkeep⟩ := keeping_channel.mp hch
  rw [h channel hget] at hkeep
  cases hkeep

theorem held_place {user : User} (hget : view.users.get? user.session = some user)
    (hkeep : keep user.scope = true) : (held keep view).place user.session = some user.channel := by
  rw [held, forest_shown_place, keeping_user.mpr ⟨hget, hkeep⟩]
  rfl

theorem held_place_eq_none
    (h : ∀ user, view.users.get? session = some user → keep user.scope = false) :
    (held keep view).place session = none := by
  rw [held, forest_shown_place, Option.map_eq_none_iff]
  by_contra hsome
  obtain ⟨user, huser⟩ := Option.ne_none_iff_exists'.mp hsome
  obtain ⟨hget, hkeep⟩ := keeping_user.mp huser
  rw [h user hget] at hkeep
  cases hkeep

theorem notMem_added {e : ElementId} {ops : List PlannedOp}
    (h : op ∈ surviving keep before after ops) (hrmv : op.removed = some e) :
    ∀ other ∈ kept keep (plan before after), other.added ≠ some e := by
  intro other hoth hadded
  have hsurvives := (mem_filter.mp h).2
  simp only [Compose.survives, hrmv, Bool.not_eq_true', contains_eq_mem,
    decide_eq_false_iff_not] at hsurvives
  exact hsurvives (mem_filterMap.mpr ⟨other, hoth, hadded⟩)

theorem mem_plan_of_additions {planned : PlannedOp} (h : planned ∈ additions before after) :
    planned ∈ plan before after := by
  rw [plan_eq]
  exact mem_append_left _ h

theorem held_of_drop
    (h : .removeChannel id ∈ surviving keep before after (channelDrops before after)) :
    (held keep after).parent id = none := by
  obtain ⟨scope, hmem, -⟩ := mem_kept_iff.mp (mem_of_mem_filter h)
  obtain ⟨id', old, heq, -, hold, hsc⟩ := of_mem_channelDrops hmem
  cases heq
  refine held_parent_eq_none fun new hnew => ?_
  by_contra hkeep
  have hid : new.id = id := key_of_get? hnew
  subst hid
  have harrives : arrives before after new.id = true := by
    simp [arrives, hnew, hold, hsc new hnew]
  have hcre : ⟨.createChannel new, new.scope⟩ ∈ plan before after := by
    refine mem_plan_of_additions ?_
    simp only [additions, mem_append]
    exact .inl (.inl (.inl (.inl (mem_creations.mpr ⟨new, rfl, rfl, hnew, harrives⟩))))
  exact notMem_added h rfl (.createChannel new)
    (mem_kept_iff.mpr ⟨new.scope, hcre, by simpa using hkeep⟩) rfl

theorem held_of_leave
    (h : .removeUser session ∈ surviving keep before after (userRemovals before after)) :
    (held keep after).place session = none := by
  obtain ⟨scope, hmem, -⟩ := mem_kept_iff.mp (mem_of_mem_filter h)
  obtain ⟨session', old, heq, -, hold, hsc⟩ := of_mem_userRemovals hmem
  cases heq
  refine held_place_eq_none fun new hnew => ?_
  by_contra hkeep
  have hid : new.session = session := key_of_get? hnew
  subst hid
  have hadded : ⟨.addUser new, new.scope⟩ ∈ plan before after := by
    refine mem_plan_of_additions ?_
    simp only [additions, mem_append]
    refine .inl (.inl (.inr (mem_userAdditions.mpr ⟨new, rfl, rfl, hnew, ?_⟩)))
    intro other hoth
    rw [hold] at hoth
    cases hoth
    exact hsc new hnew
  exact notMem_added h rfl (.addUser new)
    (mem_kept_iff.mpr ⟨new.scope, hadded, by simpa using hkeep⟩) rfl

theorem settles_placing (h : op ∈ placings keep before after) :
    op.Settles (held keep before) (held keep after) ∧ (∃ n, op.site = some (.inl n)) ∧
      op.isRemoval = false := by
  rcases mem_append.mp h with hcreation | hupdate
  · obtain ⟨scope, hmem, hkeep⟩ := mem_kept_iff.mp hcreation
    obtain ⟨channel, rfl, rfl, hget, -⟩ := mem_creations.mp hmem
    exact ⟨settles_create (held_parent hget hkeep), ⟨channel.id, rfl⟩, rfl⟩
  · obtain ⟨scope, hmem, hkeep⟩ := mem_kept_iff.mp hupdate
    obtain ⟨old, new, rfl, rfl, hget, hbef, hsc⟩ := of_mem_updated hmem
    have hid : old.id = new.id := key_of_get? hbef
    have hold := held_parent (by rw [hid]; exact hbef) (by rw [hsc]; exact hkeep)
    rw [hid] at hold
    exact ⟨settles_update hid hold (held_parent hget hkeep), ⟨new.id, rfl⟩, rfl⟩

theorem settles_seating (h : op ∈ seatings keep before after) :
    op.Settles (held keep before) (held keep after) ∧ ∀ n, op.site ≠ some (.inl n) := by
  rcases mem_append.mp h with hstay | hleave
  · rcases mem_append.mp hstay with hseat | hpatch
    · rcases mem_append.mp hseat with hadd | hmove
      · obtain ⟨scope, hmem, hkeep⟩ := mem_kept_iff.mp hadd
        obtain ⟨new, rfl, rfl, hget, -⟩ := mem_userAdditions.mp hmem
        exact ⟨settles_add (held_place hget hkeep), by simp [site]⟩
      · obtain ⟨scope, hmem, hkeep⟩ := mem_kept_iff.mp hmove
        obtain ⟨old, new, rfl, rfl, hget, hbef, hsc⟩ := of_mem_userMoves hmem
        have hid : old.session = new.session := key_of_get? hbef
        have hold := held_place (by rw [hid]; exact hbef) (by rw [hsc]; exact hkeep)
        rw [hid] at hold
        exact ⟨settles_move hold (held_place hget hkeep), by simp [site]⟩
    · obtain ⟨scope, hmem, -⟩ := mem_kept_iff.mp hpatch
      obtain ⟨patch, rfl⟩ := of_mem_userUpdates hmem
      exact ⟨settles_updateUser, by simp [site]⟩
  · obtain ⟨scope, hmem, -⟩ := mem_kept_iff.mp (mem_of_mem_filter hleave)
    obtain ⟨session, old, rfl, -⟩ := of_mem_userRemovals hmem
    exact ⟨settles_leave (held_of_leave hleave), by simp [site]⟩

theorem settles_drop (h : op ∈ surviving keep before after (channelDrops before after)) :
    op.Settles (held keep before) (held keep after) ∧
      ∃ id, op = .removeChannel id ∧ (held keep after).parent id = none := by
  obtain ⟨scope, hmem, -⟩ := mem_kept_iff.mp (mem_of_mem_filter h)
  obtain ⟨id, old, rfl, -⟩ := of_mem_channelDrops hmem
  exact ⟨settles_drop (held_of_drop h), id, rfl, held_of_drop h⟩

def puts (keep : Scope → Bool) (before after : ShardView) : List ChannelId :=
  (placings keep before after).filterMap PlanOp.channelSite

def moves (keep : Scope → Bool) (before after : ShardView) : List SessionId :=
  (seatings keep before after).filterMap PlanOp.userSite

def drops (keep : Scope → Bool) (before after : ShardView) : List ChannelId :=
  (surviving keep before after (channelDrops before after)).filterMap PlanOp.channelSite

theorem sites_transition (keep : Scope → Bool) (before after : ShardView) :
    (transition keep before after).filterMap site =
      (puts keep before after).map .inl ++
        ((moves keep before after).map .inr ++ (drops keep before after).map .inl) := by
  rw [transition_eq, filterMap_append, filterMap_append]
  congr 1
  · refine filterMap_site_channels fun op hop r hsite => ?_
    obtain ⟨-, ⟨n, hn⟩, -⟩ := settles_placing hop
    rw [hn] at hsite
    cases hsite
  · congr 1
    · exact filterMap_site_users fun op hop => (settles_seating hop).2
    · refine filterMap_site_channels fun op hop r hsite => ?_
      obtain ⟨-, id, rfl, -⟩ := settles_drop hop
      cases hsite

theorem held_up (keep : Scope → Bool) (view : ShardView) :
    (held keep view).up = (view.keeping keep).above :=
  forest_shown_up _

theorem above_of_keeping {p : ChannelId} (h : (view.keeping keep).above id = some p) :
    view.above id = some p := by
  obtain ⟨hroot, channel, hget, hpar⟩ := above_eq_some_iff.mp h
  exact above_eq_some_iff.mpr ⟨hroot, channel, (keeping_channel.mp hget).1, hpar⟩

theorem mem_puts {n : ChannelId} (h : n ∈ puts keep before after) :
    ((held keep after).parent n).isSome = true := by
  obtain ⟨op, hop, hsite⟩ := mem_filterMap.mp h
  obtain ⟨hset, -, hkept⟩ := settles_placing hop
  exact hset.stays n (site_of_channelSite hsite) hkept

theorem mem_drops {n : ChannelId} (h : n ∈ drops keep before after) :
    (held keep after).parent n = none := by
  obtain ⟨op, hop, hsite⟩ := mem_filterMap.mp h
  obtain ⟨-, id, rfl, hnone⟩ := settles_drop hop
  cases hsite
  exact hnone

theorem drops_sorted (keep : Scope → Bool) (before after : ShardView) :
    (drops keep before after).Pairwise (deeperFirst (depthIn before)) := by
  have hall : (channelDrops before after).Pairwise fun left right =>
      ∀ a ∈ left.op.channelSite, ∀ b ∈ right.op.channelSite, deeperFirst (depthIn before) a b := by
    refine pairwise_map.mpr ((orderRemovals_sorted _ before).imp ?_)
    intro left right hdeeper a ha b hb
    cases ha
    cases hb
    exact hdeeper
  refine pairwise_filterMap.mpr (List.Pairwise.filter _ (pairwise_map.mpr ?_))
  exact hall.filter _

theorem schedule (hacy : Acyclic before.above) :
    Forest.Schedule (held keep before) (held keep after) (puts keep before after)
      (moves keep before after) (drops keep before after) := by
  have hlands := congrArg forest (transition_converges keep before after)
  refine ⟨fun n => mem_puts, fun n => mem_drops, fun n hput hdrop => ?_, fun r hmove => ?_, ?_⟩
  · rw [held, held, ← hlands, forest_applyOps_parent]
    rw [sites_transition]
    simp [hput, hdrop]
  · rw [held, held, ← hlands, forest_applyOps_place]
    rw [sites_transition]
    simp [hmove]
  · intro done n rest hspl m hm hup
    rw [held_up] at hup
    have habove := above_of_keeping hup
    have hdepth := depthIn_of_above hacy habove
    rw [hspl, mem_append] at hm
    refine hm.resolve_right fun hlat => ?_
    rcases mem_cons.mp hlat with rfl | hrest
    · omega
    · have hsorted := drops_sorted keep before after
      rw [hspl, pairwise_append] at hsorted
      have hdeeper := (pairwise_cons.mp hsorted.2.1).1 m hrest
      simp only [deeperFirst] at hdeeper
      omega

end Plan

end MumbleRuntime
