import MumbleRuntime.PlanCell

/-!
# One connection's transition, read one element at a time

The overlay's operations about an element are the arrivals and departures of a
diff that keeps everything. Dropping the removals of added elements settles each
cell's batch. A lag is a list of versions; the splice point is its first version
that withdraws something the connection sees, and the shared writes before it
stay before the private ones.
-/

namespace MumbleRuntime
open Library Diff Table Compose
open List hiding contains filter_append filter_eq_self
open Plan

namespace Plan

def overlayChannelStep (id : ChannelId) (step : Overlay × Overlay) :
    Option Channel × Option Channel :=
  (step.1.channels.get? id, step.2.channels.get? id)

def overlayUserStep (session : SessionId) (step : Overlay × Overlay) : Option User × Option User :=
  (step.1.users.get? session, step.2.users.get? session)

variable (before after : Overlay)

theorem overlayAdditions_channel (id : ChannelId) :
    (planElements before after).additions.filterMap (PlanOp.channelWrite id) =
      channelDiff.arrivals (fun _ _ => true) (fun _ => true)
        (overlayChannelStep id (before, after)) := by
  have hcre : ((orderCreations (overlayCreated before after) empty).map
      PlanOp.createChannel).filterMap (PlanOp.channelWrite id) =
      if before.channels.contains id then []
      else ((after.channels.get? id).map fun new => Write.set new.shown).toList := by
    rw [filterMap_map]
    apply filterMap_perm (orderCreations_perm _ _)
    · rw [overlayCreated, ← filterMap_eq_filter, filterMap_filterMap, filterMap_rows _ id]
      · cases hnew : after.channels.get? id with
        | none => simp
        | some new =>
          have hid : new.id = id := key_of_get? hnew
          cases hin : before.channels.contains id <;>
            simp [hid, hin, PlanOp.channelWrite, Option.guard]
      · intro new hne
        cases hin : before.channels.contains new.id <;>
          simp [hin, PlanOp.channelWrite, hne, Option.guard]
    · split_ifs
      · simp
      · cases after.channels.get? id <;> simp
  have husr : (overlayUsers before after).filterMap (PlanOp.channelWrite id) = [] := by
    rw [filterMap_eq_nil_iff]
    intro op hop
    obtain ⟨new, -, h⟩ := mem_flatMap.mp hop
    split at h
    · simp only [mem_append] at h
      rcases h with h | h <;> split_ifs at h <;> simp_all [PlanOp.channelWrite]
    · simp_all [PlanOp.channelWrite]
  simp only [planElements, filterMap_append, overlayUpdated]
  rw [hcre, filterMap_picked id, husr]
  · cases hnew : after.channels.get? id with
    | none => cases hold : before.channels.get? id <;> simp [overlayChannelStep, hold, hnew, arrivals]
    | some new =>
      obtain rfl := key_of_get? hnew
      cases hold : before.channels.get? new.id with
      | none => simp [overlayChannelStep, hold, hnew, arrivals, contains, channelDiff]
      | some old =>
        cases hnoop : (channelPatch old new).isNoop <;>
          simp [overlayChannelStep, hold, hnew, arrivals, contains, channelDiff, hnoop,
            channelPatches, PlanOp.channelWrite]
  · intro new op h hne
    split at h
    · split_ifs at h
      cases h
      simp [PlanOp.channelWrite, hne]
    · cases h

theorem overlayRemovals_channel (id : ChannelId) :
    (planElements before after).removals.filterMap (PlanOp.channelWrite id) =
      channelDiff.departures (fun _ _ => true) (fun _ => true)
        (overlayChannelStep id (before, after)) := by
  have husr : (overlayUserRemovals before after).filterMap (PlanOp.channelWrite id) = [] := by
    rw [overlayUserRemovals, filterMap_filterMap, filterMap_eq_nil_iff]
    intro old _
    cases after.users.contains old.session <;> simp [PlanOp.channelWrite]
  rw [planElements, filterMap_append, husr, nil_append, filterMap_map]
  apply filterMap_perm (perm_insertionSort _ _)
  · rw [overlayChannelRemovals, filterMap_filterMap, filterMap_rows _ id]
    · cases hold : before.channels.get? id with
      | none => simp [overlayChannelStep, hold, departures, disappears]
      | some old =>
        have hid : old.id = id := key_of_get? hold
        cases hnew : after.channels.get? id <;>
          simp [overlayChannelStep, hold, hnew, hid, departures, disappears,
            PlanOp.channelWrite, contains]
    · intro old hne
      cases after.channels.contains old.id <;> simp [PlanOp.channelWrite, hne]
  · unfold departures
    split_ifs <;> simp

theorem overlayAdditions_user (session : SessionId) :
    (planElements before after).additions.filterMap (PlanOp.userWrite session) =
      userDiff.arrivals (fun _ _ => true) (fun _ => true)
        (overlayUserStep session (before, after)) := by
  have hcre : ((orderCreations (overlayCreated before after) empty).map
      PlanOp.createChannel).filterMap (PlanOp.userWrite session) = [] := by
    rw [filterMap_map, filterMap_eq_nil_iff]
    intro channel _
    rfl
  have hupdated : (overlayUpdated before after).filterMap (PlanOp.userWrite session) = [] := by
    refine filterMap_unpicked fun new op h => ?_
    split at h
    · dsimp only at h
      split_ifs at h
      cases h
      rfl
    · cases h
  have husr : (overlayUsers before after).filterMap (PlanOp.userWrite session) =
      userDiff.arrivals (fun _ _ => true) (fun _ => true)
        (overlayUserStep session (before, after)) := by
    rw [overlayUsers, filterMap_flatMap, flatMap_rows _ session]
    · cases hnew : after.users.get? session with
      | none => simp [overlayUserStep, hnew, arrivals]
      | some new =>
        have hid : new.session = session := key_of_get? hnew
        cases hold : before.users.get? session with
        | none => simp [overlayUserStep, hnew, hold, hid, arrivals, userDiff, PlanOp.userWrite]
        | some old =>
          by_cases hch : old.channel = new.channel <;> cases hnoop : (userPatch old new).isNoop <;>
            simp [overlayUserStep, hnew, hold, hid, arrivals, userDiff, userPatches, hch,
              hnoop, PlanOp.userWrite]
    · intro new hne
      cases hold : before.users.get? new.session with
      | none => simp [PlanOp.userWrite, hne]
      | some old =>
        by_cases hch : old.channel = new.channel <;> cases hnoop : (userPatch old new).isNoop <;>
          simp [hch, hnoop, PlanOp.userWrite, hne]
  rw [planElements, filterMap_append, filterMap_append, hcre, hupdated, husr]
  rfl

theorem overlayRemovals_user (session : SessionId) :
    (planElements before after).removals.filterMap (PlanOp.userWrite session) =
      userDiff.departures (fun _ _ => true) (fun _ => true)
        (overlayUserStep session (before, after)) := by
  have hchs : (((overlayChannelRemovals before after).insertionSort
      (deeperFirst (overlayDepth before.channels))).map PlanOp.removeChannel).filterMap
        (PlanOp.userWrite session) = [] := by
    rw [filterMap_map, filterMap_eq_nil_iff]
    intro channel _
    rfl
  rw [planElements, filterMap_append, hchs, append_nil, overlayUserRemovals,
    filterMap_filterMap, filterMap_rows _ session]
  · cases hold : before.users.get? session with
    | none => simp [overlayUserStep, hold, departures, disappears]
    | some old =>
      have hid : old.session = session := key_of_get? hold
      cases hnew : after.users.get? session <;>
        simp [overlayUserStep, hold, hnew, hid, departures, disappears, PlanOp.userWrite, contains]
  · intro old hne
    cases after.users.contains old.session <;> simp [PlanOp.userWrite, hne]

end Plan

/-- One element: where it stands in a view, an overlay and the client, and what
each operation writes to it. -/
structure Cell (α δ φ : Type) where
  diff : Diff α δ φ FieldValue
  same : α → α → Bool
  scope : α → Scope
  holds : α → Prop
  inView : ShardView → Option α
  inOverlay : Overlay → Option α
  inClient : ClientModel → Option δ
  element : ElementId
  write : PlanOp → Option (Write δ)
  same_scope : ∀ a b, same a b = true → scope a = scope b
  lawful : diff.Lawful holds
  inView_holds : ∀ v a, inView v = some a → holds a
  inOverlay_holds : ∀ o a, inOverlay o = some a → holds a
  inView_restrict : ∀ v see,
    inView (v.restrict see) = (inView v).filter fun a => see.sees (scope a)
  inView_compose : ∀ v o, inView (v.compose o) = (inOverlay o).or (inView v)
  inClient_shown : ∀ v, inClient v.shown = (inView v).map diff.shown
  inClient_applyOps : ∀ m ops,
    inClient (ClientModel.applyOps m ops) = Write.runAll (ops.filterMap write) (inClient m)
  write_element : ∀ op w, write op = some w → op.element = element
  write_set : ∀ op w, write op = some w → (w.isSet = true ↔ op.added = some element)
  write_added : ∀ op, op.added = some element → ∃ w, write op = some w
  write_drop : ∀ op w, write op = some w → (w.isDrop = true ↔ op.removed = some element)
  additions : ∀ (keep : Scope → Bool) before after,
    (Plan.kept keep (Plan.additions before after)).filterMap write =
      diff.arrivals same (fun a => keep (scope a)) (inView before, inView after)
  removals : ∀ (keep : Scope → Bool) before after,
    (Plan.kept keep (Plan.removals before after)).filterMap write =
      diff.departures same (fun a => keep (scope a)) (inView before, inView after)
  overlayAdditions : ∀ before after,
    (Plan.planElements before after).additions.filterMap write =
      diff.arrivals (fun _ _ => true) (fun _ => true) (inOverlay before, inOverlay after)
  overlayRemovals : ∀ before after,
    (Plan.planElements before after).removals.filterMap write =
      diff.departures (fun _ _ => true) (fun _ => true) (inOverlay before, inOverlay after)

/-- The element is in a scope that `see` sees. -/
abbrev Cell.seen {α δ φ : Type} (cell : Cell α δ φ) (see : ScopeSet) (a : α) : Bool :=
  see.sees (cell.scope a)

def channelCell (id : ChannelId) : Cell Channel ClientChannel ChannelField where
  diff := Plan.channelDiff
  same := Plan.sameChannelScope
  scope := Channel.scope
  holds channel := channel.id = id
  inView v := v.channels.get? id
  inOverlay o := o.channels.get? id
  inClient m := m.channels.get? id
  element := .channel id
  write := PlanOp.channelWrite id
  same_scope a b h := by simpa [Plan.sameChannelScope] using h
  lawful := Plan.channelDiff_lawful id
  inView_holds v a h := Table.key_of_get? h
  inOverlay_holds o a h := Table.key_of_get? h
  inView_restrict v see := Table.get?_filter _ _ _
  inView_compose v o := Table.get?_extend _ _ _
  inClient_shown v := v.shown_channel id
  inClient_applyOps m ops := ClientModel.applyOps_channels m ops id
  write_element op w h := by
    cases op <;> simp_all [PlanOp.channelWrite, PlanOp.element]
  write_set op w h := by
    cases op <;> simp_all [PlanOp.channelWrite, PlanOp.added] <;>
      obtain ⟨-, rfl⟩ := h <;> rfl
  write_added op h := by
    cases op <;> simp_all [PlanOp.channelWrite, PlanOp.added]
  write_drop op w h := by
    cases op <;> simp_all [PlanOp.channelWrite, PlanOp.removed] <;>
      obtain ⟨-, rfl⟩ := h <;> rfl
  additions keep before after := Plan.additions_channel keep before after id
  removals keep before after := Plan.removals_channel keep before after id
  overlayAdditions before after := Plan.overlayAdditions_channel before after id
  overlayRemovals before after := Plan.overlayRemovals_channel before after id

def userCell (session : SessionId) : Cell User ClientUser UserField where
  diff := Plan.userDiff
  same := Plan.sameUserScope
  scope := User.scope
  holds user := user.session = session
  inView v := v.users.get? session
  inOverlay o := o.users.get? session
  inClient m := m.users.get? session
  element := .user session
  write := PlanOp.userWrite session
  same_scope a b h := by simpa [Plan.sameUserScope] using h
  lawful := Plan.userDiff_lawful session
  inView_holds v a h := Table.key_of_get? h
  inOverlay_holds o a h := Table.key_of_get? h
  inView_restrict v see := Table.get?_filter _ _ _
  inView_compose v o := Table.get?_extend _ _ _
  inClient_shown v := v.shown_user session
  inClient_applyOps m ops := ClientModel.applyOps_users m ops session
  write_element op w h := by
    cases op <;> simp_all [PlanOp.userWrite, PlanOp.element]
  write_set op w h := by
    cases op <;> simp_all [PlanOp.userWrite, PlanOp.added] <;>
      obtain ⟨-, rfl⟩ := h <;> rfl
  write_added op h := by
    cases op <;> simp_all [PlanOp.userWrite, PlanOp.added]
  write_drop op w h := by
    cases op <;> simp_all [PlanOp.userWrite, PlanOp.removed] <;>
      obtain ⟨-, rfl⟩ := h <;> rfl
  additions keep before after := Plan.additions_user keep before after session
  removals keep before after := Plan.removals_user keep before after session
  overlayAdditions before after := Plan.overlayAdditions_user before after session
  overlayRemovals before after := Plan.overlayRemovals_user before after session

theorem clientModel_eq_iff {a b : ClientModel} :
    a = b ↔ (∀ id, (channelCell id).inClient a = (channelCell id).inClient b) ∧
      ∀ session, (userCell session).inClient a = (userCell session).inClient b :=
  ClientModel.eq_iff

abbrev Version := ShardView × ShardView

namespace Lag

def withdraws (see : ScopeSet) (version : Version) : Bool :=
  (version.1.channels.rows.any fun old =>
    Diff.disappears Plan.sameChannelScope (fun channel => see.sees channel.scope)
      (some old, version.2.channels.get? old.id)) ||
  version.1.users.rows.any fun old =>
    Diff.disappears Plan.sameUserScope (fun user => see.sees user.scope)
      (some old, version.2.users.get? old.session)

def front (see : ScopeSet) : List Version → List Version
  | [] => []
  | version :: rest => if withdraws see version then [version] else version :: front see rest

def back (see : ScopeSet) : List Version → List Version
  | [] => []
  | version :: rest => if withdraws see version then rest else back see rest

theorem front_append_back (see : ScopeSet) (versions : List Version) :
    front see versions ++ back see versions = versions := by
  induction versions with
  | nil => rfl
  | cons version rest ih =>
    simp only [front, back]
    split_ifs
    · rfl
    · rw [cons_append, ih]

def shared (see : ScopeSet) (versions : List Version) : List PlanOp :=
  versions.flatMap fun version => Plan.kept see.sees (Plan.plan version.1 version.2)

end Lag

namespace Plan

theorem isRemoval_additions {keep : Scope → Bool} {before after : ShardView} {op : PlanOp}
    (h : op ∈ kept keep (additions before after)) : op.isRemoval = false := by
  simp only [kept, mem_map, mem_filter, additions, mem_append] at h
  obtain ⟨planned, ⟨h, -⟩, rfl⟩ := h
  rcases h with (((⟨channel, -, rfl⟩ | h) | h) | h) | h
  · rfl
  all_goals
    obtain ⟨new, -, h⟩ := mem_filterMap.mp h
    split at h
    · simp only [Option.ite_none_left_eq_some, Option.ite_none_right_eq_some] at h
      first
      | obtain ⟨-, -, h⟩ := h
        cases h
        rfl
      | obtain ⟨-, h⟩ := h
        cases h
        rfl
    · cases h
      try rfl

theorem isRemoval_removals {keep : Scope → Bool} {before after : ShardView} {op : PlanOp}
    (h : op ∈ kept keep (removals before after)) : op.isRemoval = true := by
  simp only [kept, mem_map, mem_filter, removals, userRemovals, mem_append, mem_filterMap] at h
  obtain ⟨planned, ⟨h, -⟩, rfl⟩ := h
  rcases h with (⟨user, -, h⟩ | ⟨user, -, h⟩) | ⟨removed, -, rfl⟩
  · split at h
    · split_ifs at h
      cases h
      rfl
    · cases h
  · split_ifs at h
    cases h
    rfl
  · rfl

end Plan

variable {version : Version} {see : ScopeSet}

namespace Cell

variable {α δ φ : Type} (cell : Cell α δ φ)

def step (version : Version) : Option α × Option α :=
  (cell.inView version.1, cell.inView version.2)

theorem step_holds (version : Version) : stepHolds cell.holds (cell.step version) :=
  ⟨cell.inView_holds _, cell.inView_holds _⟩

theorem plan_writes (keep : Scope → Bool) (before after : ShardView) :
    (kept keep (plan before after)).filterMap cell.write =
      cell.diff.arrivals cell.same (fun a => keep (cell.scope a)) (cell.step (before, after)) ++
      cell.diff.departures cell.same (fun a => keep (cell.scope a)) (cell.step (before, after)) := by
  rw [step, plan_eq, ← cell.additions, ← cell.removals, ← filterMap_append]
  simp [kept]

theorem added_contains (ops : List PlanOp) :
    (ops.filterMap PlanOp.added).contains cell.element =
      (ops.filterMap cell.write).any Write.isSet := by
  rw [Bool.eq_iff_iff, contains_iff_mem, any_eq_true, mem_filterMap]
  constructor
  · rintro ⟨op, hop, hadded⟩
    obtain ⟨w, hw⟩ := cell.write_added op hadded
    exact ⟨w, mem_filterMap.mpr ⟨op, hop, hw⟩, (cell.write_set op w hw).mpr hadded⟩
  · rintro ⟨w, hw, hset⟩
    obtain ⟨op, hop, hwr⟩ := mem_filterMap.mp hw
    exact ⟨op, hop, (cell.write_set op w hwr).mp hset⟩

theorem removed_element {op : PlanOp} {e : ElementId}
    (h : op.removed = some e) : op.element = e := by
  cases op <;> simp_all [PlanOp.removed, PlanOp.element]

theorem collapse_writes (ops : List PlanOp) :
    (collapse ops).filterMap cell.write = Write.settle (ops.filterMap cell.write) := by
  have hscan : ∀ (added : List ElementId) (ops : List PlanOp),
      (ops.filter (survives added)).filterMap cell.write =
      if added.contains cell.element then
        (ops.filterMap cell.write).filter fun w => !w.isDrop
      else ops.filterMap cell.write := by
    intro added ops
    induction ops with
    | nil => simp
    | cons op rest ih =>
      cases hw : cell.write op with
      | none =>
        rw [filterMap_cons_none hw, ← ih]
        cases hs : survives added op with
        | true => rw [filter_cons_of_pos hs, filterMap_cons_none hw]
        | false => rw [filter_cons_of_neg (by simp [hs])]
      | some w =>
        have hdrop := cell.write_drop op w hw
        cases hrmv : op.removed with
        | none =>
          have hnot : w.isDrop = false := by simpa [hrmv] using hdrop
          rw [filter_cons_of_pos (by simp [survives, hrmv]), filterMap_cons_some hw,
            filterMap_cons_some hw, ih]
          split_ifs <;> simp [hnot]
        | some e =>
          have he : e = cell.element :=
            (removed_element hrmv).symm.trans (cell.write_element op w hw)
          subst he
          have hisDrop : w.isDrop = true := hdrop.mpr hrmv
          rw [filterMap_cons_some hw]
          cases hadded : added.contains cell.element with
          | true =>
            rw [filter_cons_of_neg (by simp only [survives, hrmv, hadded]; simp), ih, hadded]
            simp [hisDrop]
          | false =>
            rw [filter_cons_of_pos (by simp only [survives, hrmv, hadded]; rfl),
              filterMap_cons_some hw, ih, hadded]
            simp
  rw [collapse, hscan, added_contains, Write.settle]

theorem disappears_of_withdraws_eq_false
    (hch : ∀ id old, version.1.channels.get? id = some old →
      disappears sameChannelScope (fun channel => see.sees channel.scope)
        ((channelCell id).step version) = false)
    (huser : ∀ session old, version.1.users.get? session = some old →
      disappears sameUserScope (fun user => see.sees user.scope)
        ((userCell session).step version) = false) :
    Lag.withdraws see version = false := by
  rw [Lag.withdraws, Bool.or_eq_false_iff, any_eq_false, any_eq_false]
  constructor
  · intro old hold
    have h := hch old.id old (get?_of_mem hold)
    rw [step, channelCell] at h
    simpa [get?_of_mem hold] using h
  · intro old hold
    have h := huser old.session old (get?_of_mem hold)
    rw [step, userCell] at h
    simpa [get?_of_mem hold] using h

theorem removals_eq_nil_iff (see : ScopeSet) (version : Version) :
    Plan.kept see.sees (Plan.removals version.1 version.2) = [] ↔
      Lag.withdraws see version = false := by
  constructor
  · intro h
    have hnone : ∀ {α δ φ : Type} (cell : Cell α δ φ),
        disappears cell.same (cell.seen see) (cell.step version) = false := by
      intro α δ φ cell
      have hdep := cell.removals see.sees version.1 version.2
      rw [h, departures] at hdep
      by_contra hdis
      rw [step] at hdis
      simp [hdis] at hdep
    exact disappears_of_withdraws_eq_false (fun id _ _ => hnone (channelCell id))
      (fun session _ _ => hnone (userCell session))
  · intro h
    rw [Lag.withdraws, Bool.or_eq_false_iff, any_eq_false, any_eq_false] at h
    have hnone : ∀ {α δ φ : Type} (cell : Cell α δ φ),
        disappears cell.same (cell.seen see) (cell.step version) = false →
        (Plan.kept see.sees (Plan.removals version.1 version.2)).filterMap cell.write = [] := by
      intro α δ φ cell hdis
      rw [cell.removals, departures, ← step, hdis]
      rfl
    rw [eq_nil_iff_forall_not_mem]
    intro op hop
    have hremoval := isRemoval_removals hop
    cases op with
    | removeChannel id =>
      have hwrites := hnone (channelCell id) (by
        cases hold : version.1.channels.get? id with
        | none => simp [step, channelCell, hold, disappears]
        | some old =>
          have hid : old.id = id := key_of_get? hold
          simpa [step, channelCell, hold, hid] using h.1 old (mem_of_get? hold))
      rw [filterMap_eq_nil_iff] at hwrites
      simpa [channelCell, PlanOp.channelWrite] using hwrites _ hop
    | removeUser session =>
      have hwrites := hnone (userCell session) (by
        cases hold : version.1.users.get? session with
        | none => simp [step, userCell, hold, disappears]
        | some old =>
          have hid : old.session = session := key_of_get? hold
          simpa [step, userCell, hold, hid] using h.2 old (mem_of_get? hold))
      rw [filterMap_eq_nil_iff] at hwrites
      simpa [userCell, PlanOp.userWrite] using hwrites _ hop
    | _ => cases hremoval

end Cell

namespace Lag

theorem shared_cons (see : ScopeSet) (version : Version) (rest : List Version) :
    shared see (version :: rest) =
      kept see.sees (additions version.1 version.2) ++
        (kept see.sees (removals version.1 version.2) ++ shared see rest) := by
  rw [shared, flatMap_cons, plan_eq, ← append_assoc]
  simp [kept, shared]

theorem additions_stay : ∀ op ∈ kept see.sees
    (additions version.1 version.2), (!op.isRemoval) = true :=
  fun op hop => by simp [isRemoval_additions hop]

theorem removals_head (hw : withdraws see version = true) :
    ∃ op ops, kept see.sees (removals version.1 version.2) = op :: ops ∧
      op.isRemoval = true := by
  cases hrem : kept see.sees (removals version.1 version.2) with
  | nil =>
    rw [(Cell.removals_eq_nil_iff see version).mp hrem] at hw
    cases hw
  | cons op ops => exact ⟨op, ops, rfl, isRemoval_removals (hrem ▸ mem_cons_self)⟩

theorem takeWhile_shared (see : ScopeSet) (versions : List Version) :
    (shared see versions).takeWhile (fun op => !op.isRemoval) =
      (front see versions).flatMap fun version =>
        kept see.sees (additions version.1 version.2) := by
  induction versions with
  | nil => rfl
  | cons version rest ih =>
    rw [shared_cons, takeWhile_append_of_pos additions_stay, front]
    cases hw : withdraws see version with
    | false => simp [(Cell.removals_eq_nil_iff see version).mpr hw, ih]
    | true =>
      obtain ⟨op, ops, hrem, hop⟩ := removals_head hw
      simp [hrem, hop]

theorem dropWhile_shared_cons (see : ScopeSet) (version : Version) (rest : List Version) :
    (shared see (version :: rest)).dropWhile (fun op => !op.isRemoval) =
      if withdraws see version then
        kept see.sees (removals version.1 version.2) ++ shared see rest
      else (shared see rest).dropWhile (fun op => !op.isRemoval) := by
  rw [shared_cons, dropWhile_append_of_pos additions_stay]
  cases hw : withdraws see version with
  | false => simp [(Cell.removals_eq_nil_iff see version).mpr hw]
  | true =>
    obtain ⟨op, ops, hrem, hop⟩ := removals_head hw
    simp [hrem, hop]

end Lag

namespace Cell

variable {α δ φ : Type} (cell : Cell α δ φ)

theorem disappears_of_withdraws (h : Lag.withdraws see version = false) :
    disappears cell.same (cell.seen see) (cell.step version) = false := by
  have hdep := cell.removals see.sees version.1 version.2
  rw [(removals_eq_nil_iff see version).mpr h, ← step, departures] at hdep
  cases hdis : disappears cell.same (cell.seen see) (cell.step version) with
  | false => rfl
  | true => simp [hdis] at hdep

theorem shared_writes (see : ScopeSet) (versions : List Version) :
    ((Lag.shared see versions).filterMap cell.write).filter (fun w => !w.isDrop) =
        (versions.map cell.step).flatMap (cell.diff.arrivals cell.same (cell.seen see)) ∧
      ((Lag.shared see versions).filterMap cell.write).any Write.isDrop =
        (versions.map cell.step).any (disappears cell.same (cell.seen see)) := by
  induction versions with
  | nil => exact ⟨rfl, rfl⟩
  | cons version rest ih =>
    rw [Lag.shared] at ih
    simp only [Lag.shared, flatMap_cons, filterMap_append, plan_writes,
      List.filter_append, filter_arrivals, filter_departures, append_nil, any_append,
      arrivals_isDrop, departures_isDrop, Bool.false_or, map_cons, any_cons]
    exact ⟨by rw [ih.1], by rw [ih.2]⟩

theorem dropWhile_writes (see : ScopeSet) (versions : List Version) :
    (((Lag.shared see versions).dropWhile fun op => !op.isRemoval).filterMap cell.write).filter
        (fun w => !w.isDrop) =
        ((Lag.back see versions).map cell.step).flatMap
          (cell.diff.arrivals cell.same (cell.seen see)) ∧
      (((Lag.shared see versions).dropWhile fun op => !op.isRemoval).filterMap cell.write).any
        Write.isDrop =
        (versions.map cell.step).any (disappears cell.same (cell.seen see)) := by
  induction versions with
  | nil => exact ⟨rfl, rfl⟩
  | cons version rest ih =>
    rw [Lag.dropWhile_shared_cons, Lag.back]
    cases hw : Lag.withdraws see version with
    | false =>
      rw [map_cons, any_cons, cell.disappears_of_withdraws hw]
      exact ih
    | true =>
      obtain ⟨hkept, hdrp⟩ := cell.shared_writes see rest
      simp only [if_true, filterMap_append, cell.removals, List.filter_append,
        filter_departures, nil_append, any_append, departures_isDrop,
        map_cons,
        any_cons]
      exact ⟨hkept, by rw [hdrp]; rfl⟩

theorem spliced (see : ScopeSet) (versions : List Version) (sent fresh : Overlay) :
    cell.diff.Spliced cell.same (cell.seen see)
      ((Lag.front see versions).map cell.step) ((Lag.back see versions).map cell.step)
      (cell.inOverlay sent, cell.inOverlay fresh)
      ((splice (Lag.shared see versions) (planElements sent fresh)).filterMap cell.write) := by
  obtain ⟨hkept, hdrp⟩ := cell.dropWhile_writes see versions
  have hfront : (((Lag.front see versions).flatMap fun version =>
      Plan.kept see.sees (Plan.additions version.1 version.2)).filterMap cell.write) =
      ((Lag.front see versions).map cell.step).flatMap
        (cell.diff.arrivals cell.same (cell.seen see)) := by
    rw [filterMap_flatMap, flatMap_map]
    simp only [cell.additions, step]
  have hnodrop : ∀ steps : List (Option α × Option α), (steps.flatMap
      (cell.diff.arrivals cell.same (cell.seen see))).any Write.isDrop = false := by
    intro steps
    simp only [any_flatMap, arrivals_isDrop]
    simp
  constructor
  · rw [splice, Lag.takeWhile_shared]
    simp only [filterMap_append, List.filter_append, cell.overlayRemovals,
      cell.overlayAdditions, filter_departures, filter_arrivals, hkept, hfront,
      append_nil]
    congr 2
    rw [List.filter_eq_self]
    intro w hw
    simpa using any_eq_false.mp (hnodrop _) w hw
  · rw [splice, Lag.takeWhile_shared, ← map_append, Lag.front_append_back]
    simp only [filterMap_append, any_append, cell.overlayRemovals,
      cell.overlayAdditions, departures_isDrop, arrivals_isDrop, hdrp, hfront, hnodrop,
      Bool.false_or, Bool.or_false]
    exact Bool.or_comm _ _

end Cell

end MumbleRuntime
