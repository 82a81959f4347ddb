import MumbleRuntime.PlanSchedule
import MumbleRuntime.Composed

/-!
# What a client holds on the way from one overlay to another

While the shared view stays, the operations between two overlays of a connection
are withdrawals, users before channels and channels deepest first, then creations
in the order of their ids, then patches and users. A user that stays is moved out
of a channel only after that channel was withdrawn, and the parents of created
channels are not looked for. The operations are welcome one by one exactly when
nothing that stays is in a withdrawn channel, no withdrawn channel is its own
ancestor, and a created parent has the smaller id.
-/

namespace MumbleRuntime
open Library Forest ShardView Plan PlanOp Compose List ClientModel
open Table hiding contains

namespace ClientModel

/-- The parent of a new channel and the channel a user is put in are held, and a
channel that goes holds neither a user nor a channel. -/
def Welcomes (client : ClientModel) : PlanOp → Prop
  | .createChannel channel => client.channels.contains channel.parent = true
  | .addUser user => client.channels.contains user.channel = true
  | .moveUser _ channel => client.channels.contains channel = true
  | .removeChannel id => client.forest.Vacant id
  | _ => True

def Greets (client : ClientModel) : List PlanOp → Prop
  | [] => True
  | op :: rest => client.Welcomes op ∧ (client.applyOp op).Greets rest

theorem greets_iff {client : ClientModel} {ops : List PlanOp} :
    client.Greets ops ↔
      ∀ done op rest, ops = done ++ op :: rest → (client.applyOps done).Welcomes op := by
  induction ops generalizing client with
  | nil => simp [Greets]
  | cons first more ih =>
    rw [Greets, ih]
    constructor
    · rintro ⟨hfst, hmore⟩ done op rest hspl
      rcases cons_eq_append_iff.mp hspl with ⟨rfl, hhead⟩ | ⟨later, rfl, hlat⟩
      · obtain ⟨rfl, -⟩ := cons.inj hhead
        exact hfst
      · exact hmore later op rest hlat
    · intro hall
      refine ⟨hall [] first more rfl, fun done op rest hspl => ?_⟩
      exact hall (first :: done) op rest (by rw [hspl]; rfl)

end ClientModel

namespace Overlay

def Drops (sent fresh : Overlay) (id : ChannelId) : Prop :=
  sent.channels.contains id = true ∧ fresh.channels.contains id = false

def Gains (sent fresh : Overlay) (id : ChannelId) : Prop :=
  sent.channels.contains id = false ∧ fresh.channels.contains id = true

def has (overlay : Overlay) : ElementId → Bool
  | .channel id => overlay.channels.contains id
  | .user session => overlay.users.contains session

/-- Nothing that stays is in a channel that goes, no channel that goes is its own
ancestor, and a created parent has the smaller id. -/
structure GivesWay (base : ShardView) (sent fresh : Overlay) : Prop where
  user : ∀ session user, (base.compose sent).users.get? session = some user →
    (base.compose fresh).users.contains session = true → ¬sent.Drops fresh user.channel
  channel : ∀ id p, (base.compose sent).above id = some p →
    (base.compose fresh).channels.contains id = true → ¬sent.Drops fresh p
  circle : ∀ id, sent.Drops fresh id → ∀ n, 0 < n → walk (base.compose sent).above n id ≠ some id
  created : ∀ id channel, fresh.channels.get? id = some channel →
    sent.channels.contains id = false → sent.Gains fresh channel.parent → channel.parent < id

/-- What the closing checks make of an overlay, against what its connection sees
of the view. -/
structure Fits (base : ShardView) (overlay : Overlay) : Prop where
  channel : ∀ id, overlay.channels.contains id = true → base.channels.get? id = none
  user : ∀ session user, overlay.users.get? session = some user →
    base.users.get? session = none
  place : ∀ session user, overlay.users.get? session = some user →
    overlay.channels.contains user.channel = true ∨ base.channels.contains user.channel = true
  parent : ∀ id channel, overlay.channels.get? id = some channel →
    overlay.channels.contains channel.parent = true ∨ base.channels.contains channel.parent = true
  root : overlay.channels.get? rootChannel = none

/-- A connection's overlay in a render that `finish` accepted, with the view and
what the connection observed. -/
def AcceptedWith (connection : ConnectionId) (see : ScopeSet) (view : ShardView)
    (overlay : Overlay) : Prop :=
  ∃ (ids : IdAllocator) (shard : ShardId) (calls : List BuildCall) (observations : Observations)
    (rendered : Rendered),
    HandlesIssued (fun builder call => (builder.call call).1) (ShardBuilder.new ids shard) [] calls ∧
      ((ShardBuilder.new ids shard).render calls).finish observations = .ok rendered ∧
      observations connection = some see ∧ rendered.view = view ∧
      rendered.overlayOf connection = overlay

theorem AcceptedWith.fits {connection : ConnectionId} {see : ScopeSet} {view : ShardView}
    {overlay : Overlay} (h : AcceptedWith connection see view overlay) :
    overlay.Fits (view.restrict see) := by
  obtain ⟨ids, shard, calls, observations, rendered, hiss, hok, hsee, rfl, rfl⟩ := h
  obtain ⟨apart, hsnd⟩ := sound_of_render hiss hok hsee
  have hnone : ∀ id, rendered.view.channels.get? id = none →
      (rendered.view.restrict see).channels.get? id = none := by
    intro id hget
    simp [restrict, hget]
  have hheld : ∀ id, ((rendered.overlayOf connection).channels.contains id = true ∨
      ∃ channel, rendered.view.channels.get? id = some channel ∧ see.sees channel.scope = true) →
      (rendered.overlayOf connection).channels.contains id = true ∨
        (rendered.view.restrict see).channels.contains id = true := by
    rintro id (hpriv | ⟨channel, hget, hsees⟩)
    · exact .inl hpriv
    · refine .inr (contains_iff.mpr ⟨channel, ?_⟩)
      simp [restrict, hget, Option.filter_some, hsees]
  refine ⟨fun id hid => hnone id (hsnd.disjoint id hid), fun session user hget => ?_,
    fun session user hget => hheld _ (hsnd.reference _ (.inl ⟨session, user, hget, rfl⟩)),
    fun id channel hget => hheld _ (hsnd.reference _ (.inr ⟨id, channel, hget, rfl⟩)), ?_⟩
  · simp [restrict, hsnd.disjointUser session user hget]
  · obtain ⟨root, hroot, -⟩ := hsnd.root
    rw [← contains_eq_false_iff]
    by_contra htrue
    rw [hsnd.disjoint rootChannel (by simpa using htrue)] at hroot
    cases hroot

end Overlay

namespace Plan

section Depth

variable {channels : Channels}

/-- One step of the walk of `overlayDepth`. -/
def within (channels : Channels) (id : ChannelId) : Option ChannelId :=
  (channels.get? id).bind fun entry => if entry.parent = id then none else some entry.parent

theorem overlayDepthFrom_forget (fuel : ℕ) {met : List ChannelId} {m k : ChannelId}
    (h : ∀ i, walk (within channels) i k ≠ some m) :
    overlayDepthFrom channels fuel (met ++ [m]) k = overlayDepthFrom channels fuel met k := by
  induction fuel generalizing met k with
  | zero => rfl
  | succ fuel ih =>
    have hne : k ≠ m := fun heq => h 0 (by rw [heq]; rfl)
    have hctn : (met ++ [m]).contains k = met.contains k := by simp [hne]
    rw [overlayDepthFrom, overlayDepthFrom, hctn]
    split_ifs with hmet
    · rfl
    · cases hget : channels.get? k with
      | none => rfl
      | some entry =>
        by_cases hself : entry.parent = k
        · simp only [hself, if_true]
        · have hstep : within channels k = some entry.parent := by simp [within, hget, hself]
          have hrest := @ih (k :: met) entry.parent fun i hi =>
            h (i + 1) (by simpa only [walk, hstep, Option.bind_some] using hi)
          simp only [hself, if_false]
          rw [← hrest]
          rfl

theorem overlayDepthFrom_stable (fuel : ℕ) {met : List ChannelId} {k : ChannelId}
    (h : (channels.rows.filter fun channel => !met.contains channel.id).length ≤ fuel) :
    overlayDepthFrom channels (fuel + 1) met k = overlayDepthFrom channels fuel met k := by
  induction fuel generalizing met k with
  | zero =>
    rw [overlayDepthFrom, overlayDepthFrom]
    split_ifs with hmet
    · rfl
    · cases hget : channels.get? k with
      | none => rfl
      | some entry =>
        have hin : entry ∈ channels.rows.filter fun channel => !met.contains channel.id := by
          refine mem_filter.mpr ⟨mem_of_get? hget, ?_⟩
          rw [key_of_get? hget]
          simpa using hmet
        rw [length_eq_zero_iff.mp (Nat.le_zero.mp h)] at hin
        cases hin
  | succ fuel ih =>
    rw [overlayDepthFrom, overlayDepthFrom]
    split_ifs with hmet
    · rfl
    · cases hget : channels.get? k with
      | none => rfl
      | some entry =>
        have hfilter : (channels.rows.filter fun channel => !(k :: met).contains channel.id) =
            (channels.rows.filter fun channel => !met.contains channel.id).filter
              fun channel => channel.id ≠ k := by
          rw [filter_filter]
          refine filter_congr fun channel _ => ?_
          by_cases hid : channel.id = k <;> simp [hid]
        have hless : (channels.rows.filter fun channel => !(k :: met).contains channel.id).length <
            (channels.rows.filter fun channel => !met.contains channel.id).length := by
          rw [hfilter]
          refine length_filter_lt_length_iff_exists.mpr ⟨entry, ?_, ?_⟩
          · refine mem_filter.mpr ⟨mem_of_get? hget, ?_⟩
            rw [key_of_get? hget]
            simpa using hmet
          · simpa using key_of_get? hget
        simp only
        rw [ih (by omega)]

theorem overlayDepth_of_within {m n : ChannelId} (h : within channels m = some n)
    (hcircle : ∀ i, walk (within channels) i n ≠ some m) :
    overlayDepth channels m = overlayDepth channels n + 1 := by
  obtain ⟨entry, hget, hpar⟩ := Option.bind_eq_some_iff.mp h
  split_ifs at hpar with hself
  obtain rfl := Option.some.inj hpar
  have hforget := @overlayDepthFrom_forget channels channels.rows.length [] m entry.parent hcircle
  have hstable := @overlayDepthFrom_stable channels channels.rows.length [] entry.parent (by simp)
  rw [overlayDepth, overlayDepth, hstable, ← hforget, overlayDepthFrom]
  simp [hget, hself]

end Depth

theorem orderCreations_of_no_self {created : List Channel}
    (h : ∀ channel ∈ created, channel.parent ≠ channel.id) :
    orderCreations created empty = created := by
  have hplace : ∀ remaining : List Channel, (∀ channel ∈ remaining, channel.parent ≠ channel.id) →
      placeCreations Table.empty remaining = (Table.empty, [], remaining) := by
    intro remaining hall
    induction remaining with
    | nil => rfl
    | cons channel rest ih =>
      have hself := hall channel mem_cons_self
      have hrest := ih fun other hoth => hall other (mem_cons_of_mem _ hoth)
      simp [placeCreations, hself, hrest]
  cases created with
  | nil => rfl
  | cons channel rest =>
    change orderCreationsFrom (rest.length + 1) empty (channel :: rest) = channel :: rest
    rw [orderCreationsFrom, hplace _ h]

variable {sent fresh : Overlay}

variable {op : PlanOp}

theorem mem_overlayUserRemovals :
    op ∈ overlayUserRemovals sent fresh ↔ ∃ session, op = .removeUser session ∧
      sent.users.contains session = true ∧ fresh.users.contains session = false :=
  mem_gone_iff

def dropped (sent fresh : Overlay) : List ChannelId :=
  (overlayChannelRemovals sent fresh).insertionSort (deeperFirst (overlayDepth sent.channels))

theorem mem_dropped {id : ChannelId} : id ∈ dropped sent fresh ↔ sent.Drops fresh id := by
  rw [dropped, mem_insertionSort, overlayChannelRemovals]
  refine (mem_gone_iff (f := fun id => id)).trans ?_
  rw [exists_eq_left']
  rfl

theorem mem_overlayCreated {channel : Channel} :
    channel ∈ overlayCreated sent fresh ↔
      fresh.channels.get? channel.id = some channel ∧
        sent.channels.contains channel.id = false := by
  rw [overlayCreated, mem_filter, Bool.not_eq_true']
  exact and_congr_left fun _ => mem_rows_iff

theorem of_mem_overlayUpdated (h : op ∈ overlayUpdated sent fresh) :
    ∃ old new, op = .updateChannel (channelPatch old new) ∧
      fresh.channels.get? new.id = some new ∧ sent.channels.get? new.id = some old := by
  obtain ⟨new, hnew, hpick⟩ := mem_filterMap.mp h
  cases hold : sent.channels.get? new.id with
  | none => simp [hold] at hpick
  | some old =>
    simp only [hold] at hpick
    split_ifs at hpick
    cases hpick
    exact ⟨old, new, rfl, get?_of_mem hnew, hold⟩

theorem of_mem_overlayUsers (h : op ∈ overlayUsers sent fresh) :
    ∃ new, fresh.users.get? new.session = some new ∧
      (op = .addUser new ∨
        (op = .moveUser new.session new.channel ∧ sent.users.contains new.session = true) ∨
        ∃ patch, op = .updateUser patch) := by
  obtain ⟨new, hnew, hpick⟩ := mem_flatMap.mp h
  refine ⟨new, get?_of_mem hnew, ?_⟩
  cases hold : sent.users.get? new.session with
  | none =>
    simp only [hold, mem_singleton] at hpick
    exact .inl hpick
  | some old =>
    simp only [hold] at hpick
    rcases mem_append.mp hpick with hmove | hpatch
    · split_ifs at hmove
      · cases hmove
      · rw [mem_singleton] at hmove
        exact .inr (.inl ⟨hmove, contains_iff.mpr ⟨old, hold⟩⟩)
    · split_ifs at hpatch
      · cases hpatch
      · rw [mem_singleton] at hpatch
        exact .inr (.inr ⟨_, hpatch⟩)

/-- The operations on the way: who leaves, what goes, what comes, and the rest. -/
def overlayWay (sent fresh : Overlay) : List PlanOp :=
  overlayUserRemovals sent fresh ++ ((dropped sent fresh).map .removeChannel ++
    ((orderCreations (overlayCreated sent fresh) Table.empty).map .createChannel ++
      (overlayUpdated sent fresh ++ overlayUsers sent fresh)))

theorem overlayWay_cases (h : op ∈ overlayWay sent fresh) :
    (∃ session, op = .removeUser session ∧ sent.users.contains session = true ∧
      fresh.users.contains session = false) ∨
    (∃ id, op = .removeChannel id ∧ sent.Drops fresh id) ∨
    (∃ channel, op = .createChannel channel ∧ fresh.channels.get? channel.id = some channel ∧
      sent.channels.contains channel.id = false) ∨
    (∃ old new, op = .updateChannel (channelPatch old new) ∧
      fresh.channels.get? new.id = some new ∧ sent.channels.get? new.id = some old) ∨
    op ∈ overlayUsers sent fresh := by
  simp only [overlayWay, mem_append, mem_map] at h
  rcases h with hleave | ⟨id, hdrop, rfl⟩ | ⟨channel, hch, rfl⟩ | hpatch | huser
  · exact .inl (mem_overlayUserRemovals.mp hleave)
  · exact .inr (.inl ⟨id, rfl, mem_dropped.mp hdrop⟩)
  · refine .inr (.inr (.inl ⟨channel, rfl, ?_⟩))
    exact mem_overlayCreated.mp ((orderCreations_perm _ _).mem_iff.mp hch)
  · exact .inr (.inr (.inr (.inl (of_mem_overlayUpdated hpatch))))
  · exact .inr (.inr (.inr (.inr huser)))

theorem fresh_of_added (h : op ∈ overlayWay sent fresh) {e : ElementId}
    (hadded : op.added = some e) : fresh.has e = true := by
  rcases overlayWay_cases h with ⟨session, rfl, -⟩ | ⟨id, rfl, -⟩ | ⟨channel, rfl, hget, -⟩ |
    ⟨old, new, rfl, -⟩ | huser
  · cases hadded
  · cases hadded
  · cases hadded
    exact contains_iff.mpr ⟨channel, hget⟩
  · cases hadded
  · obtain ⟨new, hnew, rfl | ⟨rfl, -⟩ | ⟨patch, rfl⟩⟩ := of_mem_overlayUsers huser
    · cases hadded
      exact contains_iff.mpr ⟨new, hnew⟩
    · cases hadded
    · cases hadded

theorem fresh_of_removed (h : op ∈ overlayWay sent fresh) {e : ElementId}
    (hrmv : op.removed = some e) : fresh.has e = false := by
  rcases overlayWay_cases h with ⟨session, rfl, -, hgone⟩ | ⟨id, rfl, hdrops⟩ | ⟨channel, rfl, -⟩ |
    ⟨old, new, rfl, -⟩ | huser
  · cases hrmv
    exact hgone
  · cases hrmv
    exact hdrops.2
  · cases hrmv
  · cases hrmv
  · obtain ⟨new, -, rfl | ⟨rfl, -⟩ | ⟨patch, rfl⟩⟩ := of_mem_overlayUsers huser <;> cases hrmv

theorem splice_nil_eq (sent fresh : Overlay) :
    collapse (splice [] (planElements sent fresh)) = overlayWay sent fresh := by
  have hsplice : splice [] (planElements sent fresh) = overlayWay sent fresh := by
    simp [splice, planElements, overlayWay, dropped]
  rw [collapse, hsplice]
  refine filter_eq_self.mpr fun op hop => ?_
  rw [survives]
  cases hrmv : op.removed with
  | none => rfl
  | some e =>
    have hnot : e ∉ (overlayWay sent fresh).filterMap added := by
      intro hin
      obtain ⟨other, hoth, hadded⟩ := mem_filterMap.mp hin
      have hhas := fresh_of_added hoth hadded
      rw [fresh_of_removed hop hrmv] at hhas
      cases hhas
    simpa using hnot

end Plan

variable {session : SessionId}

namespace Overlay

def around (base : ShardView) (overlay : Overlay) : Forest ChannelId SessionId :=
  (base.compose overlay).shown.forest

variable {base : ShardView} {overlay : Overlay} {id : ChannelId}

theorem compose_channel :
    (base.compose overlay).channels.get? id =
      (overlay.channels.get? id).or (base.channels.get? id) :=
  get?_extend ..

theorem compose_user :
    (base.compose overlay).users.get? session =
      (overlay.users.get? session).or (base.users.get? session) :=
  get?_extend ..

theorem compose_contains :
    (base.compose overlay).channels.contains id =
      (overlay.channels.contains id || base.channels.contains id) := by
  rw [Table.contains, compose_channel, Option.isSome_or]
  rfl

theorem around_isSome :
    ((overlay.around base).parent id).isSome =
      (overlay.channels.contains id || base.channels.contains id) := by
  rw [around, forest_shown_isSome, compose_contains]

section Way

variable {base : ShardView} {sent fresh : Overlay} (hsent : sent.Fits base)
  (hfr : fresh.Fits base)

theorem around_parent {overlay : Overlay} {channel : Channel}
    (h : overlay.channels.get? channel.id = some channel) :
    (overlay.around base).parent channel.id = some channel.shown.parent := by
  rw [around, forest_shown_parent, compose_channel, h]
  rfl

theorem around_place {overlay : Overlay} {user : User}
    (h : overlay.users.get? session = some user) :
    (overlay.around base).place session = some user.channel := by
  rw [around, forest_shown_place, compose_user, h]
  rfl

include hsent in
theorem around_of_drops {id : ChannelId} (h : sent.Drops fresh id) :
    (fresh.around base).parent id = none := by
  rw [← Option.not_isSome_iff_eq_none, around_isSome, h.2,
    contains_eq_false_iff.mpr (hsent.channel id h.1)]
  exact Bool.false_ne_true

include hsent in
theorem around_of_leave (hthr : sent.users.contains session = true)
    (hgone : fresh.users.contains session = false) :
    (fresh.around base).place session = none := by
  obtain ⟨user, huser⟩ := contains_iff.mp hthr
  rw [around, forest_shown_place, compose_user, contains_eq_false_iff.mp hgone,
    hsent.user session user huser]
  rfl

include hsent in
theorem settles_overlayWay {op : PlanOp} (h : op ∈ overlayWay sent fresh) :
    op.Settles (sent.around base) (fresh.around base) := by
  rcases overlayWay_cases h with ⟨session, rfl, hthr, hgone⟩ | ⟨id, rfl, hdrops⟩ |
    ⟨channel, rfl, hget, -⟩ | ⟨old, new, rfl, hget, hold⟩ | huser
  · exact settles_leave (around_of_leave hsent hthr hgone)
  · exact settles_drop (around_of_drops hsent hdrops)
  · exact settles_create (around_parent hget)
  · have hid : old.id = new.id := key_of_get? hold
    rw [← hid] at hold
    have hpar := @around_parent base sent old hold
    rw [hid] at hpar
    exact settles_update hid hpar (around_parent hget)
  · obtain ⟨new, hnew, rfl | ⟨rfl, hthr⟩ | ⟨patch, rfl⟩⟩ := of_mem_overlayUsers huser
    · exact settles_add (around_place hnew)
    · obtain ⟨old, hold⟩ := contains_iff.mp hthr
      exact settles_move (around_place hold) (around_place hnew)
    · exact settles_updateUser

variable {done rest : List PlanOp}

include hsent in
theorem forest_on_way (h : overlayWay sent fresh = done ++ rest) :
    ((base.compose sent).shown.applyOps done).forest =
      mix (sent.around base) (fresh.around base) (done.filterMap site) := by
  have hstart : (base.compose sent).shown.forest =
      mix (sent.around base) (fresh.around base) [] := by simp [mix, around]
  rw [forest_applyOps_mix hstart, nil_append]
  intro op hop
  exact settles_overlayWay hsent (by rw [h]; exact mem_append_left _ hop)

def goings (sent fresh : Overlay) (first : List ChannelId) : List PlanOp :=
  Plan.overlayUserRemovals sent fresh ++ first.map PlanOp.removeChannel

theorem way_at_drop {n : ChannelId} (h : overlayWay sent fresh = done ++ .removeChannel n :: rest) :
    ∃ first last, dropped sent fresh = first ++ n :: last ∧
      done = goings sent fresh first := by
  obtain ⟨later, rfl, hlat⟩ := append_of_notMem h (by
    intro hin
    obtain ⟨session, heq, -⟩ := mem_overlayUserRemovals.mp hin
    cases heq)
  obtain ⟨left, hleft⟩ := append_of_notMem_right hlat (by
    simp only [mem_append, mem_map]
    rintro (⟨channel, -, heq⟩ | hpatch | huser)
    · cases heq
    · obtain ⟨old, new, heq, -⟩ := of_mem_overlayUpdated hpatch
      cases heq
    · obtain ⟨new, -, heq | ⟨heq, -⟩ | ⟨patch, heq⟩⟩ := of_mem_overlayUsers huser <;> cases heq)
  obtain ⟨first, tail, hdrp, rfl, htail⟩ := map_eq_append_iff.mp hleft
  obtain ⟨m, last, rfl, hm, -⟩ := map_eq_cons_iff.mp htail
  cases hm
  exact ⟨first, last, hdrp, rfl⟩

theorem way_at_create {channel : Channel}
    (h : overlayWay sent fresh = done ++ .createChannel channel :: rest) :
    ∃ first last, orderCreations (overlayCreated sent fresh) Table.empty =
        first ++ channel :: last ∧
      done = goings sent fresh (dropped sent fresh) ++ first.map .createChannel := by
  obtain ⟨later, rfl, hlat⟩ := append_of_notMem h (by
    intro hin
    obtain ⟨session, heq, -⟩ := mem_overlayUserRemovals.mp hin
    cases heq)
  obtain ⟨created, rfl, hcre⟩ := append_of_notMem hlat (by simp)
  obtain ⟨left, hleft⟩ := append_of_notMem_right hcre (by
    simp only [mem_append]
    rintro (hpatch | huser)
    · obtain ⟨old, new, heq, -⟩ := of_mem_overlayUpdated hpatch
      cases heq
    · obtain ⟨new, -, heq | ⟨heq, -⟩ | ⟨patch, heq⟩⟩ := of_mem_overlayUsers huser <;> cases heq)
  obtain ⟨first, tail, horder, rfl, htail⟩ := map_eq_append_iff.mp hleft
  obtain ⟨other, last, rfl, hoth, -⟩ := map_eq_cons_iff.mp htail
  cases hoth
  exact ⟨first, last, horder, by rw [goings, append_assoc]⟩

variable {first : List ChannelId}

theorem mem_goings_user :
    Sum.inr session ∈ (goings sent fresh first).filterMap site ↔
      sent.users.contains session = true ∧ fresh.users.contains session = false := by
  rw [mem_filterMap]
  constructor
  · rintro ⟨op, hop, hsite⟩
    rcases mem_append.mp hop with hleave | hdrop
    · obtain ⟨other, rfl, hboth⟩ := mem_overlayUserRemovals.mp hleave
      cases hsite
      exact hboth
    · obtain ⟨m, -, rfl⟩ := mem_map.mp hdrop
      cases hsite
  · intro hboth
    exact ⟨.removeUser session, mem_append_left _
      (mem_overlayUserRemovals.mpr ⟨session, rfl, hboth⟩), rfl⟩

theorem mem_goings_channel {m : ChannelId} :
    Sum.inl m ∈ (goings sent fresh first).filterMap site ↔ m ∈ first := by
  rw [mem_filterMap]
  constructor
  · rintro ⟨op, hop, hsite⟩
    rcases mem_append.mp hop with hleave | hdrop
    · obtain ⟨other, rfl, -⟩ := mem_overlayUserRemovals.mp hleave
      cases hsite
    · obtain ⟨other, hoth, rfl⟩ := mem_map.mp hdrop
      cases hsite
      exact hoth
  · intro hm
    exact ⟨.removeChannel m, mem_append_right _ (mem_map_of_mem hm), rfl⟩

include hsent in
theorem vacant_on_way_iff (hfst : ∀ m ∈ first, sent.Drops fresh m) {n : ChannelId} :
    (mix (sent.around base) (fresh.around base)
        ((goings sent fresh first).filterMap site)).Vacant n ↔
      (∀ session user, (base.compose sent).users.get? session = some user →
        (base.compose fresh).users.contains session = true → user.channel ≠ n) ∧
      ∀ m, m ∉ first → (base.compose sent).above m ≠ some n := by
  have habove : (sent.around base).up = (base.compose sent).above := forest_shown_up _
  constructor
  · rintro ⟨hresident, hchild⟩
    refine ⟨fun session user hget hstays heq => ?_, fun m hm hup => ?_⟩
    · refine hresident session ?_
      rw [mix_place_of_notMem]
      · rw [around, forest_shown_place, hget, ← heq]
        rfl
      · rw [mem_goings_user]
        rintro ⟨hthr, hgone⟩
        have hnone := around_of_leave hsent hthr hgone
        rw [around, forest_shown_place, Option.map_eq_none_iff] at hnone
        rw [Table.contains, hnone] at hstays
        cases hstays
    · refine hchild m ?_
      rw [up_of_parent_eq (mix_parent_of_notMem (by rwa [mem_goings_channel])), habove]
      exact hup
  · rintro ⟨hresident, hchild⟩
    refine ⟨fun session hheld => ?_, fun m hup => ?_⟩
    · by_cases hleft : sent.users.contains session = true ∧ fresh.users.contains session = false
      · rw [mix_place_of_mem (mem_goings_user.mpr hleft),
          around_of_leave hsent hleft.1 hleft.2] at hheld
        cases hheld
      · rw [mix_place_of_notMem (by rwa [mem_goings_user]), around, forest_shown_place] at hheld
        obtain ⟨user, hget, heq⟩ := Option.map_eq_some_iff.mp hheld
        refine hresident session user hget ?_ heq
        rw [Table.contains, compose_user, Option.isSome_or, Bool.or_eq_true]
        rw [compose_user] at hget
        cases hpriv : sent.users.get? session with
        | none =>
          rw [hpriv, Option.none_or] at hget
          exact .inr (by rw [hget]; rfl)
        | some other =>
          refine .inl ?_
          by_contra hnot
          exact hleft ⟨contains_iff.mpr ⟨other, hpriv⟩, Bool.eq_false_iff.mpr hnot⟩
    · by_cases hm : m ∈ first
      · rw [up_of_parent_eq (mix_parent_of_mem (mem_goings_channel.mpr hm)), up,
          around_of_drops hsent (hfst m hm)] at hup
        cases hup
      · rw [up_of_parent_eq (mix_parent_of_notMem (by rwa [mem_goings_channel])), habove] at hup
        exact hchild m hm hup

include hsent in
theorem contains_on_way (h : overlayWay sent fresh = done ++ rest) {id : ChannelId}
    (hbef : (base.compose sent).channels.contains id = true)
    (haft : (base.compose fresh).channels.contains id = true) :
    ((base.compose sent).shown.applyOps done).channels.contains id = true := by
  rw [← forest_isSome, forest_on_way hsent h]
  refine mix_isSome_of_both ?_ ?_
  · rw [around, forest_shown_isSome]
    exact hbef
  · rw [around, forest_shown_isSome]
    exact haft

include hsent in
theorem contains_of_came (h : overlayWay sent fresh = done ++ rest) {channel : Channel}
    (hcame : .createChannel channel ∈ done) :
    ((base.compose sent).shown.applyOps done).channels.contains channel.id = true := by
  have hway : .createChannel channel ∈ overlayWay sent fresh := by
    rw [h]
    exact mem_append_left _ hcame
  rw [← forest_isSome, forest_on_way hsent h, mix_parent_of_mem
    (mem_filterMap.mpr ⟨.createChannel channel, hcame, rfl⟩)]
  exact (settles_overlayWay hsent hway).stays channel.id rfl rfl

end Way

end Overlay

end MumbleRuntime
