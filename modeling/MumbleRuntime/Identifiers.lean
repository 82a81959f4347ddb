import MumbleRuntime.Ids

/-!
# Identifiers over the whole life of the allocator

Whatever the shards ask of one allocator, in whatever order: the numbers handed out
are those below the cursor, each of them to one identity. A mapping that was retired
is therefore never made again under its old number, and the allocator refuses only
once every number was used.
-/

namespace MumbleRuntime
open Library List Option

inductive IdCall
  | channel (shard : ShardId) (key : ChannelKey)
  | session (occupant : Occupant)
  | retainChannels (shard : ShardId) (retained : OrderedSet ChannelKey)
  | retireChannelIds (shard : ShardId) (retired : OrderedSet ChannelId)

inductive IdReply
  | channel (result : Except Exhausted ChannelId)
  | session (result : Except Exhausted SessionId)
  | done

def IdReply.exhausted : IdReply → Bool
  | .channel (.error _) | .session (.error _) => true
  | _ => false

variable {key : ChannelKey} {occupant : Occupant} {shard : ShardId}

namespace IdAllocator

variable {ids : IdAllocator}

def call (ids : IdAllocator) : IdCall → IdReply × IdAllocator
  | .channel shard key =>
    match ids.channel shard key with
    | .ok (id, ids') => (.channel (.ok id), ids')
    | .error error => (.channel (.error error), ids)
  | .session occupant =>
    match ids.session occupant with
    | .ok (id, ids') => (.session (.ok id), ids')
    | .error error => (.session (.error error), ids)
  | .retainChannels shard retained => (.done, ids.retainChannels shard retained)
  | .retireChannelIds shard retired => (.done, ids.retireChannelIds shard retired)

def after (ids : IdAllocator) (calls : List IdCall) : IdAllocator :=
  calls.foldl (fun ids call => (ids.call call).2) ids

def channelIssued (ids : IdAllocator) : IdCall → Option ((ShardId × ChannelKey) × ChannelId)
  | .channel shard key =>
    match ids.channel shard key with
    | .ok (id, _) => some ((shard, key), id)
    | .error _ => none
  | _ => none

def sessionIssued (ids : IdAllocator) : IdCall → Option (Occupant × SessionId)
  | .session occupant =>
    match ids.session occupant with
    | .ok (id, _) => some (occupant, id)
    | .error _ => none
  | _ => none

def channelsIssued (ids : IdAllocator) : List IdCall → List ((ShardId × ChannelKey) × ChannelId)
  | [] => []
  | call :: rest => (ids.channelIssued call).toList ++ (ids.call call).2.channelsIssued rest

def sessionsIssued (ids : IdAllocator) : List IdCall → List (Occupant × SessionId)
  | [] => []
  | call :: rest => (ids.sessionIssued call).toList ++ (ids.call call).2.sessionsIssued rest

inductive ChannelAsked (ids : IdAllocator) (shard : ShardId) (key : ChannelKey) :
    Except Exhausted (ChannelId × IdAllocator) → Prop
  | mapped {id : ChannelId} (hmapped : ids.channels shard key = some id) :
      ChannelAsked ids shard key (.ok (id, ids))
  | spent (hnone : ids.channels shard key = none) (hspent : ids.nextChannel = none) :
      ChannelAsked ids shard key (.error .channels)
  | fresh {raw : ℕ} (hnone : ids.channels shard key = none) (hnext : ids.nextChannel = some raw) :
      ChannelAsked ids shard key (.ok (raw, ids.allocateChannel shard key raw hnext))

theorem channel_asked (shard : ShardId) (key : ChannelKey) :
    ChannelAsked ids shard key (ids.channel shard key) := by
  unfold channel
  split
  · rename_i existing hexisting
    exact .mapped hexisting
  · rename_i hnone
    split
    · rename_i hspent
      exact .spent hnone hspent
    · rename_i raw hnext
      exact .fresh hnone hnext

inductive SessionAsked (ids : IdAllocator) (occupant : Occupant) :
    Except Exhausted (SessionId × IdAllocator) → Prop
  | mapped {id : SessionId} (hmapped : ids.sessions occupant = some id) :
      SessionAsked ids occupant (.ok (id, ids))
  | spent (hnone : ids.sessions occupant = none) (hspent : ids.nextSession = none) :
      SessionAsked ids occupant (.error .sessions)
  | fresh {raw : ℕ} (hnone : ids.sessions occupant = none) (hnext : ids.nextSession = some raw) :
      SessionAsked ids occupant (.ok (raw, ids.allocateSession occupant raw hnext))

theorem session_asked (occupant : Occupant) : SessionAsked ids occupant (ids.session occupant) := by
  unfold IdAllocator.session
  split
  · rename_i existing hexisting
    exact .mapped hexisting
  · rename_i hnone
    split
    · rename_i hspent
      exact .spent hnone hspent
    · rename_i raw hnext
      exact .fresh hnone hnext

structure Ledger (ids : IdAllocator) (channels : List ((ShardId × ChannelKey) × ChannelId))
    (sessions : List (Occupant × SessionId)) : Prop where
  channel_lt : ∀ grant ∈ channels, 0 < grant.2 ∧ grant.2 < ceiling ids.nextChannel
  channel_held : ∀ shard key id, ids.channels shard key = some id → ((shard, key), id) ∈ channels
  channel_once : ∀ grant ∈ channels, ∀ other ∈ channels, grant.2 = other.2 → grant.1 = other.1
  channel_all : ∀ n, 0 < n → n < ceiling ids.nextChannel → ∃ pair, (pair, n) ∈ channels
  session_held : ∀ grant ∈ sessions, ids.sessions grant.1 = some grant.2
  session_all : ∀ n, 0 < n → n < ceiling ids.nextSession → ∃ occupant, (occupant, n) ∈ sessions

namespace Ledger

variable {channels : List ((ShardId × ChannelKey) × ChannelId)}
  {sessions : List (Occupant × SessionId)}

theorem start : Ledger .new [] [] where
  channel_lt _ hmem := absurd hmem not_mem_nil
  channel_held _ _ _ hnone := by cases hnone
  channel_once _ hmem := absurd hmem not_mem_nil
  channel_all n hpos hlt := absurd hpos (Nat.not_lt.mpr (Nat.lt_succ_iff.mp hlt))
  session_held _ hmem := absurd hmem not_mem_nil
  session_all n hpos hlt := absurd hpos (Nat.not_lt.mpr (Nat.lt_succ_iff.mp hlt))

section

variable (h : Ledger ids channels sessions)

include h

theorem again {id : ChannelId} (hmapped : ids.channels shard key = some id) :
    Ledger ids (channels ++ [((shard, key), id)]) sessions := by
  have hold := h.channel_held shard key id hmapped
  have hmem : ∀ grant, grant ∈ channels ++ [((shard, key), id)] → grant ∈ channels := by
    intro grant hgrt
    rcases mem_append.mp hgrt with hgrt | hgrt
    · exact hgrt
    · exact mem_singleton.mp hgrt ▸ hold
  refine ⟨fun grant hgrt => h.channel_lt grant (hmem grant hgrt), ?_, ?_, ?_, h.session_held,
    h.session_all⟩
  · exact fun s k i hi => mem_append_left _ (h.channel_held s k i hi)
  · exact fun grant hgrt other hoth => h.channel_once grant (hmem grant hgrt) other
      (hmem other hoth)
  · intro n hpos hlt
    obtain ⟨pair, hpair⟩ := h.channel_all n hpos hlt
    exact ⟨pair, mem_append_left _ hpair⟩

theorem fresh {raw : ℕ} (hnext : ids.nextChannel = some raw) :
    Ledger (ids.allocateChannel shard key raw hnext) (channels ++ [((shard, key), raw)])
      sessions := by
  obtain ⟨hpos, hlt⟩ := ids.next_lt raw (.inl hnext)
  have hceiling : ceiling ids.nextChannel = raw := by
    rw [hnext]
    rfl
  have hnew : ceiling (ids.allocateChannel shard key raw hnext).nextChannel = raw + 1 :=
    ceiling_checkedSucc hlt
  have hbelow : ∀ grant ∈ channels, grant.2 < raw := fun grant hgrt =>
    (h.channel_lt grant hgrt).2.trans_eq hceiling
  refine ⟨fun grant hgrt => ?_, fun s k i hi => ?_, fun grant hgrt other hoth heq => ?_,
    fun n hn hle => ?_, h.session_held, h.session_all⟩
  · rw [hnew]
    rcases mem_append.mp hgrt with hgrt | hgrt
    · exact ⟨(h.channel_lt grant hgrt).1, (hbelow grant hgrt).trans (Nat.lt_succ_self _)⟩
    · obtain rfl := mem_singleton.mp hgrt
      exact ⟨hpos, Nat.lt_succ_self _⟩
  · simp only [allocateChannel] at hi
    split_ifs at hi with hsame
    · obtain ⟨rfl, rfl⟩ := hsame
      obtain rfl := some.inj hi
      exact mem_append_right _ (mem_singleton_self _)
    · exact mem_append_left _ (h.channel_held s k i hi)
  · rcases mem_append.mp hgrt with hgrt | hgrt <;> rcases mem_append.mp hoth with hoth | hoth
    · exact h.channel_once grant hgrt other hoth heq
    · obtain rfl := mem_singleton.mp hoth
      exact absurd heq (hbelow grant hgrt).ne
    · obtain rfl := mem_singleton.mp hgrt
      exact absurd heq.symm (hbelow other hoth).ne
    · rw [mem_singleton.mp hgrt, mem_singleton.mp hoth]
  · rw [hnew, Nat.lt_succ_iff] at hle
    rcases hle.eq_or_lt with rfl | hlt'
    · exact ⟨(shard, key), mem_append_right _ (mem_singleton_self _)⟩
    · obtain ⟨pair, hpair⟩ := h.channel_all n hn (hlt'.trans_eq hceiling.symm)
      exact ⟨pair, mem_append_left _ hpair⟩

theorem sessionAgain {id : SessionId} (hmapped : ids.sessions occupant = some id) :
    Ledger ids channels (sessions ++ [(occupant, id)]) := by
  refine ⟨h.channel_lt, h.channel_held, h.channel_once, h.channel_all, fun grant hgrt => ?_,
    fun n hpos hlt => ?_⟩
  · rcases mem_append.mp hgrt with hgrt | hgrt
    · exact h.session_held grant hgrt
    · exact mem_singleton.mp hgrt ▸ hmapped
  · obtain ⟨other, hoth⟩ := h.session_all n hpos hlt
    exact ⟨other, mem_append_left _ hoth⟩

theorem sessionFresh {raw : ℕ}
    (hnone : ids.sessions occupant = none) (hnext : ids.nextSession = some raw) :
    Ledger (ids.allocateSession occupant raw hnext) channels (sessions ++ [(occupant, raw)]) := by
  have hlt := (ids.next_lt raw (.inr hnext)).2
  have hceiling : ceiling ids.nextSession = raw := by
    rw [hnext]
    rfl
  refine ⟨h.channel_lt, h.channel_held, h.channel_once, h.channel_all, fun grant hgrt => ?_,
    fun n hpos hle => ?_⟩
  · simp only [allocateSession]
    rcases mem_append.mp hgrt with hgrt | hgrt
    · have hheld := h.session_held grant hgrt
      have hoth : grant.1 ≠ occupant := by
        intro heq
        rw [heq, hnone] at hheld
        cases hheld
      rw [if_neg hoth]
      exact hheld
    · rw [mem_singleton.mp hgrt, if_pos rfl]
  · have hnew : ceiling (ids.allocateSession occupant raw hnext).nextSession = raw + 1 :=
      ceiling_checkedSucc hlt
    rw [hnew, Nat.lt_succ_iff] at hle
    rcases hle.eq_or_lt with rfl | hlt'
    · exact ⟨occupant, mem_append_right _ (mem_singleton_self _)⟩
    · obtain ⟨other, hoth⟩ := h.session_all n hpos (hlt'.trans_eq hceiling.symm)
      exact ⟨other, mem_append_left _ hoth⟩

theorem retain (keep : ShardId → ChannelKey → ChannelId → Bool) :
    Ledger (ids.retain keep) channels sessions :=
  ⟨h.channel_lt, fun s k i hi => h.channel_held s k i (eq_some_of_filter_eq_some hi),
    h.channel_once, h.channel_all, h.session_held, h.session_all⟩

theorem call (call : IdCall) :
    Ledger (ids.call call).2 (channels ++ (ids.channelIssued call).toList)
      (sessions ++ (ids.sessionIssued call).toList) := by
  cases call with
  | channel shard key =>
    have hask : ChannelAsked ids shard key (ids.channel shard key) := channel_asked shard key
    simp only [IdAllocator.call, channelIssued, sessionIssued, toList_none, append_nil]
    generalize ids.channel shard key = result at hask
    cases hask with
    | mapped hmapped => exact h.again hmapped
    | spent hnone hspent => simpa using h
    | fresh hnone hnext => exact h.fresh hnext
  | session occupant =>
    have hask : SessionAsked ids occupant (ids.session occupant) := session_asked occupant
    simp only [IdAllocator.call, channelIssued, sessionIssued, toList_none, append_nil]
    generalize ids.session occupant = result at hask
    cases hask with
    | mapped hmapped => exact h.sessionAgain hmapped
    | spent hnone hspent => simpa using h
    | fresh hnone hnext => exact h.sessionFresh hnone hnext
  | retainChannels shard retained
  | retireChannelIds shard retired =>
    simp only [channelIssued, sessionIssued, toList_none, append_nil]
    exact h.retain _

theorem after (calls : List IdCall) :
    Ledger (ids.after calls) (channels ++ ids.channelsIssued calls)
      (sessions ++ ids.sessionsIssued calls) := by
  induction calls generalizing ids channels sessions with
  | nil => simpa [channelsIssued, sessionsIssued, IdAllocator.after] using h
  | cons call rest ih =>
    have hrest := ih (h.call call)
    simp only [append_assoc] at hrest
    exact hrest

end

end Ledger

def Retired (ids : IdAllocator) (shard : ShardId) (key : ChannelKey) (id : ChannelId) : Prop :=
  id < ceiling ids.nextChannel ∧ ids.channels shard key ≠ some id

namespace Retired

variable {shard : ShardId} {key : ChannelKey} {id : ChannelId}

theorem retain (h : ids.Retired shard key id) (keep : ShardId → ChannelKey → ChannelId → Bool) :
    (ids.retain keep).Retired shard key id :=
  ⟨h.1, fun hsome => h.2 (eq_some_of_filter_eq_some hsome)⟩

theorem call (h : ids.Retired shard key id) (call : IdCall) :
    (ids.call call).2.Retired shard key id ∧
      ids.channelIssued call ≠ some ((shard, key), id) := by
  cases call with
  | channel owner asked =>
    have hask : ChannelAsked ids owner asked (ids.channel owner asked) :=
      channel_asked owner asked
    simp only [IdAllocator.call, channelIssued]
    generalize ids.channel owner asked = result at hask
    cases hask with
    | mapped hmapped =>
      refine ⟨h, fun heq => h.2 ?_⟩
      obtain ⟨⟨rfl, rfl⟩, rfl⟩ := by simpa using heq
      exact hmapped
    | spent hnone hspent => exact ⟨h, by simp⟩
    | @fresh raw hnone hnext =>
      have hraw := (ids.next_lt raw (.inl hnext)).2
      have hbelow : id < raw := by
        have hlt := h.1
        rw [hnext] at hlt
        exact hlt
      have hceiling : ceiling (ids.allocateChannel owner asked raw hnext).nextChannel = raw + 1 :=
        ceiling_checkedSucc hraw
      refine ⟨⟨?_, ?_⟩, ?_⟩
      · rw [hceiling]
        exact hbelow.trans (Nat.lt_succ_self _)
      · simp only [allocateChannel]
        split_ifs with hsame
        · exact fun heq => hbelow.ne' (some.inj heq)
        · exact h.2
      · intro heq
        exact hbelow.ne' (congrArg Prod.snd (some.inj heq))
  | session occupant =>
    have hask : SessionAsked ids occupant (ids.session occupant) := session_asked occupant
    simp only [IdAllocator.call, channelIssued]
    refine ⟨?_, by simp⟩
    generalize ids.session occupant = result at hask
    cases hask with
    | _ => exact h
  | retainChannels owner retained
  | retireChannelIds owner retired => exact ⟨h.retain _, by simp [channelIssued]⟩

theorem not_issued (h : ids.Retired shard key id) (calls : List IdCall) :
    ((shard, key), id) ∉ ids.channelsIssued calls := by
  induction calls generalizing ids with
  | nil => exact not_mem_nil
  | cons call rest ih =>
    obtain ⟨hnext, hnot⟩ := h.call call
    intro hmem
    rcases mem_append.mp hmem with hmem | hmem
    · exact hnot (mem_toList.mp hmem)
    · exact ih hnext hmem

end Retired

theorem retain_channels_eq {owner : ShardId}
    {keep : ShardId → ChannelKey → ChannelId → Bool} (hkeep : ∀ id, keep owner key id = true) :
    (ids.retain keep).channels owner key = ids.channels owner key := by
  simp only [IdAllocator.retain]
  cases ids.channels owner key with
  | none => rfl
  | some id => simp [hkeep id]

theorem call_channel_mapped {id : ChannelId} (h : ids.channels shard key = some id) :
    ids.call (.channel shard key) = (.channel (.ok id), ids) := by
  simp only [call, channel, h]

theorem call_session_mapped {id : SessionId} (h : ids.sessions occupant = some id) :
    ids.call (.session occupant) = (.session (.ok id), ids) := by
  simp only [call, IdAllocator.session, h]

theorem call_channel_exhausted (h : (ids.call (.channel shard key)).1.exhausted) :
    (ids.call (.channel shard key)).2 = ids ∧ ids.nextChannel = none := by
  have hask : ChannelAsked ids shard key (ids.channel shard key) := channel_asked shard key
  simp only [call] at h ⊢
  generalize ids.channel shard key = result at hask h
  cases hask with
  | mapped hmapped => cases h
  | spent hnone hspent => exact ⟨rfl, hspent⟩
  | fresh hnone hnext => cases h

theorem call_session_exhausted (h : (ids.call (.session occupant)).1.exhausted) :
    (ids.call (.session occupant)).2 = ids ∧ ids.nextSession = none := by
  have hask : SessionAsked ids occupant (ids.session occupant) := session_asked occupant
  simp only [call] at h ⊢
  generalize ids.session occupant = result at hask h
  cases hask with
  | mapped hmapped => cases h
  | spent hnone hspent => exact ⟨rfl, hspent⟩
  | fresh hnone hnext => cases h

theorem call_exhausted {call : IdCall} (h : (ids.call call).1.exhausted) :
    (ids.call call).2 = ids := by
  cases call with
  | channel shard key => exact (call_channel_exhausted h).1
  | session occupant => exact (call_session_exhausted h).1
  | retainChannels shard retained => cases h
  | retireChannelIds shard retired => cases h

/-- Over every interleaving of calls on one allocator: a channel number stands for one pair
and never for the same pair again once its mapping was retired; the root's number is never
handed out; sessions and occupants determine each other; one shard's retirements leave the
other shards alone; a refusal means that every non-zero number was used, and changes nothing. -/
theorem identifier_allocation (calls : List IdCall) :
    (∀ grant ∈ new.channelsIssued calls, ∀ other ∈ new.channelsIssued calls,
      grant.2 = other.2 → grant.1 = other.1) ∧
    (∀ earlier later shard key id, calls = earlier ++ later →
      ((shard, key), id) ∈ new.channelsIssued earlier →
      (new.after earlier).channels shard key = none →
      ((shard, key), id) ∉ (new.after earlier).channelsIssued later) ∧
    (∀ grant ∈ new.channelsIssued calls, grant.2 ≠ rootChannel) ∧
    (∀ grant ∈ new.sessionsIssued calls, ∀ other ∈ new.sessionsIssued calls,
      grant.1 = other.1 ↔ grant.2 = other.2) ∧
    (∀ shard owner key retained retired, owner ≠ shard →
      ((new.after calls).call (.retainChannels shard retained)).2.channels owner key =
          (new.after calls).channels owner key ∧
        ((new.after calls).call (.retireChannelIds shard retired)).2.channels owner key =
          (new.after calls).channels owner key) ∧
    (∀ shard key, ((new.after calls).call (.channel shard key)).1.exhausted →
      ∀ n, 0 < n → n < 2 ^ 32 → ∃ pair, (pair, n) ∈ new.channelsIssued calls) ∧
    (∀ occupant, ((new.after calls).call (.session occupant)).1.exhausted →
      ∀ n, 0 < n → n < 2 ^ 32 → ∃ owner, (owner, n) ∈ new.sessionsIssued calls) ∧
    (∀ call, ((new.after calls).call call).1.exhausted →
      ((new.after calls).call call).2 = new.after calls) ∧
    (∀ shard key id, (new.after calls).channels shard key = some id →
      (new.after calls).call (.channel shard key) = (.channel (.ok id), new.after calls)) ∧
    ∀ occupant id, (new.after calls).sessions occupant = some id →
      (new.after calls).call (.session occupant) = (.session (.ok id), new.after calls) := by
  have hledger : Ledger (new.after calls) (new.channelsIssued calls) (new.sessionsIssued calls) :=
    Ledger.start.after calls
  refine ⟨hledger.channel_once, ?_, fun grant hgrt => (hledger.channel_lt grant hgrt).1.ne',
    ?_, ?_, ?_, ?_, fun call => call_exhausted, fun shard key id => call_channel_mapped,
    fun occupant id => call_session_mapped⟩
  · rintro earlier later shard key id rfl hiss hnone
    have hbef : Ledger (new.after earlier) (new.channelsIssued earlier)
        (new.sessionsIssued earlier) := Ledger.start.after earlier
    have hretired : (new.after earlier).Retired shard key id := by
      refine ⟨(hbef.channel_lt _ hiss).2, ?_⟩
      rw [hnone]
      exact Option.some_ne_none id ∘ Eq.symm
    exact hretired.not_issued later
  · intro grant hgrt other hoth
    have hheld := hledger.session_held grant hgrt
    have hheld' := hledger.session_held other hoth
    constructor
    · intro heq
      rw [heq, hheld'] at hheld
      exact (Option.some.inj hheld).symm
    · intro heq
      rw [← heq] at hheld'
      exact (new.after calls).sessions_injective _ _ _ hheld hheld'
  · intro shard owner key retained retired hne
    exact ⟨retain_channels_eq fun id => by simp [hne], retain_channels_eq fun id => by simp [hne]⟩
  · intro shard key hexhausted n hpos hlt
    have hspent := (call_channel_exhausted hexhausted).2
    exact hledger.channel_all n hpos (by rwa [hspent])
  · intro occupant hexhausted n hpos hlt
    have hspent := (call_session_exhausted hexhausted).2
    exact hledger.session_all n hpos (by rwa [hspent])

end IdAllocator

end MumbleRuntime
