import MumbleRuntime.Library.OrderedTable
import Mathlib.Algebra.Ring.Nat
import Mathlib.Logic.Function.Basic

/-!
# Identifiers and the allocator that keeps them stable

Wire identifiers are numbers below `2^32`. One allocator serves every shard of a
runtime: channels are keyed by the shard and the flavor's key, sessions by the
occupant. The allocation cursors only move forward, so retiring a mapping never
recycles its number. The allocator carries what its operations maintain: every
number it has handed out lies below its cursor, none is zero, and no number
stands for two identities at once.
-/

namespace MumbleRuntime
open Library

abbrev ShardId := ℕ
abbrev ConnectionId := ℕ
abbrev SyntheticId := ℕ
abbrev SessionId := ℕ
abbrev ChannelId := ℕ
abbrev ChannelKey := ℕ
abbrev ActionKey := ℕ

/-- `ChannelId::ROOT`: it exists client-side before any message. -/
def rootChannel : ChannelId := 0

/-- `ChannelKey::ROOT`: the key the builder gives the shard's root. -/
def rootKey : ChannelKey := 0

inductive Occupant
  | connection (connection : ConnectionId)
  | synthetic (id : SyntheticId)
  deriving DecidableEq

def Occupant.connection? : Occupant → Option ConnectionId
  | .connection c => some c
  | .synthetic _ => none

inductive Exhausted
  | channels
  | sessions
  deriving DecidableEq

def checkedSucc (raw : ℕ) : Option ℕ := if raw + 1 < 2 ^ 32 then some (raw + 1) else none

def ceiling : Option ℕ → ℕ
  | some n => n
  | none => 2 ^ 32

theorem ceiling_checkedSucc {raw : ℕ} (h : raw < 2 ^ 32) : ceiling (checkedSucc raw) = raw + 1 := by
  unfold checkedSucc
  split_ifs with hlt
  · rfl
  · exact le_antisymm (not_lt.mp hlt) h

theorem lt_ceiling_checkedSucc {raw : ℕ} (h : raw < 2 ^ 32) : raw < ceiling (checkedSucc raw) :=
  (ceiling_checkedSucc h).symm ▸ Nat.lt_succ_self raw

structure IdAllocator where
  channels : ShardId → ChannelKey → Option ChannelId
  sessions : Occupant → Option SessionId
  /-- The next number to hand out; `none` once the space is spent. -/
  nextChannel : Option ℕ
  nextSession : Option ℕ
  next_lt : ∀ n, nextChannel = some n ∨ nextSession = some n → 0 < n ∧ n < 2 ^ 32
  channels_lt : ∀ s k id, channels s k = some id → 0 < id ∧ id < ceiling nextChannel
  channels_injective : ∀ s k s' k' id,
    channels s k = some id → channels s' k' = some id → s = s' ∧ k = k'
  sessions_lt : ∀ o id, sessions o = some id → 0 < id ∧ id < ceiling nextSession
  sessions_injective : ∀ o o' id, sessions o = some id → sessions o' = some id → o = o'

namespace IdAllocator

def new : IdAllocator where
  channels _ _ := none
  sessions _ := none
  nextChannel := some 1
  nextSession := some 1
  next_lt := by simp
  channels_lt := by simp
  channels_injective := by simp
  sessions_lt := by simp
  sessions_injective := by simp

instance : Inhabited IdAllocator := ⟨new⟩

def allocateChannel (ids : IdAllocator) (shard : ShardId) (key : ChannelKey) (raw : ℕ)
    (h : ids.nextChannel = some raw) : IdAllocator where
  channels s k := if s = shard ∧ k = key then some raw else ids.channels s k
  sessions := ids.sessions
  nextChannel := checkedSucc raw
  nextSession := ids.nextSession
  next_lt := by
    intro n hn
    rcases hn with hn | hn
    · unfold checkedSucc at hn
      split_ifs at hn with hlt
      cases hn
      exact ⟨Nat.succ_pos raw, hlt⟩
    · exact ids.next_lt n (Or.inr hn)
  channels_lt := by
    intro s k id hid
    have hraw := ids.next_lt raw (Or.inl h)
    have hlt := lt_ceiling_checkedSucc hraw.2
    split_ifs at hid with hk
    · cases hid
      exact ⟨hraw.1, hlt⟩
    · have hold := ids.channels_lt s k id hid
      rw [h] at hold
      exact ⟨hold.1, hold.2.trans hlt⟩
  channels_injective := by
    intro s k s' k' id hid hid'
    have hfresh : ∀ s k, ids.channels s k ≠ some raw := by
      intro s k hk
      have hlt := (ids.channels_lt s k raw hk).2
      rw [h] at hlt
      exact lt_irrefl _ hlt
    split_ifs at hid hid' with h₁ h₂ h₂
    · exact ⟨h₁.1.trans h₂.1.symm, h₁.2.trans h₂.2.symm⟩
    · cases hid
      exact absurd hid' (hfresh s' k')
    · cases hid'
      exact absurd hid (hfresh s k)
    · exact ids.channels_injective s k s' k' id hid hid'
  sessions_lt := ids.sessions_lt
  sessions_injective := ids.sessions_injective

/-- The id for `key` within `shard`, allocating one the first time it is seen. -/
def channel (ids : IdAllocator) (shard : ShardId) (key : ChannelKey) :
    Except Exhausted (ChannelId × IdAllocator) :=
  match ids.channels shard key with
  | some existing => .ok (existing, ids)
  | none =>
    match h : ids.nextChannel with
    | none => .error .channels
    | some raw => .ok (raw, ids.allocateChannel shard key raw h)

def allocateSession (ids : IdAllocator) (occupant : Occupant) (raw : ℕ)
    (h : ids.nextSession = some raw) : IdAllocator where
  channels := ids.channels
  sessions o := if o = occupant then some raw else ids.sessions o
  nextChannel := ids.nextChannel
  nextSession := checkedSucc raw
  next_lt := by
    intro n hn
    rcases hn with hn | hn
    · exact ids.next_lt n (Or.inl hn)
    · unfold checkedSucc at hn
      split_ifs at hn with hlt
      cases hn
      exact ⟨Nat.succ_pos raw, hlt⟩
  channels_lt := ids.channels_lt
  channels_injective := ids.channels_injective
  sessions_lt := by
    intro o id hid
    have hraw := ids.next_lt raw (Or.inr h)
    have hlt := lt_ceiling_checkedSucc hraw.2
    split_ifs at hid with ho
    · cases hid
      exact ⟨hraw.1, hlt⟩
    · have hold := ids.sessions_lt o id hid
      rw [h] at hold
      exact ⟨hold.1, hold.2.trans hlt⟩
  sessions_injective := by
    intro o o' id hid hid'
    have hfresh : ∀ o, ids.sessions o ≠ some raw := by
      intro o ho
      have hlt := (ids.sessions_lt o raw ho).2
      rw [h] at hlt
      exact lt_irrefl _ hlt
    split_ifs at hid hid' with h₁ h₂ h₂
    · exact h₁.trans h₂.symm
    · cases hid
      exact absurd hid' (hfresh o')
    · cases hid'
      exact absurd hid (hfresh o)
    · exact ids.sessions_injective o o' id hid hid'

def session (ids : IdAllocator) (occupant : Occupant) : Except Exhausted (SessionId × IdAllocator) :=
  match ids.sessions occupant with
  | some existing => .ok (existing, ids)
  | none =>
    match h : ids.nextSession with
    | none => .error .sessions
    | some raw => .ok (raw, ids.allocateSession occupant raw h)

def allocatedSession (ids : IdAllocator) (occupant : Occupant) : Option SessionId :=
  ids.sessions occupant

def allocatedChannel (ids : IdAllocator) (shard : ShardId) (key : ChannelKey) : Option ChannelId :=
  ids.channels shard key

/-- Keep only the channel mappings `keep` accepts. -/
def retain (ids : IdAllocator) (keep : ShardId → ChannelKey → ChannelId → Bool) : IdAllocator where
  channels s k := (ids.channels s k).filter (keep s k)
  sessions := ids.sessions
  nextChannel := ids.nextChannel
  nextSession := ids.nextSession
  next_lt := ids.next_lt
  channels_lt := by
    intro s k id hid
    exact ids.channels_lt s k id (Option.eq_some_of_filter_eq_some hid)
  channels_injective := by
    intro s k s' k' id hid hid'
    exact ids.channels_injective s k s' k' id (Option.eq_some_of_filter_eq_some hid)
      (Option.eq_some_of_filter_eq_some hid')
  sessions_lt := ids.sessions_lt
  sessions_injective := ids.sessions_injective

def retainChannels (ids : IdAllocator) (shard : ShardId) (retained : OrderedSet ChannelKey) :
    IdAllocator :=
  ids.retain (fun owner key _ => owner ≠ shard || retained.contains key)

def retireChannelIds (ids : IdAllocator) (shard : ShardId) (retired : OrderedSet ChannelId) :
    IdAllocator :=
  ids.retain (fun owner _ id => owner ≠ shard || !retired.contains id)

theorem channel_ok {ids ids' : IdAllocator} {shard : ShardId} {key : ChannelKey} {id : ChannelId}
    (h : ids.channel shard key = .ok (id, ids')) :
    ids'.channels shard key = some id ∧
      (∀ s k i, ids.channels s k = some i → ids'.channels s k = some i) ∧
      ids'.sessions = ids.sessions := by
  unfold channel at h
  split at h
  · rename_i existing hexisting
    cases h
    exact ⟨hexisting, fun s k i hi => hi, rfl⟩
  · rename_i hnone
    split at h
    · cases h
    · cases h
      refine ⟨if_pos ⟨rfl, rfl⟩, ?_, rfl⟩
      intro s k i hi
      have hne : ¬(s = shard ∧ k = key) := by
        rintro ⟨rfl, rfl⟩
        rw [hnone] at hi
        cases hi
      exact (if_neg hne).trans hi

theorem session_ok {ids ids' : IdAllocator} {occupant : Occupant} {session : SessionId}
    (h : ids.session occupant = .ok (session, ids')) :
    ids'.sessions occupant = some session ∧
      (∀ o i, ids.sessions o = some i → ids'.sessions o = some i) ∧
      ids'.channels = ids.channels := by
  unfold IdAllocator.session at h
  split at h
  · rename_i existing hexisting
    cases h
    exact ⟨hexisting, fun o i hi => hi, rfl⟩
  · rename_i hnone
    split at h
    · cases h
    · cases h
      refine ⟨if_pos rfl, ?_, rfl⟩
      intro o i hi
      have hne : o ≠ occupant := by
        rintro rfl
        rw [hnone] at hi
        cases hi
      exact (if_neg hne).trans hi

end IdAllocator

end MumbleRuntime
