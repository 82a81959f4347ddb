import MumbleRuntime.Plan

/-!
# Composing one connection's transition, and the journal it is replayed from

A connection receives the shared delta filtered by what it observes, with its
private operations inserted between the shared additions and the shared
removals, and with every removal of an element that is also added dropped.

The journal keeps the deltas of the versions `tail + 1 ..= head`, at most
`journalDepth` of them.
-/

namespace MumbleRuntime
open Library List

namespace Compose

def filter (ops : List PlannedOp) (see : ScopeSet) : List PlanOp :=
  (ops.filter fun planned => see.sees planned.scope).map PlannedOp.op

theorem filter_append (ops more : List PlannedOp) (see : ScopeSet) :
    filter (ops ++ more) see = filter ops see ++ filter more see := by
  simp [filter]

def splice (shared : List PlanOp) (overlay : OverlayOps) : List PlanOp :=
  shared.takeWhile (fun op => !op.isRemoval) ++ overlay.removals ++ overlay.additions ++
    shared.dropWhile (fun op => !op.isRemoval)

def survives (added : List ElementId) (op : PlanOp) : Bool :=
  match op.removed with
  | some id => !added.contains id
  | none => true

def collapse (ops : List PlanOp) : List PlanOp :=
  ops.filter (survives (ops.filterMap PlanOp.added))

end Compose

/-- `DEPTH`: how many versions of history the journal keeps. -/
def journalDepth : ℕ := 256

structure TooFarBehind where
  cursor : ℕ
  tail : ℕ
  deriving DecidableEq

structure Journal where
  tail : ℕ
  head : ℕ
  entries : List (List PlannedOp)
  span : tail + entries.length = head
  bounded : entries.length ≤ journalDepth

namespace Journal

def new : Journal := ⟨0, 0, [], rfl, Nat.zero_le _⟩

def push (journal : Journal) (ops : List PlannedOp) : Journal where
  tail := journal.tail + (journal.entries.length + 1 - journalDepth)
  head := journal.head + 1
  entries := (journal.entries ++ [ops]).drop (journal.entries.length + 1 - journalDepth)
  span := by
    have hspan := journal.span
    have hbounded := journal.bounded
    simp only [List.length_drop, List.length_append, List.length_singleton]
    omega
  bounded := by
    simp only [List.length_drop, List.length_append, List.length_singleton]
    omega

def replay (journal : Journal) (start stop : ℕ) : Except TooFarBehind (List PlannedOp) :=
  if start < journal.tail then .error ⟨start, journal.tail⟩
  else
    let stop := min stop journal.head
    if stop ≤ start then .ok []
    else .ok ((journal.entries.take (stop - journal.tail)).drop (start - journal.tail)).flatten

def pushAll (journal : Journal) (deltas : List (List PlannedOp)) : Journal :=
  deltas.foldl push journal

theorem pushAll_cons (journal : Journal) (delta : List PlannedOp) (rest : List (List PlannedOp)) :
    journal.pushAll (delta :: rest) = (journal.push delta).pushAll rest := by
  simp only [pushAll, foldl_cons]

theorem pushAll_fields (journal : Journal) (deltas : List (List PlannedOp)) :
    (journal.pushAll deltas).head = journal.head + deltas.length ∧
      (journal.pushAll deltas).tail =
        journal.tail + (journal.entries.length + deltas.length - journalDepth) ∧
      (journal.pushAll deltas).entries =
        (journal.entries ++ deltas).drop (journal.entries.length + deltas.length - journalDepth) := by
  induction deltas generalizing journal with
  | nil =>
    have hbounded := journal.bounded
    have hzero : journal.entries.length - journalDepth = 0 := by omega
    simp only [length_nil, Nat.add_zero, hzero, append_nil, drop_zero]
    exact ⟨rfl, rfl, rfl⟩
  | cons delta rest ih =>
    obtain ⟨hhead, htail, hentries⟩ := ih (journal.push delta)
    have hlen : (journal.push delta).entries.length =
        journal.entries.length + 1 - (journal.entries.length + 1 - journalDepth) := by
      simp [push]
    rw [pushAll_cons]
    refine ⟨?_, ?_, ?_⟩
    · rw [hhead]
      simp only [push, length_cons]
      omega
    · rw [htail, hlen]
      simp only [push, length_cons]
      omega
    · rw [hentries, hlen]
      have hspl : journal.entries ++ delta :: rest = (journal.entries ++ [delta]) ++ rest := by
        simp
      have hdrop : (journal.push delta).entries ++ rest =
          (journal.entries ++ delta :: rest).drop (journal.entries.length + 1 - journalDepth) := by
        rw [hspl, drop_append_of_le_length (by simp)]
        simp only [push]
      have hcnt : journal.entries.length + 1 - journalDepth +
          (journal.entries.length + 1 - (journal.entries.length + 1 - journalDepth) + rest.length -
            journalDepth) = journal.entries.length + (delta :: rest).length - journalDepth := by
        simp only [length_cons]
        omega
      rw [hdrop, drop_drop, hcnt]

theorem replay_pushAll (journal : Journal) {deltas : List (List PlannedOp)}
    (h : deltas.length ≤ journalDepth) :
    (journal.pushAll deltas).replay journal.head (journal.pushAll deltas).head =
      .ok deltas.flatten := by
  obtain ⟨hhead, htail, hentries⟩ := journal.pushAll_fields deltas
  have hspan := journal.span
  have hspan' := (journal.pushAll deltas).span
  have hnot : ¬journal.head < (journal.pushAll deltas).tail := by omega
  rw [replay, if_neg hnot]
  simp only [min_self]
  split_ifs with hle
  · have hnil : deltas = [] := length_eq_zero_iff.mp (by omega)
    rw [hnil]
    rfl
  · rw [take_of_length_le (by omega), hentries, drop_drop,
      drop_append_of_le_length (by omega), drop_eq_nil_of_le (by omega), nil_append]

theorem replay_new_pushAll (deltas : List (List PlannedOp)) (start stop : ℕ) :
    (new.pushAll deltas).replay start stop =
      if start < (new.pushAll deltas).tail then .error ⟨start, (new.pushAll deltas).tail⟩
      else .ok ((deltas.take (min stop (new.pushAll deltas).head)).drop start).flatten := by
  obtain ⟨hhead, htail, hentries⟩ := new.pushAll_fields deltas
  rw [replay, hentries, ← htail.trans (Nat.zero_add _)]
  dsimp only
  split_ifs with hbehind hdone
  · rfl
  · rw [drop_eq_nil_of_le ((length_take_le _ _).trans hdone)]
    rfl
  · have hkept : ((new.entries ++ deltas).drop (new.pushAll deltas).tail).take
        (min stop (new.pushAll deltas).head - (new.pushAll deltas).tail) =
        (deltas.take (min stop (new.pushAll deltas).head)).drop (new.pushAll deltas).tail := by
      rw [take_drop, Nat.add_sub_cancel' (by omega)]
      rfl
    rw [hkept, drop_drop, Nat.add_sub_cancel' (by omega)]

theorem drop_take_append_drop {deltas : List (List PlannedOp)} {a b : ℕ} (h : a ≤ b) :
    (deltas.take b).drop a ++ deltas.drop b = deltas.drop a := by
  rw [drop_take, ← Nat.add_sub_cancel' h, ← drop_drop, Nat.add_sub_cancel_left, take_append_drop]

theorem replay_split (deltas : List (List PlannedOp)) {a b c : ℕ} (hab : a ≤ b) (hbc : b ≤ c)
    (htail : (new.pushAll deltas).tail ≤ a) :
    ∃ first second, (new.pushAll deltas).replay a b = .ok first ∧
      (new.pushAll deltas).replay b c = .ok second ∧
      (new.pushAll deltas).replay a c = .ok (first ++ second) ∧
      first ++ second = ((deltas.take (min c (new.pushAll deltas).head)).drop a).flatten := by
  have hjoin := @drop_take_append_drop (deltas.take (min c (new.pushAll deltas).head)) a b hab
  have htake : (deltas.take (min c (new.pushAll deltas).head)).take b =
      deltas.take (min b (new.pushAll deltas).head) := by
    rw [take_take, ← min_assoc, min_eq_left hbc]
  rw [htake] at hjoin
  simp only [replay_new_pushAll, if_neg (not_lt.mpr htail),
    if_neg (not_lt.mpr (htail.trans hab)), ← hjoin, flatten_append]
  exact ⟨_, _, rfl, rfl, rfl, rfl⟩

theorem replay_head (journal : Journal) : journal.replay journal.head journal.head = .ok [] := by
  have hspan := journal.span
  rw [replay, if_neg (by omega)]
  simp

theorem replay_push {journal : Journal} {ops replayed : List PlannedOp} {start : ℕ}
    (hstart : start ≤ journal.head)
    (h : (journal.push ops).replay start (journal.push ops).head = .ok replayed) :
    ∃ earlier, journal.replay start journal.head = .ok earlier ∧ replayed = earlier ++ ops := by
  have hspan := journal.span
  have hspan' := (journal.push ops).span
  have htail : (journal.push ops).tail =
      journal.tail + (journal.entries.length + 1 - journalDepth) := rfl
  have hhead : (journal.push ops).head = journal.head + 1 := rfl
  rw [replay] at h
  split_ifs at h with hbehind
  have hold : ¬start < journal.tail := by omega
  refine ⟨(journal.entries.drop (start - journal.tail)).flatten, ?_, ?_⟩
  · rw [replay, if_neg hold]
    simp only [min_self]
    split_ifs with hle
    · rw [drop_eq_nil_of_le (by omega)]
      rfl
    · rw [take_of_length_le (by omega)]
  · rw [if_neg (by omega), take_of_length_le (by omega)] at h
    have hentries : (journal.push ops).entries.drop (start - (journal.push ops).tail) =
        journal.entries.drop (start - journal.tail) ++ [ops] := by
      have hcnt : journal.entries.length + 1 - journalDepth +
          (start - (journal.push ops).tail) = start - journal.tail := by omega
      have hpushed : (journal.push ops).entries = (journal.entries ++ [ops]).drop
          (journal.entries.length + 1 - journalDepth) := by simp only [push]
      rw [hpushed, drop_drop, hcnt, drop_append_of_le_length (by omega)]
    rw [hentries] at h
    simpa using (Except.ok.inj h).symm

end Journal

end MumbleRuntime
