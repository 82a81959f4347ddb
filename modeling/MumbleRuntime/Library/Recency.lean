import Mathlib.Data.List.Induction
import Mathlib.Data.List.Nodup

/-!
# The most recent elements of a sequence

The last elements of a list, the elements of a sequence that come while they are not
among the last that came so, and the value last put under a key.
-/

namespace MumbleRuntime.Library

open List

variable {α β : Type*}

def latest (n : Nat) (xs : List α) : List α := xs.drop (xs.length - n)

theorem length_latest_le (n : Nat) (xs : List α) : (latest n xs).length ≤ n := by
  rw [latest, length_drop]
  omega

theorem latest_of_length_le {n : Nat} {xs : List α} (h : xs.length ≤ n) : latest n xs = xs := by
  rw [latest, Nat.sub_eq_zero_of_le h, drop_zero]

theorem latest_sublist (n : Nat) (xs : List α) : (latest n xs).Sublist xs := drop_sublist _ _

theorem latest_latest_append (n : Nat) (xs : List α) (x : α) :
    latest n (latest n xs ++ [x]) = latest n (xs ++ [x]) := by
  by_cases hle : xs.length ≤ n
  · rw [latest_of_length_le hle]
  · have hdrop : latest n xs ++ [x] = (xs ++ [x]).drop (xs.length - n) := by
      rw [drop_append_of_le_length (Nat.sub_le _ _), latest]
    rw [hdrop, latest, latest, drop_drop]
    congr 1
    simp only [length_drop, length_append, length_singleton]
    omega

section Afresh

variable [DecidableEq α]

/-- The elements of a sequence that come while they are not among the last `n` that came so. -/
def afresh (n : Nat) (xs : List α) : List α :=
  xs.foldl (fun seen x => if x ∈ latest n seen then seen else seen ++ [x]) []

theorem afresh_append (n : Nat) (xs : List α) (x : α) : afresh n (xs ++ [x]) =
    if x ∈ latest n (afresh n xs) then afresh n xs else afresh n xs ++ [x] := by
  rw [afresh, foldl_append]
  rfl

theorem mem_of_mem_afresh {n : Nat} {xs : List α} {x : α} (h : x ∈ afresh n xs) : x ∈ xs := by
  induction xs using reverseRecOn with
  | nil => cases h
  | append_singleton xs y ih =>
    rw [afresh_append] at h
    split_ifs at h
    · exact mem_append_left _ (ih h)
    · rcases mem_append.mp h with h | h
      · exact mem_append_left _ (ih h)
      · exact mem_append_right _ h

theorem nodup_latest_afresh (n : Nat) (xs : List α) : (latest n (afresh n xs)).Nodup := by
  induction xs using reverseRecOn with
  | nil => simp [afresh, latest]
  | append_singleton xs x ih =>
    rw [afresh_append]
    split_ifs with hmem
    · exact ih
    · rw [← latest_latest_append]
      refine List.Nodup.sublist (latest_sublist _ _) ?_
      exact nodup_append.mpr ⟨ih, nodup_singleton x, fun y hy z hz heq =>
        hmem (mem_singleton.mp hz ▸ heq ▸ hy)⟩

def lastFor (x : α) (entries : List (α × β)) : Option β :=
  (entries.reverse.find? fun entry => entry.1 = x).map Prod.snd

theorem lastFor_append (x y : α) (entries : List (α × β)) (b : β) :
    lastFor x (entries ++ [(y, b)]) = if x = y then some b else lastFor x entries := by
  simp only [lastFor, reverse_append, reverse_singleton, singleton_append]
  by_cases hxy : x = y
  · simp [hxy]
  · simp [hxy, Ne.symm hxy]

theorem lastFor_isSome {x : α} {entries : List (α × β)} (h : x ∈ entries.map Prod.fst) :
    ∃ b, lastFor x entries = some b := by
  induction entries using reverseRecOn with
  | nil => cases h
  | append_singleton entries entry ih =>
    rw [lastFor_append]
    split_ifs with hx
    · exact ⟨entry.2, rfl⟩
    · rw [map_append, mem_append] at h
      refine ih (h.resolve_right fun hlast => hx ?_)
      simpa using hlast

end Afresh

end MumbleRuntime.Library
