import Mathlib.Data.List.Basic
import Mathlib.Data.List.Nodup
import Mathlib.Data.List.Perm.Subperm
import Mathlib.Data.Fintype.Pigeonhole
import Mathlib.Data.Set.Finite.Basic

/-!
# Walks of a partial successor

A partial function is followed from a point for as long as it is defined. Over
finitely many points a walk that has not ended after as many steps as there are
points never ends, and a walk that never ends comes back to where it was.
-/

namespace MumbleRuntime.Library

open Option List

variable {κ : Type*} (next : κ → Option κ)

def walk : ℕ → κ → Option κ
  | 0, k => some k
  | n + 1, k => (next k).bind (walk n)

variable {next}

theorem walk_add (m n : ℕ) (k : κ) : walk next (m + n) k = (walk next m k).bind (walk next n) := by
  induction m generalizing k with
  | zero => simp [walk]
  | succ m ih =>
    rw [Nat.succ_add]
    simp only [walk]
    cases next k with
    | none => rfl
    | some j => exact ih j

theorem walk_succ (n : ℕ) (k : κ) : walk next (n + 1) k = (walk next n k).bind next := by
  rw [walk_add]
  congr 1
  funext j
  simp [walk]

variable {n : ℕ} {k : κ}

theorem walk_none_of_le {m : ℕ} (h : walk next m k = none) (hmn : m ≤ n) :
    walk next n k = none := by
  obtain ⟨d, rfl⟩ := Nat.exists_eq_add_of_le hmn
  rw [walk_add, h]
  rfl

theorem walk_fixed (h : next k = some k) (n : ℕ) : walk next n k = some k := by
  induction n with
  | zero => rfl
  | succ n ih =>
    simp only [walk, h, bind_some]
    exact ih

theorem walk_circle (h : walk next n k = some k) (m : ℕ) : walk next (n * m) k = some k := by
  induction m with
  | zero => rfl
  | succ m ih => rw [Nat.mul_succ, walk_add, ih, bind_some, h]

theorem walk_rotate {i : ℕ} {j : κ} (h : walk next n k = some k) (hi : walk next i k = some j) :
    walk next n j = some j := by
  have hboth : walk next (n + i) k = walk next (i + n) k := by rw [Nat.add_comm]
  rw [walk_add, walk_add, h, hi, bind_some, bind_some, hi] at hboth
  exact hboth.symm

theorem walk_mono {next' : κ → Option κ} (h : ∀ k j, next k = some j → next' k = some j) (n : ℕ)
    {j : κ} (hj : walk next n k = some j) : walk next' n k = some j := by
  induction n generalizing k with
  | zero => exact hj
  | succ n ih =>
    obtain ⟨l, hl, hrest⟩ := bind_eq_some_iff.mp hj
    simp only [walk, h k l hl, bind_some]
    exact ih hrest

theorem walk_none_of_meet {i j : ℕ} (hmeet : walk next i k = walk next j k) (hj : j ≤ n)
    (h : walk next n k = none) : walk next (i + (n - j)) k = none := by
  rw [walk_add, hmeet, ← walk_add, Nat.add_sub_cancel' hj]
  exact h

variable {points : List κ}

theorem walk_ends_within (hpoints : ∀ k j, next k = some j → k ∈ points)
    (h : ∃ n, walk next n k = none) : walk next (points.length + 1) k = none := by
  classical
  obtain ⟨n, hn, hmin⟩ : ∃ n, walk next n k = none ∧ ∀ m < n, walk next m k ≠ none :=
    ⟨Nat.find h, Nat.find_spec h, fun m hm => Nat.find_min h hm⟩
  have hvisited : ∀ i, i + 1 < n → ∃ j ∈ points, walk next i k = some j := by
    intro i hi
    cases hj : walk next i k with
    | none => exact absurd hj (hmin i (by omega))
    | some j =>
      cases hnext : next j with
      | none =>
        have hnone : walk next (i + 1) k = none := by rw [walk_succ, hj]; exact hnext
        exact absurd hnone (hmin (i + 1) hi)
      | some l => exact ⟨j, hpoints j l hnext, rfl⟩
  have hle : n - 1 ≤ points.length := by
    by_contra hlt
    have hlt : points.length < n - 1 := by omega
    let visit : Fin (n - 1) → κ := fun i => (hvisited i (by omega)).choose
    have hvisit : ∀ i : Fin (n - 1), visit i ∈ points ∧ walk next i k = some (visit i) :=
      fun i => (hvisited i (by omega)).choose_spec
    have hcard : points.toFinset.card < (Finset.univ : Finset (Fin (n - 1))).card := by
      rw [Finset.card_univ, Fintype.card_fin]
      exact lt_of_le_of_lt (toFinset_card_le points) hlt
    obtain ⟨i, -, j, -, hne, heq⟩ := Finset.exists_ne_map_eq_of_card_lt_of_maps_to hcard
      (fun i _ => mem_toFinset.mpr (hvisit i).1)
    have hmeet : ∀ i j : Fin (n - 1), i < j → visit i = visit j → False := by
      intro i j hij hvij
      have hend := walk_none_of_meet (by rw [(hvisit i).2, (hvisit j).2, hvij])
        (by omega : (j : ℕ) ≤ n) hn
      exact hmin _ (by omega) hend
    rcases lt_or_gt_of_ne hne with hij | hij
    · exact hmeet i j hij heq
    · exact hmeet j i hij heq.symm
  exact walk_none_of_le hn (by omega)

theorem walk_periodic (h : ∀ n, ∃ j ∈ points, walk next n k = some j) :
    ∃ i period, 0 < period ∧ ∀ m, walk next (i + m + period) k = walk next (i + m) k := by
  classical
  choose visit hvisit using h
  have hfinite : Set.Finite (Set.range visit) :=
    (finite_toSet points).subset (by rintro j ⟨n, rfl⟩; exact (hvisit n).1)
  obtain ⟨i, j, hij, heq⟩ : ∃ i j, i < j ∧ visit i = visit j := by
    have hnot : ¬Function.Injective visit := fun hinj =>
      Set.infinite_range_of_injective hinj hfinite
    rw [Function.not_injective_iff] at hnot
    obtain ⟨i, j, heq, hne⟩ := hnot
    rcases lt_or_gt_of_ne hne with hlt | hlt
    · exact ⟨i, j, hlt, heq⟩
    · exact ⟨j, i, hlt, heq.symm⟩
  refine ⟨i, j - i, by omega, fun m => ?_⟩
  have hmeet : walk next j k = walk next i k := by rw [(hvisit j).2, (hvisit i).2, heq]
  rw [show i + m + (j - i) = j + m by omega, walk_add, hmeet, ← walk_add]

theorem walk_ne_self_of_before
    (h : ∀ done k rest, points = done ++ k :: rest → ∀ j, next j = some k → j ∈ done)
    (hk : k ∈ points) (hn : 0 < n) : walk next n k ≠ some k := by
  suffices hdone : ∀ done rest, points = done ++ rest → ∀ k ∈ done, walk next n k ≠ some k from
    hdone points [] (append_nil _).symm k hk
  intro done
  induction done using reverseRecOn with
  | nil => simp
  | append_singleton done k ih =>
    intro rest hspl j hj hcircle
    have hspl' : points = done ++ k :: rest := by rw [hspl, append_assoc]; rfl
    rcases mem_append.mp hj with hin | hlast
    · exact ih (k :: rest) hspl' j hin hcircle
    · obtain rfl : j = k := by simpa using hlast
      obtain ⟨m, rfl⟩ := Nat.exists_eq_succ_of_ne_zero hn.ne'
      have hround := hcircle
      rw [walk_succ] at hround
      obtain ⟨l, hl, hnext⟩ := bind_eq_some_iff.mp hround
      exact ih (j :: rest) hspl' l (h done j rest hspl' l hnext) (walk_rotate hcircle hl)

variable (next) in
/-- What a walk of at most `n` steps costs. -/
def toll (weight : κ → κ → ℕ) : ℕ → κ → ℕ
  | 0, _ => 0
  | n + 1, k =>
    match next k with
    | some j => weight k j + toll weight n j
    | none => 0

variable {weight : κ → κ → ℕ}

theorem toll_of_none (h : next k = none) (n : ℕ) : toll next weight n k = 0 := by
  cases n with
  | zero => rfl
  | succ n => simp only [toll, h]

theorem toll_of_some {j : κ} (h : next k = some j) (n : ℕ) :
    toll next weight (n + 1) k = weight k j + toll next weight n j := by
  simp only [toll, h]

theorem toll_succ (h : walk next n k = none) :
    toll next weight (n + 1) k = toll next weight n k := by
  induction n generalizing k with
  | zero => cases h
  | succ n ih =>
    cases hnext : next k with
    | none => rw [toll_of_none hnext, toll_of_none hnext]
    | some j =>
      rw [toll_of_some hnext, toll_of_some hnext, ih]
      simpa only [walk, hnext, bind_some] using h

end MumbleRuntime.Library
