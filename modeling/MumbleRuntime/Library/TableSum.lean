import Mathlib.Algebra.BigOperators.Group.List.Basic
import Mathlib.Algebra.Order.BigOperators.Group.List
import Mathlib.Algebra.Ring.Nat
import MumbleRuntime.Library.OrderedTable

/-!
# Counting over the records of a table

A number counted over all records changes only by the record that an insertion
replaces.
-/

namespace MumbleRuntime.Library.Table

variable {α κ : Type*} [LinearOrder κ] {key : α → κ}

def sum (t : Table key) (f : α → ℕ) : ℕ := (t.rows.map f).sum

@[simp] theorem sum_empty (f : α → ℕ) : (empty : Table key).sum f = 0 := rfl

theorem sum_insert (t : Table key) (a : α) (f : α → ℕ) :
    (t.insert a).sum f = (t.erase (key a)).sum f + f a := by
  rw [sum, ((t.insert_perm a).map f).sum_eq, List.map_cons, List.sum_cons, Nat.add_comm]
  rfl

variable {t : Table key}

theorem sum_of_get? {k : κ} {a : α} (h : t.get? k = some a) (f : α → ℕ) :
    t.sum f = (t.erase k).sum f + f a := by
  rw [sum, ((erase_perm h).map f).sum_eq, List.map_cons, List.sum_cons, Nat.add_comm]
  rfl

theorem sum_insert_of_none {a : α} (h : t.get? (key a) = none) (f : α → ℕ) :
    (t.insert a).sum f = t.sum f + f a := by
  rw [sum_insert, erase_of_get?_none h]

theorem sum_erase_le (t : Table key) (k : κ) (f : α → ℕ) : (t.erase k).sum f ≤ t.sum f := by
  cases h : t.get? k with
  | none => rw [erase_of_get?_none h]
  | some a =>
    rw [sum_of_get? h]
    exact Nat.le_add_right _ _

theorem sum_insert_le (t : Table key) (a : α) (f : α → ℕ) : (t.insert a).sum f ≤ t.sum f + f a := by
  rw [sum_insert]
  exact Nat.add_le_add_right (t.sum_erase_le (key a) f) (f a)

theorem le_sum_of_get? {k : κ} {a : α} (h : t.get? k = some a) (f : α → ℕ) : f a ≤ t.sum f := by
  rw [sum_of_get? h]
  exact Nat.le_add_left _ _

theorem add_le_sum_of_get? {j k : κ} {a b : α} (hj : t.get? j = some a)
    (hk : t.get? k = some b) (hne : j ≠ k) (f : α → ℕ) : f a + f b ≤ t.sum f := by
  have hrest : (t.erase j).get? k = some b := by rw [get?_erase, if_neg hne.symm, hk]
  have hle := le_sum_of_get? hrest f
  rw [sum_of_get? hj]
  omega

theorem exists_of_sum_pos {f : α → ℕ} (h : 0 < t.sum f) :
    ∃ a, t.get? (key a) = some a ∧ 0 < f a := by
  by_contra hnone
  push Not at hnone
  have hzero : t.sum f = 0 := by
    apply List.sum_eq_zero
    intro n hn
    obtain ⟨a, ha, rfl⟩ := List.mem_map.mp hn
    exact Nat.le_zero.mp (hnone a (get?_of_mem ha))
  omega

end MumbleRuntime.Library.Table
