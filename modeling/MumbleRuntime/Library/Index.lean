import Mathlib.Data.Option.Basic
import Mathlib.Tactic.SplitIfs

/-!
# Lookups kept in both directions

A holder has at most one key and an index finds the holder of a key. The index is
right when it finds exactly the holders; giving a key to a holder, taking a
holder's key and withdrawing a key each update both sides.
-/

namespace MumbleRuntime.Library

variable {κ ι : Type*}

def Indexes (find : κ → Option ι) (held : ι → Option κ) : Prop :=
  ∀ k i, find k = some i ↔ held i = some k

namespace Indexes

variable {find : κ → Option ι} {held : ι → Option κ}

theorem held_inj (h : Indexes find held) {k : κ} {i j : ι} (hi : held i = some k)
    (hj : held j = some k) : i = j :=
  Option.some.inj (((h k i).mpr hi).symm.trans ((h k j).mpr hj))

variable [DecidableEq κ] [DecidableEq ι]

theorem clear (h : Indexes find held) (i : ι) :
    Indexes (fun k => if held i = some k then none else find k)
      (fun j => if j = i then none else held j) := by
  intro k j
  dsimp only
  by_cases hj : j = i
  · subst hj
    rw [if_pos rfl]
    split_ifs with hheld
    · simp
    · rw [h]
      simp [hheld]
  · split_ifs with hheld
    · have hne : held j ≠ some k := fun heq => hj (h.held_inj heq hheld)
      simp [hne]
    · exact h k j

theorem assign (h : Indexes find held) {k : κ} {i : ι} (hfree : ∀ j, find k = some j → j = i) :
    Indexes (fun k' => if k' = k then some i else if held i = some k' then none else find k')
      (fun j => if j = i then some k else held j) := by
  intro k' j
  have hclear := h.clear i k' j
  dsimp only at hclear ⊢
  by_cases hk : k' = k
  · subst hk
    by_cases hj : j = i
    · simp [hj]
    · have hne : held j ≠ some k' := fun heq => hj (hfree j ((h k' j).mpr heq))
      simp [hj, hne, Ne.symm hj]
  · rw [if_neg hk, hclear]
    by_cases hj : j = i
    · simp [hj, Ne.symm hk]
    · simp [hj]

omit [DecidableEq ι] in
theorem withdraw (h : Indexes find held) (k : κ) :
    Indexes (fun k' => if k' = k then none else find k')
      (fun j => if held j = some k then none else held j) := by
  intro k' j
  dsimp only
  by_cases hk : k' = k
  · subst hk
    rw [if_pos rfl]
    split_ifs with hheld
    · simp
    · simp [hheld]
  · rw [if_neg hk, h]
    split_ifs with hheld
    · simp [hheld, Ne.symm hk]
    · rfl

end Indexes

end MumbleRuntime.Library
