import MumbleRuntime.Library.OrderedTable
import Mathlib.Data.List.Lex
import Mathlib.Order.Lattice

/-!
# Scopes: positions in the visibility tree

A scope is a path of at most four segments. A connection observes at most four
scopes and sees an element when one of them is comparable to the element's,
that is, when one of the two paths is a prefix of the other. The observed set is
kept sorted and without repetition, so equality of observations is set equality.

The closure argument of the whole design is `ScopeSet.sees_of_prefix`: whoever
sees a scope sees every prefix of it.
-/

namespace MumbleRuntime
open Library

/-- `MAX_DEPTH`: how deep a scope path may go. -/
def maxDepth : ℕ := 4

/-- `MAX_OBSERVED`: how many scopes one connection may observe at once. -/
def maxObserved : ℕ := 4

structure Scope where
  segments : List ℕ
  bounded : segments.length ≤ maxDepth
  deriving DecidableEq

namespace Scope

theorem segments_injective : Function.Injective Scope.segments := by
  intro a b h
  cases a
  cases b
  cases h
  rfl

instance : LinearOrder Scope := LinearOrder.lift' Scope.segments segments_injective

def root : Scope := ⟨[], by decide⟩

instance : Inhabited Scope := ⟨root⟩

def depth (s : Scope) : ℕ := s.segments.length

/-- Extend by one segment, refusing past `maxDepth`. -/
def child (s : Scope) (segment : ℕ) : Option Scope :=
  if h : s.segments.length < maxDepth then
    some ⟨s.segments ++ [segment], by simpa [Nat.succ_le_iff] using h⟩
  else none

def isPrefixOf (s other : Scope) : Bool := s.segments.isPrefixOf other.segments

def comparable (s other : Scope) : Bool := s.isPrefixOf other || other.isPrefixOf s

theorem isPrefixOf_iff {s u : Scope} : s.isPrefixOf u = true ↔ s.segments <+: u.segments :=
  List.isPrefixOf_iff_prefix

theorem isPrefixOf_refl (s : Scope) : s.isPrefixOf s = true :=
  isPrefixOf_iff.mpr (List.prefix_refl _)

theorem isPrefixOf_trans {s u v : Scope} (h₁ : s.isPrefixOf u = true) (h₂ : u.isPrefixOf v = true) :
    s.isPrefixOf v = true :=
  isPrefixOf_iff.mpr ((isPrefixOf_iff.mp h₁).trans (isPrefixOf_iff.mp h₂))

theorem root_isPrefixOf (s : Scope) : root.isPrefixOf s = true :=
  isPrefixOf_iff.mpr (List.nil_prefix)

theorem isPrefixOf_child {s u : Scope} {segment : ℕ} (h : s.child segment = some u) :
    s.isPrefixOf u = true := by
  unfold child at h
  split_ifs at h
  cases h
  exact isPrefixOf_iff.mpr (List.prefix_append _ _)

theorem comparable_of_prefix {c u s : Scope} (hc : c.isPrefixOf u = true)
    (hu : u.comparable s = true) : c.comparable s = true := by
  simp only [comparable, Bool.or_eq_true] at hu ⊢
  rcases hu with h | h
  · exact Or.inl (isPrefixOf_trans hc h)
  · have hpre := List.prefix_or_prefix_of_prefix (isPrefixOf_iff.mp hc) (isPrefixOf_iff.mp h)
    exact hpre.imp isPrefixOf_iff.mpr isPrefixOf_iff.mpr

end Scope

/-- `TooManyScopes`: more than `maxObserved` distinct scopes were given. -/
structure TooManyScopes where
  requested : ℕ
  deriving DecidableEq

/-- What one connection observes of the shared view. -/
structure ScopeSet where
  scopes : OrderedSet Scope
  bounded : scopes.rows.length ≤ maxObserved
  deriving DecidableEq

namespace ScopeSet

def none : ScopeSet := ⟨Table.empty, by decide⟩

instance : Inhabited ScopeSet := ⟨none⟩

def new (scopes : List Scope) : Except TooManyScopes ScopeSet :=
  let sorted : OrderedSet Scope := Table.ofList scopes
  if h : sorted.rows.length ≤ maxObserved then .ok ⟨sorted, h⟩
  else .error ⟨sorted.rows.length⟩

def sees (see : ScopeSet) (element : Scope) : Bool :=
  see.scopes.rows.any (fun observed => element.comparable observed)

def isEmpty (see : ScopeSet) : Bool := see.scopes.isEmpty

@[simp] theorem none_sees (s : Scope) : none.sees s = false := rfl

theorem sees_of_prefix {see : ScopeSet} {c u : Scope} (hc : c.isPrefixOf u = true)
    (hu : see.sees u = true) : see.sees c = true := by
  simp only [sees, List.any_eq_true] at hu ⊢
  obtain ⟨s, hs, hcmp⟩ := hu
  exact ⟨s, hs, Scope.comparable_of_prefix hc hcmp⟩

theorem sees_root {see : ScopeSet} (h : see.isEmpty = false) : see.sees Scope.root = true := by
  cases hrows : see.scopes.rows with
  | nil => simp [isEmpty, Table.isEmpty, hrows] at h
  | cons s rest => simp [sees, hrows, Scope.comparable, Scope.root_isPrefixOf]

end ScopeSet

end MumbleRuntime
