import Mathlib.Data.List.Basic
import Mathlib.Data.Option.Basic
import Mathlib.Logic.Relation

/-!
# Runs whose steps are allowed

A system takes partial steps, each named by an action. The states reached by
steps that meet a condition on the state before them are closed under it, so an
invariant is proved once for the start and once for an allowed step. The same is
said of the closure of a relation whose steps need a condition that they keep.
-/

namespace MumbleRuntime.Library

variable {σ α : Type*} (step : σ → α → Option σ) (allowed : σ → α → Prop) (start : σ)

/-- The states reached from `start` by allowed steps. -/
inductive Reaches : σ → Prop
  | start : Reaches start
  | step {s s' : σ} {a : α} : Reaches s → allowed s a → step s a = some s' → Reaches s'

def runActions : σ → List α → Option σ
  | s, [] => some s
  | s, a :: rest => (step s a).bind fun s' => runActions s' rest

def AllAllowed : σ → List α → Prop
  | _, [] => True
  | s, a :: rest => allowed s a ∧ ∀ s', step s a = some s' → AllAllowed s' rest

variable {step allowed start}

theorem Reaches.invariant {P : σ → Prop} (hstart : P start)
    (hstep : ∀ s a s', P s → allowed s a → step s a = some s' → P s') {s : σ}
    (h : Reaches step allowed start s) : P s := by
  induction h with
  | start => exact hstart
  | step _ hallow htkn ih => exact hstep _ _ _ ih hallow htkn

theorem Reaches.mono {allowed' : σ → α → Prop} (hsub : ∀ s a, allowed s a → allowed' s a) {s : σ}
    (h : Reaches step allowed start s) : Reaches step allowed' start s := by
  induction h with
  | start => exact .start
  | step _ hallow htkn ih => exact .step ih (hsub _ _ hallow) htkn

variable {actions : List α}

theorem Reaches.append {s s' : σ} (h : Reaches step allowed start s)
    (hrun : runActions step s actions = some s') (hallow : AllAllowed step allowed s actions) :
    Reaches step allowed start s' := by
  induction actions generalizing s with
  | nil =>
    cases hrun
    exact h
  | cons a rest ih =>
    obtain ⟨middle, hstep, hrest⟩ := Option.bind_eq_some_iff.mp hrun
    exact ih (.step h hallow.1 hstep) hrest (hallow.2 middle hstep)

instance decidableAllAllowed [∀ s a, Decidable (allowed s a)] :
    ∀ (s : σ) (actions : List α), Decidable (AllAllowed step allowed s actions)
  | _, [] => .isTrue trivial
  | s, a :: rest =>
    match h : step s a with
    | none =>
      decidable_of_iff (allowed s a)
        ⟨fun hallowed => ⟨hallowed, fun s' hstep => by simp [h] at hstep⟩, And.left⟩
    | some s' =>
      have := decidableAllAllowed s' rest
      decidable_of_iff (allowed s a ∧ AllAllowed step allowed s' rest)
        ⟨fun ⟨hallowed, hrest⟩ => ⟨hallowed, fun s'' hstep => by
          rw [h] at hstep
          cases hstep
          exact hrest⟩,
        fun ⟨hallowed, hrest⟩ => ⟨hallowed, hrest s' h⟩⟩

theorem allAllowed_of_forall (h : ∀ s, ∀ a ∈ actions, allowed s a) (s : σ) :
    AllAllowed step allowed s actions := by
  induction actions generalizing s with
  | nil => trivial
  | cons a rest ih =>
    exact ⟨h s a List.mem_cons_self, fun s' _ => ih (fun s b hb => h s b (List.mem_cons_of_mem _ hb)) s'⟩

theorem allAllowed_true (s : σ) (actions : List α) : AllAllowed step (fun _ _ => True) s actions :=
  allAllowed_of_forall (fun _ _ _ => trivial) s

theorem eq_some_getD {o : Option σ} {default : σ} (h : o.isSome = true) :
    o = some (o.getD default) := by
  cases o with
  | none => cases h
  | some s => rfl

theorem reaches_of_run {s : σ} (hrun : runActions step start actions = some s)
    (hallow : AllAllowed step allowed start actions) : Reaches step allowed start s :=
  Reaches.append .start hrun hallow

theorem reaches_getD {default : σ} (h : (runActions step start actions).isSome = true ∧
    AllAllowed step allowed start actions) :
    Reaches step allowed start ((runActions step start actions).getD default) :=
  reaches_of_run (eq_some_getD h.1) h.2

section Closure

open Relation

variable {r : σ → σ → Prop} {P Q : σ → Prop} {s s' : σ}

theorem reflTransGen_invariant (h : ReflTransGen r s s')
    (hkept : ∀ {s'}, ReflTransGen r s s' → Q s')
    (hstep : ∀ s s', r s s' → Q s → P s → P s') (hstart : P s) : P s' := by
  induction h with
  | refl => exact hstart
  | tail hsteps hlast ih => exact hstep _ _ hlast (hkept hsteps) ih

theorem reflTransGen_foldl {f : σ → α → σ} (items : List α)
    (hkept : ∀ {s s'}, ReflTransGen r s s' → Q s → Q s')
    (hstep : ∀ s, ∀ item ∈ items, Q s → ReflTransGen r s (f s item)) (hstart : Q s) :
    ReflTransGen r s (items.foldl f s) := by
  induction items generalizing s with
  | nil => exact .refl
  | cons item items ih =>
    have hfst := hstep s item List.mem_cons_self hstart
    refine hfst.trans (ih (fun s other hoth => ?_) (hkept hfst hstart))
    exact hstep s other (List.mem_cons_of_mem _ hoth)

end Closure

end MumbleRuntime.Library
