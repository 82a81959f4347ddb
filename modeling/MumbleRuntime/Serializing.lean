import MumbleRuntime.Library.Transition

/-!
# The executor that runs callbacks one at a time

A call of `execute` that finds the queue unclaimed claims it and hands a drain to the
delegate. The claim ends when the drain finds the queue empty, when a task throws an
`Error` at it, and when the delegate refuses it; what is still queued then waits for the
next call. Any number of threads call `execute`, and a delegate may run the drain inside
its own `execute`.
-/

namespace MumbleRuntime.Controller
open Library List

/-- `scheduling` counts the calls that claimed the queue and still hold their drain,
`releasing` those an `Error` reached through the delegate, of which there were `rethrown`.
A drain is between two tasks or in one. -/
structure SerializingExecutor (τ : Type) where
  tasks : List τ := []
  running : Bool := false
  scheduling : ℕ := 0
  drains : List (Option τ) := []
  releasing : ℕ := 0
  rethrown : ℕ := 0
  setbacks : ℕ := 0
  submitted : List τ := []
  started : List τ := []

inductive ExecutorStep (τ : Type)
  | execute (command : τ)
  | submitted
  | refused
  | poll (drain : ℕ)
  | ran (drain : ℕ)
  | threw (drain : ℕ) (inline : Bool)
  | release

namespace SerializingExecutor

variable {τ : Type} {s s' : SerializingExecutor τ} {action : ExecutorStep τ}

def step (s : SerializingExecutor τ) : ExecutorStep τ → Option (SerializingExecutor τ)
  | .execute command =>
    some { s with
      tasks := s.tasks ++ [command]
      running := true
      scheduling := if s.running then s.scheduling else s.scheduling + 1
      submitted := s.submitted ++ [command] }
  | .submitted =>
    if s.scheduling = 0 then none
    else some { s with scheduling := s.scheduling - 1, drains := s.drains ++ [none] }
  | .refused =>
    if s.scheduling = 0 then none
    else some { s with
      running := false, scheduling := s.scheduling - 1, setbacks := s.setbacks + 1 }
  | .poll drain =>
    match s.drains[drain]?, s.tasks with
    | some none, [] => some { s with running := false, drains := s.drains.eraseIdx drain }
    | some none, task :: rest =>
      some { s with
        tasks := rest, drains := s.drains.set drain (some task), started := s.started ++ [task] }
    | _, _ => none
  -- A `RuntimeException` is reported and the drain goes on.
  | .ran drain =>
    match s.drains[drain]? with
    | some (some _) => some { s with drains := s.drains.set drain none }
    | _ => none
  -- Out of a drain run inside the delegate's `execute` an `Error` reaches the caller,
  -- which has not seen its drain submitted and releases the queue once more.
  | .threw drain inline =>
    match s.drains[drain]? with
    | some (some _) =>
      some { s with
        running := false
        drains := s.drains.eraseIdx drain
        releasing := s.releasing + inline.toNat
        rethrown := s.rethrown + inline.toNat
        setbacks := s.setbacks + 1 }
    | _ => none
  | .release =>
    if s.releasing = 0 then none
    else some { s with running := false, releasing := s.releasing - 1 }

structure Serial (s : SerializingExecutor τ) : Prop where
  claims : s.scheduling + s.drains.length + s.releasing ≤ s.running.toNat + s.rethrown
  claimed : s.rethrown = 0 → s.running = true → 0 < s.scheduling + s.drains.length
  counted : s.rethrown ≤ s.setbacks
  noticed : s.tasks ≠ [] → s.running = true ∨ 0 < s.setbacks
  order : s.started ++ s.tasks = s.submitted

theorem Serial.step (h : Serial s) (hstep : s.step action = some s') : Serial s' := by
  obtain ⟨hclaims, hclaimed, hcounted, hnoticed, horder⟩ := h
  have hle := s.running.toNat_le
  have hgone : ∀ {drain task}, s.drains[drain]? = some task →
      (s.drains.eraseIdx drain).length + 1 = s.drains.length := fun hget =>
    length_eraseIdx_add_one (List.getElem?_eq_some_iff.mp hget).1
  cases action with simp only [SerializingExecutor.step, Option.ite_none_left_eq_some] at hstep
  | execute command =>
    cases hstep
    refine ⟨?_, fun _ _ => ?_, hcounted, fun _ => .inl rfl, by simp [← horder]⟩ <;>
      cases hrun : s.running <;> simp [hrun] at * <;> omega
  | submitted =>
    obtain ⟨hsome, ⟨⟩⟩ := hstep
    refine ⟨?_, fun _ _ => ?_, hcounted, hnoticed, horder⟩ <;> simp <;> omega
  | refused =>
    obtain ⟨hsome, ⟨⟩⟩ := hstep
    exact ⟨by simp; omega, by simp, by simp; omega, fun _ => .inr (Nat.succ_pos _), horder⟩
  | poll drain =>
    split at hstep <;> cases hstep
    · rename_i hget hempty
      have := hgone hget
      exact ⟨by simp; omega, by simp, hcounted, fun hne => absurd hempty hne, horder⟩
    · rename_i hget hqueue
      exact ⟨by simpa using hclaims, by simpa using hclaimed, hcounted,
        fun _ => hnoticed (by simp [hqueue]), by simp [← horder, hqueue]⟩
  | ran drain =>
    split at hstep <;> cases hstep
    exact ⟨by simpa using hclaims, by simpa using hclaimed, hcounted, hnoticed, horder⟩
  | threw drain inline =>
    split at hstep <;> cases hstep
    rename_i hget
    have := hgone hget
    have := inline.toNat_le
    exact ⟨by simp; omega, by simp, by simp; omega, fun _ => .inr (Nat.succ_pos _), horder⟩
  | release =>
    obtain ⟨hsome, ⟨⟩⟩ := hstep
    -- A release that is still to come is that of an `Error`, so there was one.
    have hpos : 0 < s.rethrown := by
      cases hrun : s.running
      · simp only [hrun, Bool.toNat_false] at hclaims
        omega
      · by_contra hzero
        have := hclaimed (by omega) hrun
        omega
    exact ⟨by simp; omega, by simp, hcounted, fun _ => .inr (by simp; omega), horder⟩

def rethrowing : List (ExecutorStep ℕ) :=
  [.execute 0, .submitted, .poll 0, .threw 0 true, .execute 1, .submitted, .poll 0, .release,
    .execute 2, .submitted, .poll 1]

end SerializingExecutor

end MumbleRuntime.Controller
