import MumbleRuntime.Library.CellWrites

/-!
# Drops come last

A settled batch never writes to a cell after dropping it: a batch that sets the
cell has no drop left, and without a set what is dropped stays hidden for the
rest of the history. Every write that stays says where its content stands, at
the end of a step or at its beginning.
-/

namespace MumbleRuntime.Library

open List

namespace Write

variable {δ : Type*}

def DropsLast (writes : List (Write δ)) : Prop :=
  writes.Pairwise fun earlier later => earlier.isDrop = true → later.isDrop = true

variable {writes : List (Write δ)}

theorem dropsLast_of_no_drop (h : ∀ write ∈ writes, write.isDrop = false) : DropsLast writes := by
  refine List.Pairwise.imp_of_mem (R := fun _ _ => True) ?_ (pairwise_of_forall fun _ _ => trivial)
  intro earlier later hearlier _ _ hdrop
  rw [h earlier hearlier] at hdrop
  cases hdrop

theorem dropsLast_of_drops (h : ∀ write ∈ writes, write.isDrop = true) : DropsLast writes := by
  refine List.Pairwise.imp_of_mem (R := fun _ _ => True) ?_ (pairwise_of_forall fun _ _ => trivial)
  intro earlier later _ hlat _ _
  exact h later hlat

theorem DropsLast.append {more : List (Write δ)} (h : ∀ write ∈ writes, write.isDrop = false)
    (hmore : DropsLast more) : DropsLast (writes ++ more) := by
  refine pairwise_append.mpr ⟨dropsLast_of_no_drop h, hmore, ?_⟩
  intro earlier hearlier later _ hdrop
  rw [h earlier hearlier] at hdrop
  cases hdrop

theorem mem_of_mem_settle {write : Write δ} (h : write ∈ settle writes) : write ∈ writes := by
  unfold settle at h
  split_ifs at h
  · exact (mem_filter.mp h).1
  · exact h

theorem dropsLast_settle (h : writes.any isSet = false → DropsLast writes) :
    DropsLast (settle writes) := by
  cases hset : writes.any isSet with
  | true =>
    rw [settle_of_isSet hset]
    exact dropsLast_of_no_drop fun write hwr => by simpa using (mem_filter.mp hwr).2
  | false =>
    rw [settle_of_no_isSet hset]
    exact h hset

end Write

namespace Diff

open Write

variable {α δ φ ν : Type*} (D : Diff α δ φ ν) (same : α → α → Bool) (keep : α → Bool)

def writesOf (step : Option α × Option α) : List (Write δ) :=
  D.arrivals same keep step ++ D.departures same keep step

variable {D same keep}

variable {write : Write δ} {step : Option α × Option α} {first last : Option α}

theorem kept_of_mem_writesOf (h : write ∈ D.writesOf same keep step) :
    (write.isDrop = false → step.2.any keep = true) ∧
      (write.isDrop = true → disappears same keep step = true) := by
  rcases mem_append.mp h with harrival | hdeparture
  · have hdrop : write.isDrop = false := by
      simpa using any_eq_false.mp (arrivals_isDrop step) write harrival
    refine ⟨fun _ => ?_, fun hisDrop => ?_⟩
    · by_contra hnot
      rw [arrivals_nil (by simpa using hnot)] at harrival
      cases harrival
    · rw [hdrop] at hisDrop
      cases hisDrop
  · unfold departures at hdeparture
    split_ifs at hdeparture with hdis
    · obtain rfl := mem_singleton.mp hdeparture
      exact ⟨fun hisDrop => (by cases hisDrop), fun _ => hdis⟩
    · cases hdeparture

theorem any_of_disappears (h : disappears same keep step = true) : step.1.any keep = true := by
  rcases step with ⟨_ | old, _ | new⟩
  · cases h
  · cases h
  · exact h
  · have hboth : keep old = true ∧ same old new = false := by simpa [disappears] using h
    exact hboth.1

theorem hidden_of_disappears
    (hdis : disappears same keep step = true) (happr : appears same keep step = false) :
    step.2.any keep = false := by
  rcases step with ⟨_ | old, _ | new⟩
  · rfl
  · cases hdis
  · rfl
  · have hboth : keep old = true ∧ same old new = false := by simpa [disappears] using hdis
    simpa [appears, hboth.2] using happr

variable {own : Option α × Option α}

theorem departure_own (h : write ∈ D.departures (fun _ _ => true) (fun _ => true) own) :
    write.isDrop = true ∧ own.1.isSome = true := by
  unfold departures at h
  split_ifs at h with hdis
  · obtain rfl := mem_singleton.mp h
    refine ⟨rfl, ?_⟩
    rcases own with ⟨_ | old, new⟩
    · cases hdis
    · rfl
  · cases h

theorem gone_of_mem_settle
    (h : write ∈ settle (D.writesOf same keep step)) (hdrop : write.isDrop = true) :
    step.1.any keep = true ∧ step.2.any keep = false := by
  have hdis := (kept_of_mem_writesOf (mem_of_mem_settle h)).2 hdrop
  refine ⟨any_of_disappears hdis, hidden_of_disappears hdis ?_⟩
  cases happr : appears same keep step with
  | false => rfl
  | true =>
    have hset : (D.writesOf same keep step).any isSet = true := by
      rw [writesOf, any_append, arrivals_isSet, happr, Bool.true_or]
    rw [settle_of_isSet hset] at h
    have hkept := (mem_filter.mp h).2
    rw [hdrop] at hkept
    cases hkept

theorem writesOf_nil (hhidden : step.2.any keep = false)
    (hstays : disappears same keep step = false) : D.writesOf same keep step = [] := by
  simp [writesOf, arrivals_nil hhidden, departures, hstays]

variable {steps : List (Option α × Option α)}

variable (hkeep : ∀ old new, same old new = true → keep old = keep new)

include hkeep in
theorem chain_writes_nil (hchn : Chain first steps last)
    (happr : ∀ step ∈ steps, appears same keep step = false) (hfst : first.any keep = false) :
    steps.flatMap (D.writesOf same keep) = [] := by
  rw [flatMap_eq_nil_iff]
  intro step hstep
  obtain ⟨hhidden, hstays⟩ := (chain_hidden hkeep hchn happr hfst).1 step hstep
  exact writesOf_nil hhidden hstays

include hkeep in
theorem chain_dropsLast (hchn : Chain first steps last)
    (happr : ∀ step ∈ steps, appears same keep step = false) :
    DropsLast (steps.flatMap (D.writesOf same keep)) := by
  induction steps generalizing first with
  | nil => exact List.Pairwise.nil
  | cons step rest ih =>
    obtain ⟨rfl, hrest⟩ := hchn
    have hstep := happr step mem_cons_self
    have haft : ∀ s ∈ rest, appears same keep s = false :=
      fun s hs => happr s (mem_cons_of_mem _ hs)
    rw [flatMap_cons]
    cases hdis : disappears same keep step with
    | true =>
      have hnone := chain_writes_nil (D := D) hkeep hrest haft (hidden_of_disappears hdis hstep)
      rw [hnone, append_nil]
      exact DropsLast.append (fun write hwr => (arrivals_patches hstep write hwr).2)
        (dropsLast_of_drops fun write hwr => by simp_all [departures, isDrop])
    | false =>
      refine DropsLast.append ?_ (ih hrest haft)
      intro write hwr
      have hkept := kept_of_mem_writesOf hwr
      by_contra hdrop
      rw [hkept.2 (by simpa using hdrop)] at hdis
      cases hdis

theorem own_dropsLast (happr : appears (fun _ _ => true) (fun _ => true) own = false) :
    DropsLast (D.departures (fun _ _ => true) (fun _ => true) own ++
      D.arrivals (fun _ _ => true) (fun _ => true) own) := by
  rcases own with ⟨_ | old, _ | new⟩
  · exact List.Pairwise.nil
  · cases happr
  · exact dropsLast_of_drops fun write hwr => by simp_all [departures, arrivals, disappears, isDrop]
  · refine dropsLast_of_no_drop fun write hwr => ?_
    have hdepartures : D.departures (fun _ _ => true) (fun _ => true) (some old, some new) = [] := by
      simp [departures, disappears]
    exact (arrivals_patches happr write hwr).2

include hkeep in
theorem splice_dropsLast (hchn : Chain first steps last)
    (hxor : own.1.isSome = true → first.any keep = false) {front back : List (Write δ)}
    (hspl : front ++ back = steps.flatMap (D.writesOf same keep)) :
    DropsLast (settle (front ++ D.departures (fun _ _ => true) (fun _ => true) own ++
      D.arrivals (fun _ _ => true) (fun _ => true) own ++ back)) := by
  refine dropsLast_settle fun hset => ?_
  simp only [any_append, Bool.or_eq_false_iff] at hset
  obtain ⟨⟨⟨hfront, -⟩, hown⟩, hback⟩ := hset
  rw [arrivals_isSet] at hown
  have happr : ∀ step ∈ steps, appears same keep step = false := by
    have hshr : (steps.flatMap (D.writesOf same keep)).any isSet = false := by
      rw [← hspl, any_append, hfront, hback]
      rfl
    intro step hstep
    rw [any_flatMap, any_eq_false] at hshr
    have hnone := hshr step hstep
    rw [writesOf, any_append, arrivals_isSet] at hnone
    simp_all
  cases hsome : own.1.isSome with
  | true =>
    have hnil := hspl.trans (chain_writes_nil (D := D) hkeep hchn happr (hxor hsome))
    obtain ⟨rfl, rfl⟩ := append_eq_nil_iff.mp hnil
    simpa using own_dropsLast (D := D) hown
  | false =>
    have hnth : own = (none, none) := by
      rcases own with ⟨_ | old, _ | new⟩
      · rfl
      · cases hown
      · cases hsome
      · cases hsome
    subst hnth
    have hsame : front ++ D.departures (fun _ _ => true) (fun _ => true) (none, none) ++
        D.arrivals (fun _ _ => true) (fun _ => true) (none, none) ++ back = front ++ back := by
      simp [departures, arrivals, disappears]
    rw [hsame, hspl]
    exact chain_dropsLast hkeep hchn happr

end Diff

end MumbleRuntime.Library
