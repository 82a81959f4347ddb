import Mathlib.Data.List.Basic
import Mathlib.Data.Option.Basic

/-!
# Histories of writes to one cell

A cell holds at most one value and is written by setting it, patching it or
dropping it. A batch of writes is settled by forgetting its drops as soon as it
contains a set.

A diff turns two successive contents into writes: the patches of what stays, a
set for what appears, a drop for what disappears. What a patch does is said field
by field: it writes the fields in which the two contents differ and leaves the
others alone. From this one law follow convergence along a history of contents,
and the exact effect of a history on a cell it was not computed for.
-/

namespace MumbleRuntime.Library

open List
open Option hiding any_eq_false any_eq_true any_filter any_map

inductive Write (δ : Type*)
  | set (value : δ)
  | patch (change : δ → δ)
  | drop

namespace Write

variable {δ : Type*}

def run : Write δ → Option δ → Option δ
  | set value, _ => some value
  | patch change, cell => cell.map change
  | drop, _ => none

def runAll (writes : List (Write δ)) (cell : Option δ) : Option δ :=
  writes.foldl (fun cell write => write.run cell) cell

def isSet : Write δ → Bool
  | set _ => true
  | _ => false

def isDrop : Write δ → Bool
  | drop => true
  | _ => false

def settle (writes : List (Write δ)) : List (Write δ) :=
  if writes.any isSet then writes.filter (fun write => !write.isDrop) else writes

def Simple (cell : Option δ) (writes : List (Write δ)) : Prop :=
  (∀ write ∈ writes, write.isDrop = true) ∨ (∃ value, writes = [set value]) ∨
    (cell.isSome = true ∧ ∀ write ∈ writes, write.isSet = false ∧ write.isDrop = false)

theorem runAll_append (writes more : List (Write δ)) (cell : Option δ) :
    runAll (writes ++ more) cell = runAll more (runAll writes cell) :=
  foldl_append

variable {writes : List (Write δ)}

theorem runAll_none (hset : writes.any isSet = false) : runAll writes none = none := by
  induction writes with
  | nil => rfl
  | cons write rest ih =>
    simp only [any_cons, Bool.or_eq_false_iff] at hset
    have hstep : write.run none = none := by
      cases write with
      | set value => simp [isSet] at hset
      | patch change => rfl
      | drop => rfl
    change runAll rest (write.run none) = none
    rw [hstep]
    exact ih hset.2

theorem runAll_drop (hset : writes.any isSet = false) (hdrop : writes.any isDrop = true)
    (cell : Option δ) : runAll writes cell = none := by
  induction writes generalizing cell with
  | nil => simp at hdrop
  | cons write rest ih =>
    simp only [any_cons, Bool.or_eq_false_iff] at hset
    cases write with
    | set value => simp [isSet] at hset
    | patch change => exact ih hset.2 (by simpa [isDrop] using hdrop) _
    | drop => exact runAll_none hset.2

theorem runAll_isSome (hdrop : writes.any isDrop = false) {cell : Option δ}
    (h : writes.any isSet = true ∨ cell.isSome = true) : (runAll writes cell).isSome = true := by
  induction writes generalizing cell with
  | nil => simpa [runAll] using h
  | cons write rest ih =>
    simp only [any_cons, Bool.or_eq_false_iff] at hdrop
    apply ih hdrop.2
    cases write with
    | set value => exact Or.inr rfl
    | patch change => simpa [isSet, run] using h
    | drop => simp [isDrop] at hdrop

theorem any_isSet_filter (writes : List (Write δ)) :
    (writes.filter fun write => !write.isDrop).any isSet = writes.any isSet := by
  rw [any_filter]
  congr 1
  funext write
  cases write <;> rfl

theorem settle_of_isSet (hset : writes.any isSet = true) :
    settle writes = writes.filter fun write => !write.isDrop :=
  if_pos hset

theorem settle_of_no_isSet (hset : writes.any isSet = false) : settle writes = writes := by
  rw [settle, hset]
  rfl

theorem settle_of_no_isDrop (hdrop : writes.any isDrop = false) :
    settle writes = writes.filter fun write => !write.isDrop := by
  have hall : (writes.filter fun write => !write.isDrop) = writes := by
    rw [filter_eq_self]
    intro write hwr
    simpa using any_eq_false.mp hdrop write hwr
  unfold settle
  split_ifs
  · rfl
  · exact hall.symm

theorem runAll_map_patch (changes : List (δ → δ)) (value : δ) :
    runAll (changes.map patch) (some value) =
      some (changes.foldl (fun value change => change value) value) := by
  induction changes generalizing value with
  | nil => rfl
  | cons change rest ih => exact ih (change value)

end Write

open Write

/-- How contents are shown in a cell and how one content is patched into the
next, with the fields a shown value consists of. -/
structure Diff (α δ φ ν : Type*) where
  shown : α → δ
  patches : α → α → List (δ → δ)
  field : δ → φ → ν
  field_ext : ∀ a b, (∀ f, field a f = field b f) → a = b

namespace Diff

variable {α δ φ ν : Type*} (D : Diff α δ φ ν)

def patched (old new : α) (value : δ) : δ :=
  (D.patches old new).foldl (fun value change => change value) value

/-- A patch between contents `P` holds of writes exactly the fields in which
they differ. -/
def Lawful (P : α → Prop) : Prop :=
  ∀ old new, P old → P new → ∀ value f,
    (D.field (D.shown old) f = D.field (D.shown new) f →
      D.field (D.patched old new value) f = D.field value f) ∧
    (D.field (D.shown old) f ≠ D.field (D.shown new) f →
      D.field (D.patched old new value) f = D.field (D.shown new) f)

variable {P : α → Prop}

variable {D} in
theorem Lawful.patched_shown (h : D.Lawful P) {old new : α} (hold : P old) (hnew : P new) :
    D.patched old new (D.shown old) = D.shown new := by
  apply D.field_ext
  intro f
  by_cases heq : D.field (D.shown old) f = D.field (D.shown new) f
  · exact ((h old new hold hnew _ f).1 heq).trans heq
  · exact (h old new hold hnew _ f).2 heq

variable (same : α → α → Bool) (keep : α → Bool)

def arrivals : Option α × Option α → List (Write δ)
  | (_, none) => []
  | (none, some new) => if keep new then [.set (D.shown new)] else []
  | (some old, some new) =>
    if keep new then
      if same old new then (D.patches old new).map .patch else [.set (D.shown new)]
    else []

def appears : Option α × Option α → Bool
  | (_, none) => false
  | (none, some new) => keep new
  | (some old, some new) => keep new && !same old new

def disappears : Option α × Option α → Bool
  | (none, _) => false
  | (some old, none) => keep old
  | (some old, some new) => keep old && !same old new

def departures (_ : Diff α δ φ ν) (step : Option α × Option α) : List (Write δ) :=
  if disappears same keep step then [.drop] else []

def Chain : Option α → List (Option α × Option α) → Option α → Prop
  | first, [], last => first = last
  | first, step :: rest, last => step.1 = first ∧ Chain step.2 rest last

def stepHolds (P : α → Prop) (step : Option α × Option α) : Prop :=
  (∀ a, step.1 = some a → P a) ∧ ∀ a, step.2 = some a → P a

variable {D same keep}

section

variable (step : Option α × Option α)

include step

theorem arrivals_isDrop : (D.arrivals same keep step).any isDrop = false := by
  rw [any_eq_false]
  intro write hwr
  rcases step with ⟨_ | old, _ | new⟩
  · simp [arrivals] at hwr
  · simp only [arrivals] at hwr
    split_ifs at hwr <;> simp_all [isDrop]
  · simp [arrivals] at hwr
  · simp only [arrivals] at hwr
    split_ifs at hwr
    · obtain ⟨change, -, rfl⟩ := mem_map.mp hwr
      simp [isDrop]
    · simp_all [isDrop]
    · simp at hwr

theorem filter_arrivals :
    (D.arrivals same keep step).filter
    (fun write => !write.isDrop) = D.arrivals same keep step := by
  rw [filter_eq_self]
  intro write hwr
  simpa using any_eq_false.mp (arrivals_isDrop step) write hwr

theorem filter_departures :
    (D.departures same keep step).filter (fun write => !write.isDrop) = [] := by
  unfold departures
  split_ifs <;> simp [isDrop]

theorem departures_isDrop :
    (D.departures same keep step).any isDrop = disappears same keep step := by
  unfold departures
  split_ifs with h <;> simp [isDrop, h]

theorem arrivals_isSet : (D.arrivals same keep step).any isSet = appears same keep step := by
  rcases step with ⟨_ | old, _ | new⟩
  · rfl
  · cases hkeep : keep new <;> simp [arrivals, appears, hkeep, isSet]
  · rfl
  · cases hkeep : keep new <;> cases hsame : same old new <;>
      simp [arrivals, appears, hkeep, hsame, isSet, any_map, Function.comp_def]

end

variable {first last : Option α} {step : Option α × Option α} {cell : Option δ}

theorem arrivals_shown (hlaw : D.Lawful P)
    (hkeep : ∀ old new, same old new = true → keep old = keep new)
    (hP : stepHolds P step)
    (hcell : ∀ a, step.1 = some a → keep a = true → cell = some (D.shown a)) :
    ∀ a, step.2 = some a → keep a = true →
      runAll (D.arrivals same keep step) cell = some (D.shown a) := by
  intro new hnew hkept
  rcases step with ⟨_ | old, after⟩
  · cases hnew
    simp [arrivals, hkept, runAll, run]
  · cases hnew
    cases hsame : same old new with
    | true =>
      have hold := hcell old rfl ((hkeep old new hsame).trans hkept)
      simp only [arrivals, hkept, hsame, if_true, hold, runAll_map_patch]
      exact congrArg some (hlaw.patched_shown (hP.1 old rfl) (hP.2 new rfl))
    | false => simp [arrivals, hkept, hsame, runAll, run]

variable {steps : List (Option α × Option α)}

theorem chain_shown (hlaw : D.Lawful P)
    (hkeep : ∀ old new, same old new = true → keep old = keep new)
    (hchn : Chain first steps last) (hP : ∀ step ∈ steps, stepHolds P step)
    (hcell : ∀ a, first = some a → keep a = true → cell = some (D.shown a)) :
    ∀ a, last = some a → keep a = true →
      runAll (steps.flatMap (D.arrivals same keep)) cell = some (D.shown a) := by
  induction steps generalizing first cell with
  | nil =>
    cases hchn
    exact hcell
  | cons step rest ih =>
    obtain ⟨rfl, hrest⟩ := hchn
    rw [flatMap_cons]
    intro a ha hkept
    rw [runAll_append]
    exact ih hrest (fun s hs => hP s (mem_cons_of_mem _ hs))
      (arrivals_shown hlaw hkeep (hP step mem_cons_self) hcell) a ha hkept

theorem arrivals_nil (h : step.2.any keep = false) : D.arrivals same keep step = [] := by
  rcases step with ⟨_ | old, _ | new⟩
  · rfl
  · have hnew : keep new = false := h
    simp [arrivals, hnew]
  · rfl
  · have hnew : keep new = false := h
    simp [arrivals, hnew]

section

variable (hkeep : ∀ old new, same old new = true → keep old = keep new)

include hkeep

theorem chain_hidden (hchn : Chain first steps last)
    (happr : ∀ step ∈ steps, appears same keep step = false) (hfst : first.any keep = false) :
    (∀ step ∈ steps, step.2.any keep = false ∧ disappears same keep step = false) ∧
      last.any keep = false := by
  induction steps generalizing first with
  | nil =>
    cases hchn
    exact ⟨by simp, hfst⟩
  | cons step rest ih =>
    obtain ⟨rfl, hrest⟩ := hchn
    have hstep := happr step mem_cons_self
    have hqt : step.2.any keep = false ∧ disappears same keep step = false := by
      rcases step with ⟨_ | old, _ | new⟩
      · exact ⟨rfl, rfl⟩
      · exact ⟨hstep, rfl⟩
      · exact ⟨rfl, hfst⟩
      · have hold : keep old = false := hfst
        have hnew : keep new = false := by
          cases hsame : same old new with
          | true => exact (hkeep old new hsame).symm.trans hold
          | false => simpa [appears, hsame] using hstep
        exact ⟨hnew, by simp [disappears, hold]⟩
    obtain ⟨hqt', hlast⟩ :=
      ih hrest (fun s hs => happr s (mem_cons_of_mem _ hs)) hqt.1
    refine ⟨?_, hlast⟩
    intro s hs
    rcases mem_cons.mp hs with rfl | hs
    · exact hqt
    · exact hqt' s hs

theorem chain_disappears (hchn : Chain first steps last) (hfst : first.any keep = true)
    (hlast : last.any keep = false) : ∃ step ∈ steps, disappears same keep step = true := by
  induction steps generalizing first with
  | nil =>
    cases hchn
    rw [hfst] at hlast
    cases hlast
  | cons step rest ih =>
    obtain ⟨rfl, hrest⟩ := hchn
    cases haft : step.2.any keep with
    | true =>
      obtain ⟨s, hs, hdis⟩ := ih hrest haft
      exact ⟨s, mem_cons_of_mem _ hs, hdis⟩
    | false =>
      refine ⟨step, mem_cons_self, ?_⟩
      rcases step with ⟨_ | old, _ | new⟩
      · cases hfst
      · cases hfst
      · exact hfst
      · have hold : keep old = true := hfst
        have hnew : keep new = false := haft
        cases hsame : same old new with
        | true =>
          rw [hkeep old new hsame, hnew] at hold
          cases hold
        | false => simp [disappears, hold, hsame]

theorem chain_stays (hchn : Chain first steps last)
    (happr : ∀ step ∈ steps, appears same keep step = false) (hlast : last.any keep = true) :
    ∀ step ∈ steps, disappears same keep step = false := by
  induction steps generalizing first with
  | nil => simp
  | cons step rest ih =>
    obtain ⟨-, hrest⟩ := hchn
    have happr' : ∀ s ∈ rest, appears same keep s = false :=
      fun s hs => happr s (mem_cons_of_mem _ hs)
    intro s hs
    rcases mem_cons.mp hs with rfl | hs
    · cases haft : s.2.any keep with
      | false =>
        have hsil := (chain_hidden hkeep hrest happr' haft).2
        rw [hlast] at hsil
        cases hsil
      | true =>
        rcases s with ⟨_ | old, _ | new⟩
        · rfl
        · rfl
        · cases haft
        · simp_all [appears, disappears]
    · exact ih hrest happr' s hs

end

variable (D same keep) in
/-- The writes of one cell when its private transition is spliced into a shared
history: the arrivals keep their order around the private ones. -/
structure Spliced (front back : List (Option α × Option α)) (own : Option α × Option α)
    (writes : List (Write δ)) : Prop where
  kept : (writes.filter fun write => !write.isDrop) =
    front.flatMap (D.arrivals same keep) ++
      D.arrivals (fun _ _ => true) (fun _ => true) own ++
      back.flatMap (D.arrivals same keep)
  dropped : writes.any isDrop =
    ((front ++ back).any (disappears same keep) ||
      disappears (fun _ _ => true) (fun _ => true) own)

variable (same keep) in
def NoGhost (steps : List (Option α × Option α)) (last : Option α) (own : Option α × Option α) :
    Prop :=
  own.2 = none → last.any keep = false → ∀ step ∈ steps, appears same keep step = false

variable {P : α → Prop} {front back : List (Option α × Option α)} {own : Option α × Option α}
  {writes : List (Write δ)}

variable (hkeep : ∀ old new, same old new = true → keep old = keep new)

section

variable (h : D.Spliced same keep front back own writes)

include h

theorem Spliced.isSet :
    writes.any isSet =
      ((front ++ back).any (appears same keep) ||
        appears (fun _ _ => true) (fun _ => true) own) := by
  rw [← any_isSet_filter, h.kept]
  simp only [any_append, any_flatMap, arrivals_isSet]
  cases front.any (appears same keep) <;> cases back.any (appears same keep) <;> simp

theorem Spliced.runAll_shared (hown : own.2 = none) (cell : Option δ) :
    runAll (writes.filter fun write => !write.isDrop) cell =
      runAll ((front ++ back).flatMap (D.arrivals same keep)) cell := by
  have harrive : D.arrivals (fun _ _ => true) (fun _ => true) own = [] := arrivals_nil (by simp [hown])
  rw [h.kept, harrive, append_nil, flatMap_append]

include hkeep in
theorem Spliced.settle_shared (hchn : Chain first (front ++ back) last)
    (hxor : own.1.isSome = true → first.any keep = false) (hown : own.2 = none)
    (hlast : last.any keep = true) :
    settle writes = writes.filter fun write => !write.isDrop := by
  cases hset : writes.any Write.isSet with
  | true => exact settle_of_isSet hset
  | false =>
    rw [h.isSet, Bool.or_eq_false_iff, any_eq_false] at hset
    have happr : ∀ step ∈ front ++ back, appears same keep step = false :=
      fun step hstep => by simpa using hset.1 step hstep
    apply settle_of_no_isDrop
    rw [h.dropped, Bool.or_eq_false_iff, any_eq_false]
    refine ⟨?_, ?_⟩
    · intro step hstep
      simp [chain_stays hkeep hchn happr hlast step hstep]
    · have hfst : first.any keep = true := by
        cases hf : first.any keep with
        | true => rfl
        | false =>
          rw [(chain_hidden hkeep hchn happr hf).2] at hlast
          cases hlast
      rcases own with ⟨_ | old, _ | new⟩
      · rfl
      · cases hown
      · rw [hxor rfl] at hfst
        cases hfst
      · cases hown

theorem Spliced.shared (hlaw : D.Lawful P)
    (hkeep : ∀ old new, same old new = true → keep old = keep new)
    (hchn : Chain first (front ++ back) last) (hP : ∀ step ∈ front ++ back, stepHolds P step)
    (hxor : own.1.isSome = true → first.any keep = false) (hown : own.2 = none) {a : α}
    (ha : last = some a) (hkept : keep a = true) :
    runAll (settle writes) ((own.1.or (first.filter keep)).map D.shown) = some (D.shown a) := by
  have hstart : ∀ b, first = some b → keep b = true →
      (own.1.or (first.filter keep)).map D.shown = some (D.shown b) := by
    intro b hb hkb
    have hnone : own.1 = none := by
      cases hown₁ : own.1 with
      | none => rfl
      | some c =>
        have hhidden := hxor (by simp [hown₁])
        simp [hb, hkb] at hhidden
    simp [hnone, hb, filter_some, hkb]
  rw [h.settle_shared hkeep hchn hxor hown (by simp [ha, hkept]), h.runAll_shared hown]
  exact chain_shown hlaw hkeep hchn hP hstart a ha hkept

include hkeep in
theorem Spliced.gone (hchn : Chain first (front ++ back) last) (hown : own.2 = none)
    (hlast : last.any keep = false) :
    runAll (settle writes) ((own.1.or (first.filter keep)).map D.shown) = none ↔
      ∀ step ∈ front ++ back, appears same keep step = false := by
  have hqt : appears (fun _ _ => true) (fun _ => true) own = false := by
    rcases own with ⟨_ | old, _ | new⟩ <;> first | rfl | cases hown
  constructor
  · intro hnone step hstep
    cases happ : appears same keep step with
    | false => rfl
    | true =>
      have hset : writes.any Write.isSet = true := by
        rw [h.isSet, Bool.or_eq_true, any_eq_true]
        exact Or.inl ⟨step, hstep, happ⟩
      rw [settle_of_isSet hset] at hnone
      have hsome : (runAll (writes.filter fun write => !write.isDrop)
          ((own.1.or (first.filter keep)).map D.shown)).isSome = true :=
        runAll_isSome (by simp) (Or.inl ((any_isSet_filter writes).trans hset))
      rw [hnone] at hsome
      cases hsome
  · intro happr
    have hset : writes.any Write.isSet = false := by
      rw [h.isSet, hqt, Bool.or_false, any_eq_false]
      exact fun step hstep => by simp [happr step hstep]
    rw [settle_of_no_isSet hset]
    cases hdrop : writes.any isDrop with
    | true => exact runAll_drop hset hdrop _
    | false =>
      rw [h.dropped, Bool.or_eq_false_iff, any_eq_false] at hdrop
      have hfst : first.filter keep = none := by
        cases hf : first.any keep with
        | true =>
          obtain ⟨step, hstep, hdis⟩ := chain_disappears hkeep hchn hf hlast
          exact absurd hdis (hdrop.1 step hstep)
        | false => cases first <;> simp_all [filter_some]
      have hold : own.1 = none := by
        rcases own with ⟨_ | old, _ | new⟩
        · rfl
        · rfl
        · simp [disappears] at hdrop
        · cases hown
      rw [hfst, hold]
      exact runAll_none hset

end

theorem spliced_step (step : Option α × Option α) :
    D.Spliced same keep [step] [] (none, none)
      (D.arrivals same keep step ++ D.departures same keep step) := by
  constructor
  · rw [filter_append, filter_arrivals, filter_departures]
    simp [arrivals_nil]
  · rw [any_append, arrivals_isDrop, departures_isDrop]
    simp [disappears]

theorem settle_step (hlaw : D.Lawful P)
    (hkeep : ∀ old new, same old new = true → keep old = keep new)
    (hP : stepHolds P step) :
    runAll (settle (D.arrivals same keep step ++ D.departures same keep step))
      ((step.1.filter keep).map D.shown) = (step.2.filter keep).map D.shown := by
  have hspliced : D.Spliced same keep [step] [] (none, none) _ := spliced_step step
  have hchn : Chain step.1 ([step] ++ []) step.2 := ⟨rfl, rfl⟩
  have hstep : ∀ s ∈ [step] ++ [], stepHolds P s := by simpa using hP
  cases hlast : step.2.any keep with
  | true =>
    obtain ⟨before, _ | new⟩ := step
    · cases hlast
    · have hkept : keep new = true := hlast
      have hrun := hspliced.shared hlaw hkeep hchn hstep (fun h => by cases h) rfl rfl hkept
      simpa [filter_some, hkept] using hrun
  | false =>
    have happr : ∀ s ∈ [step] ++ [], appears same keep s = false := by
      obtain ⟨_ | old, _ | new⟩ := step <;> simp_all [appears]
    have hnone : step.2.filter keep = none := by
      obtain ⟨before, _ | new⟩ := step <;> simp_all [filter_some]
    rw [hnone]
    exact (hspliced.gone hkeep hchn rfl hlast).mpr happr

section

variable (h : D.Spliced same keep front back own writes)
  (hkeep : ∀ old new, same old new = true → keep old = keep new)

include h hkeep

variable (hchn : Chain first (front ++ back) last)
  (hxor : own.1.isSome = true → first.any keep = false)

include hchn hxor in
theorem Spliced.settle_private {new : α} (hown : own.2 = some new) :
    settle writes = writes.filter fun write => !write.isDrop := by
  cases hset : writes.any Write.isSet with
  | true => exact settle_of_isSet hset
  | false =>
    rw [h.isSet, Bool.or_eq_false_iff, any_eq_false] at hset
    obtain ⟨o, o'⟩ := own
    cases hown
    cases o with
    | none => simp [appears] at hset
    | some old =>
      have hhidden :=
        (chain_hidden hkeep hchn (fun s hs => by simpa using hset.1 s hs) (hxor rfl)).1
      apply settle_of_no_isDrop
      rw [h.dropped, Bool.or_eq_false_iff, any_eq_false]
      exact ⟨fun s hs => by simp [(hhidden s hs).2], rfl⟩

include hchn hxor in
theorem Spliced.settle_of_present (hpresent : own.2.isSome = true ∨ last.any keep = true) :
    settle writes = writes.filter fun write => !write.isDrop := by
  cases hown : own.2 with
  | some new => exact h.settle_private hkeep hchn hxor hown
  | none =>
    refine h.settle_shared hkeep hchn hxor hown ?_
    simpa [hown] using hpresent

include hchn hxor in
theorem Spliced.present (hpresent : own.2.isSome = true ∨ last.any keep = true)
    (hcell : own.1.isSome = true ∨ first.any keep = true → cell.isSome = true) :
    (runAll (settle writes) cell).isSome = true := by
  rw [h.settle_of_present hkeep hchn hxor hpresent]
  refine runAll_isSome (by simp) ?_
  rw [any_isSet_filter, h.isSet]
  cases hset : (front ++ back).any (appears same keep) ||
      appears (fun _ _ => true) (fun _ => true) own with
  | true => exact Or.inl rfl
  | false =>
    rw [Bool.or_eq_false_iff, any_eq_false] at hset
    refine Or.inr (hcell ?_)
    rcases hpresent with hown | hlast
    · rcases own with ⟨_ | old, _ | new⟩
      · cases hown
      · simp [appears] at hset
      · cases hown
      · exact Or.inl rfl
    · cases hfst : first.any keep with
      | true => exact Or.inr rfl
      | false =>
        rw [(chain_hidden hkeep hchn (fun s hs => by simpa using hset.1 s hs) hfst).2] at hlast
        cases hlast

end

theorem arrivals_patches (h : appears same keep step = false) :
    ∀ write ∈ D.arrivals same keep step, write.isSet = false ∧ write.isDrop = false := by
  intro write hwr
  have hset : (D.arrivals same keep step).any Write.isSet = false := (arrivals_isSet step).trans h
  have hdrop : (D.arrivals same keep step).any Write.isDrop = false := arrivals_isDrop step
  rw [any_eq_false] at hset hdrop
  exact ⟨by simpa using hset write hwr, by simpa using hdrop write hwr⟩

theorem arrivals_set (h : appears same keep step = true) :
    ∃ value, D.arrivals same keep step = [.set value] := by
  rcases step with ⟨_ | old, _ | new⟩
  · cases h
  · have hkept : keep new = true := h
    exact ⟨D.shown new, by simp [arrivals, hkept]⟩
  · cases h
  · obtain ⟨hkept, hsame⟩ : keep new = true ∧ same old new = false := by
      simpa [appears] using h
    exact ⟨D.shown new, by simp [arrivals, hkept, hsame]⟩

theorem arrivals_singleton (h : front ++ back = [step])
    (hown : D.arrivals (fun _ _ => true) (fun _ => true) own = []) :
    front.flatMap (D.arrivals same keep) ++ D.arrivals (fun _ _ => true) (fun _ => true) own ++
        back.flatMap (D.arrivals same keep) = D.arrivals same keep step := by
  rw [hown, append_nil, ← flatMap_append, h]
  simp

theorem Spliced.simple (h : D.Spliced same keep front back own writes)
    (hkeep : ∀ old new, same old new = true → keep old = keep new)
    (hone : front ++ back = [] ∨ ∃ step, front ++ back = [step])
    (hchn : Chain first (front ++ back) last) (hxor : own.1.isSome = true → first.any keep = false)
    (hxor' : own.2.isSome = true → last.any keep = false) :
    Simple ((own.1.or (first.filter keep)).map D.shown) (settle writes) := by
  have hqt : last.any keep = false → ∀ step ∈ front ++ back, D.arrivals same keep step = [] := by
    intro hlast step hstep
    rcases hone with hnil | ⟨s, hs⟩
    · rw [hnil] at hstep
      cases hstep
    · obtain rfl : step = s := by simpa [hs] using hstep
      rw [hs] at hchn
      exact arrivals_nil (hchn.2 ▸ hlast)
  have hsil : last.any keep = false →
      (writes.filter fun write => !write.isDrop) =
        D.arrivals (fun _ _ => true) (fun _ => true) own := by
    intro hlast
    have hnil : ∀ steps : List (Option α × Option α), (∀ step ∈ steps, step ∈ front ++ back) →
        steps.flatMap (D.arrivals same keep) = [] := by
      intro steps hsteps
      rw [flatMap_eq_nil_iff]
      exact fun step hstep => hqt hlast step (hsteps step hstep)
    rw [h.kept, hnil front fun _ hs => mem_append_left _ hs,
      hnil back fun _ hs => mem_append_right _ hs, nil_append, append_nil]
  rcases own with ⟨o, _ | new⟩
  · have hown : D.arrivals (fun _ _ => true) (fun _ => true) (o, none) = [] := rfl
    cases hlast : last.any keep with
    | false =>
      left
      intro write hwr
      have hmem : write ∈ writes := by
        unfold settle at hwr
        split_ifs at hwr
        · exact (mem_filter.mp hwr).1
        · exact hwr
      have hnil := hsil hlast
      rw [hown, filter_eq_nil_iff] at hnil
      simpa using hnil write hmem
    | true =>
      rw [h.settle_of_present hkeep hchn hxor (Or.inr hlast), h.kept]
      rcases hone with hnil | ⟨step, hstep⟩
      · obtain ⟨rfl, rfl⟩ := append_eq_nil_iff.mp hnil
        exact Or.inl (by simp [hown])
      · rw [arrivals_singleton hstep hown]
        rw [hstep] at hchn
        obtain ⟨rfl, rfl⟩ := hchn
        cases happr : appears same keep step with
        | true => exact Or.inr (Or.inl (arrivals_set happr))
        | false =>
          refine Or.inr (Or.inr ⟨?_, arrivals_patches happr⟩)
          rcases step with ⟨_ | old, _ | new⟩
          · cases hlast
          · exact absurd (hlast.symm.trans happr) (by simp)
          · cases hlast
          · have hkept : keep new = true := hlast
            have hsame : same old new = true := by simpa [appears, hkept] using happr
            have hold : keep old = true := (hkeep old new hsame).trans hkept
            cases o <;> simp [filter_some, hold]
  · rw [h.settle_private hkeep hchn hxor rfl, hsil (hxor' rfl)]
    cases o with
    | none => exact Or.inr (Or.inl ⟨D.shown new, rfl⟩)
    | some old => exact Or.inr (Or.inr ⟨rfl, arrivals_patches rfl⟩)

include hkeep in
theorem settle_step_simple (step : Option α × Option α) :
    Simple ((step.1.filter keep).map D.shown)
      (settle (D.arrivals same keep step ++ D.departures same keep step)) := by
  have hspliced : D.Spliced same keep [step] [] (none, none) _ := spliced_step step
  have hsimple := hspliced.simple hkeep (Or.inr ⟨step, rfl⟩) ⟨rfl, rfl⟩ (fun h => by cases h)
    (fun h => by cases h)
  simpa using hsimple

theorem noGhost_of_one (hone : front ++ back = [] ∨ ∃ step, front ++ back = [step])
    (hchn : Chain first (front ++ back) last) : NoGhost same keep (front ++ back) last own := by
  intro _ hlast step hstep
  rcases hone with hnil | ⟨only, honly⟩
  · rw [hnil] at hstep
    cases hstep
  · rw [honly] at hstep hchn
    obtain rfl := mem_singleton.mp hstep
    obtain ⟨-, rfl⟩ := hchn
    rcases step with ⟨_ | old, _ | new⟩ <;> simp_all [appears]

theorem getD_eq_iff {value : ν} {o : Option ν} :
    o.getD value = value ↔ ∀ v, o = some v → v = value := by
  cases o <;> simp

section Registers

variable [DecidableEq ν] (D same keep)

def written (f : φ) : Option α × Option α → Option ν
  | (_, none) => none
  | (none, some new) => if keep new then some (D.field (D.shown new) f) else none
  | (some old, some new) =>
    if keep new && (!same old new || D.field (D.shown old) f ≠ D.field (D.shown new) f) then
      some (D.field (D.shown new) f)
    else none

def lastWritten (f : φ) (steps : List (Option α × Option α)) : Option ν :=
  (steps.filterMap (D.written same keep f)).getLast?

variable {D same keep}

theorem lastWritten_append (f : φ) (front back : List (Option α × Option α)) :
    D.lastWritten same keep f (front ++ back) =
      (D.lastWritten same keep f back).or (D.lastWritten same keep f front) := by
  simp only [lastWritten, filterMap_append, getLast?_append]

theorem lastWritten_cons (f : φ) (step : Option α × Option α) (steps : List (Option α × Option α)) :
    D.lastWritten same keep f (step :: steps) =
      (D.lastWritten same keep f steps).or (D.written same keep f step) := by
  rw [← singleton_append, lastWritten_append]
  congr 1
  cases h : D.written same keep f step <;> simp [lastWritten, h]

theorem arrivals_field (hlaw : D.Lawful P) (hP : stepHolds P step) (value : δ) :
    ∃ result, runAll (D.arrivals same keep step) (some value) = some result ∧
      ∀ f, D.field result f = (D.written same keep f step).getD (D.field value f) := by
  rcases step with ⟨_ | old, _ | new⟩
  · exact ⟨value, rfl, fun f => rfl⟩
  · cases hkeep : keep new with
    | true => exact ⟨D.shown new, by simp [arrivals, hkeep, runAll, run], by simp [written, hkeep]⟩
    | false => exact ⟨value, by simp [arrivals, hkeep, runAll], by simp [written, hkeep]⟩
  · exact ⟨value, rfl, fun f => rfl⟩
  · cases hkeep : keep new with
    | false => exact ⟨value, by simp [arrivals, hkeep, runAll], by simp [written, hkeep]⟩
    | true =>
      cases hsame : same old new with
      | false =>
        exact ⟨D.shown new, by simp [arrivals, hkeep, hsame, runAll, run],
          by simp [written, hkeep, hsame]⟩
      | true =>
        refine ⟨D.patched old new value, ?_, ?_⟩
        · simp only [arrivals, hkeep, hsame, if_true, runAll_map_patch]
          rfl
        · intro f
          have hfield := hlaw old new (hP.1 old rfl) (hP.2 new rfl) value f
          by_cases heq : D.field (D.shown old) f = D.field (D.shown new) f
          · simpa [written, hkeep, hsame, heq] using hfield.1 heq
          · simpa [written, hkeep, hsame, heq] using hfield.2 heq

theorem history_field (hlaw : D.Lawful P) {steps : List (Option α × Option α)}
    (hP : ∀ step ∈ steps, stepHolds P step) (value : δ) :
    ∃ result, runAll (steps.flatMap (D.arrivals same keep)) (some value) = some result ∧
      ∀ f, D.field result f = (D.lastWritten same keep f steps).getD (D.field value f) := by
  induction steps generalizing value with
  | nil => exact ⟨value, rfl, fun f => rfl⟩
  | cons step rest ih =>
    obtain ⟨middle, hmiddle, hfield⟩ : ∃ middle,
        runAll (D.arrivals same keep step) (some value) = some middle ∧
          ∀ f, D.field middle f = (D.written same keep f step).getD (D.field value f) :=
      arrivals_field hlaw (hP step mem_cons_self) value
    obtain ⟨result, hres, hfield'⟩ := ih (fun s hs => hP s (mem_cons_of_mem _ hs)) middle
    refine ⟨result, ?_, ?_⟩
    · rw [flatMap_cons, runAll_append, hmiddle, hres]
    · intro f
      rw [hfield' f, hfield f, lastWritten_cons]
      cases D.lastWritten same keep f rest <;> rfl

variable (D same keep) in
/-- The shared history leaves in each field of what ends private the value it
has there. The writes before the splice count only where the private transition
writes nothing itself. -/
def PrivateIntact (front back : List (Option α × Option α)) (own : Option α × Option α) : Prop :=
  ∀ new, own.2 = some new → ∀ f value,
    D.lastWritten same keep f
        (if (D.written (fun _ _ => true) (fun _ => true) f own).isSome then back
          else front ++ back) = some value →
      value = D.field (D.shown new) f

theorem written_eq_none (h : step.2.any keep = false) (f : φ) :
    D.written same keep f step = none := by
  rcases step with ⟨_ | old, _ | new⟩
  · rfl
  · have hnew : keep new = false := h
    simp [written, hnew]
  · rfl
  · have hnew : keep new = false := h
    simp [written, hnew]

theorem privateIntact_of_hidden
    (h : own.2.isSome = true → ∀ step ∈ front ++ back, step.2.any keep = false) :
    D.PrivateIntact same keep front back own := by
  intro new hnew f value hwritten
  have hnone : ∀ steps, (∀ step ∈ steps, step ∈ front ++ back) →
      D.lastWritten same keep f steps = none := by
    intro steps hsteps
    rw [lastWritten, filterMap_eq_nil_iff.mpr]
    · rfl
    · intro step hstep
      exact written_eq_none (h (by simp [hnew]) step (hsteps step hstep)) f
  rw [hnone] at hwritten
  · cases hwritten
  · intro step hstep
    split_ifs at hstep
    · exact mem_append_right _ hstep
    · exact hstep

section

variable (h : D.Spliced same keep front back own writes)

include h

theorem Spliced.runAll_private (hlaw : D.Lawful P)
    (hP : ∀ step ∈ front ++ back, stepHolds P step) (hPown : stepHolds P own) (value : δ) :
    ∃ result, runAll (writes.filter fun write => !write.isDrop) (some value) = some result ∧
      ∀ f, D.field result f = (D.lastWritten same keep f back).getD
        ((D.written (fun _ _ => true) (fun _ => true) f own).getD
          ((D.lastWritten same keep f front).getD (D.field value f))) := by
  obtain ⟨v₁, hv₁, hf₁⟩ : ∃ v₁, runAll (front.flatMap (D.arrivals same keep)) (some value) = some v₁ ∧
      ∀ f, D.field v₁ f = (D.lastWritten same keep f front).getD (D.field value f) :=
    history_field hlaw (fun s hs => hP s (mem_append_left _ hs)) value
  obtain ⟨v₂, hv₂, hf₂⟩ : ∃ v₂,
      runAll (D.arrivals (fun _ _ => true) (fun _ => true) own) (some v₁) = some v₂ ∧
        ∀ f, D.field v₂ f =
          (D.written (fun _ _ => true) (fun _ => true) f own).getD (D.field v₁ f) :=
    arrivals_field hlaw hPown v₁
  obtain ⟨v₃, hv₃, hf₃⟩ : ∃ v₃, runAll (back.flatMap (D.arrivals same keep)) (some v₂) = some v₃ ∧
      ∀ f, D.field v₃ f = (D.lastWritten same keep f back).getD (D.field v₂ f) :=
    history_field hlaw (fun s hs => hP s (mem_append_right _ hs)) v₂
  refine ⟨v₃, ?_, ?_⟩
  · rw [h.kept, runAll_append, runAll_append, hv₁, hv₂, hv₃]
  · intro f
    rw [hf₃, hf₂, hf₁]

theorem Spliced.private_iff (hlaw : D.Lawful P)
    (hkeep : ∀ old new, same old new = true → keep old = keep new)
    (hchn : Chain first (front ++ back) last) (hP : ∀ step ∈ front ++ back, stepHolds P step)
    (hPown : stepHolds P own) (hxor : own.1.isSome = true → first.any keep = false) {new : α}
    (hown : own.2 = some new) :
    runAll (settle writes) ((own.1.or (first.filter keep)).map D.shown) = some (D.shown new) ↔
      D.PrivateIntact same keep front back own := by
  rw [h.settle_private hkeep hchn hxor hown]
  obtain ⟨o, o'⟩ := own
  cases hown
  have hintact : D.PrivateIntact same keep front back (o, some new) ↔ ∀ f,
      (D.lastWritten same keep f
        (if (D.written (fun _ _ => true) (fun _ => true) f (o, some new)).isSome then back
          else front ++ back)).getD (D.field (D.shown new) f) = D.field (D.shown new) f := by
    simp only [PrivateIntact, getD_eq_iff, some.injEq, forall_eq']
  have hfields : ∀ result : δ, result = D.shown new ↔
      ∀ f, D.field result f = D.field (D.shown new) f :=
    fun result => ⟨fun heq f => by rw [heq], D.field_ext _ _⟩
  rw [hintact]
  cases o with
  | none =>
    -- The private element is set between the two parts, so only the back counts.
    obtain ⟨result, hres, hfield⟩ : ∃ result,
        runAll (back.flatMap (D.arrivals same keep)) (some (D.shown new)) = some result ∧
          ∀ f, D.field result f = (D.lastWritten same keep f back).getD (D.field (D.shown new) f) :=
      history_field hlaw (fun s hs => hP s (mem_append_right _ hs)) _
    have hrun : runAll (writes.filter fun write => !write.isDrop)
        (((none : Option α).or (first.filter keep)).map D.shown) = some result := by
      rw [h.kept, runAll_append, runAll_append, ← hres]
      simp [arrivals, runAll, run]
    rw [hrun, some.injEq, hfields]
    simp only [hfield, written, if_true, isSome_some]
  | some old =>
    obtain ⟨result, hres, hfield⟩ := h.runAll_private hlaw hP hPown (D.shown old)
    simp only [some_or, map_some]
    rw [hres, some.injEq, hfields]
    apply forall_congr'
    intro f
    rw [hfield f]
    by_cases heq : D.field (D.shown old) f = D.field (D.shown new) f
    · have hwritten : D.written (fun _ _ => true) (fun _ => true) f (some old, some new) = none := by
        simp [written, heq]
      rw [hwritten, heq, isSome_none, if_neg Bool.false_ne_true, lastWritten_append]
      cases D.lastWritten same keep f back <;> simp
    · have hwritten : D.written (fun _ _ => true) (fun _ => true) f (some old, some new) =
          some (D.field (D.shown new) f) := by
        simp [written, heq]
      rw [hwritten]
      simp

/-- The settled batch takes the cell from the first content to the last one
exactly when nothing that ends absent appears on the way and the shared history
leaves what ends private intact. -/
theorem Spliced.run_iff (hlaw : D.Lawful P)
    (hkeep : ∀ old new, same old new = true → keep old = keep new)
    (hchn : Chain first (front ++ back) last) (hP : ∀ step ∈ front ++ back, stepHolds P step)
    (hPown : stepHolds P own) (hxor : own.1.isSome = true → first.any keep = false) :
    runAll (settle writes) ((own.1.or (first.filter keep)).map D.shown) =
        (own.2.or (last.filter keep)).map D.shown ↔
      NoGhost same keep (front ++ back) last own ∧ D.PrivateIntact same keep front back own := by
  cases hown : own.2 with
  | some new =>
    have hghost : NoGhost same keep (front ++ back) last own := by
      intro hnone
      rw [hown] at hnone
      cases hnone
    simpa [hghost] using h.private_iff hlaw hkeep hchn hP hPown hxor hown
  | none =>
    have hintact : D.PrivateIntact same keep front back own := by
      intro new hnew
      rw [hown] at hnew
      cases hnew
    cases hlast : last.any keep with
    | false =>
      have hnone : last.filter keep = none := by
        cases last <;> simp_all [filter_some]
      rw [hnone]
      simpa [NoGhost, hown, hlast, hintact] using h.gone hkeep hchn hown hlast
    | true =>
      cases last with
      | none => cases hlast
      | some a =>
        have hkept : keep a = true := hlast
        have hrun := h.shared hlaw hkeep hchn hP hxor hown rfl hkept
        simp [hrun, NoGhost, hkept, hintact, filter_some]

end

end Registers

end Diff

end MumbleRuntime.Library
