import MumbleRuntime.Library.Walk

/-!
# Turning one forest into another, an element at a time

A forest has nodes, each a root or under another node, and residents, each at a
node. It is sound when the node something is under or at is there and no node is
its own ancestor. A schedule brings the elements of one forest to their state in
another one after the other: first the nodes the new forest has, then the
residents, then the nodes it lacks, children first. Every forest on the way is
sound exactly when both ends are, a node never comes before the one it is put
under, and no stage of moving the nodes has a circle.
-/

namespace MumbleRuntime.Library

open List Option

def Acyclic {κ : Type*} (next : κ → Option κ) : Prop :=
  ∀ k n, 0 < n → walk next n k ≠ some k

variable {κ : Type*} {next next' : κ → Option κ}

theorem Acyclic.mono (h : Acyclic next') (hmono : ∀ k j, next k = some j → next' k = some j) :
    Acyclic next :=
  fun k n hn hwalk => h k n hn (walk_mono hmono n hwalk)

theorem Acyclic.ends (h : Acyclic next) {points : List κ}
    (hpoints : ∀ k j, next k = some j → k ∈ points) (k : κ) :
    walk next (points.length + 1) k = none := by
  refine walk_ends_within hpoints ?_
  by_contra hnever
  push Not at hnever
  have hvisit : ∀ n, ∃ j ∈ points, walk next n k = some j := by
    intro n
    obtain ⟨l, hl⟩ := ne_none_iff_exists'.mp (hnever (n + 1))
    rw [walk_succ] at hl
    obtain ⟨j, hj, hnext⟩ := bind_eq_some_iff.mp hl
    exact ⟨j, hpoints j l hnext, hj⟩
  obtain ⟨i, period, hpos, hperiod⟩ := walk_periodic hvisit
  obtain ⟨j, -, hj⟩ := hvisit i
  have hround := hperiod 0
  rw [Nat.add_zero, walk_add, hj, bind_some] at hround
  exact h j period hpos hround

theorem walk_eq_of_agree {k : κ} (hagree : ∀ j, j ≠ k → next' j = next j) {n : ℕ} {start : κ}
    (hmiss : ∀ i < n, walk next i start ≠ some k) : walk next' n start = walk next n start := by
  induction n with
  | zero => rfl
  | succ n ih =>
    rw [walk_succ, walk_succ, ih fun i hi => hmiss i (by omega)]
    cases hreach : walk next n start with
    | none => rfl
    | some j =>
      have hne : j ≠ k := fun heq => hmiss n (by omega) (by rw [hreach, heq])
      exact hagree j hne

theorem exists_walk_of_agree {k : κ} (hagree : ∀ j, j ≠ k → next' j = next j) {n : ℕ} {start : κ}
    (h : walk next n start = some k) : ∃ m, walk next' m start = some k := by
  classical
  have hex : ∃ m, walk next m start = some k := ⟨n, h⟩
  refine ⟨Nat.find hex, ?_⟩
  rw [walk_eq_of_agree hagree fun i hi => Nat.find_min hex hi]
  exact Nat.find_spec hex

theorem acyclic_iff_of_agree {k : κ} (h : Acyclic next) (hagree : ∀ j, j ≠ k → next' j = next j) :
    Acyclic next' ↔ ∀ p, next' k = some p → ∀ n, walk next n p ≠ some k := by
  constructor
  · intro hacy p hp n hwalk
    obtain ⟨m, hm⟩ := exists_walk_of_agree hagree hwalk
    refine hacy k (m + 1) m.succ_pos ?_
    simpa only [walk, hp, bind_some] using hm
  · intro hno start n hn hcircle
    by_cases hmeet : ∃ i < n, walk next' i start = some k
    · obtain ⟨i, -, hi⟩ := hmeet
      have hround := walk_rotate hcircle hi
      obtain ⟨m, rfl⟩ := Nat.exists_eq_succ_of_ne_zero hn.ne'
      obtain ⟨p, hp, hback⟩ := bind_eq_some_iff.mp hround
      obtain ⟨m', hm'⟩ := exists_walk_of_agree (fun j hj => (hagree j hj).symm) hback
      exact hno p hp m' hm'
    · push Not at hmeet
      refine h start n hn ?_
      rw [walk_eq_of_agree (fun j hj => (hagree j hj).symm) hmeet]
      exact hcircle

@[ext]
structure Forest (ν ρ : Type*) where
  /-- `none` where there is no node, `some none` at a root. -/
  parent : ν → Option (Option ν)
  place : ρ → Option ν

namespace Forest

variable {ν ρ : Type*} {old new : Forest ν ρ}

def up (forest : Forest ν ρ) (n : ν) : Option ν := (forest.parent n).join

variable {n : ν}

theorem up_of_parent_eq {forest forest' : Forest ν ρ} (h : forest.parent n = forest'.parent n) :
    forest.up n = forest'.up n := by
  rw [up, h, up]

structure Sound (forest : Forest ν ρ) : Prop where
  placed : ∀ r n, forest.place r = some n → (forest.parent n).isSome = true
  under : ∀ n p, forest.up n = some p → (forest.parent p).isSome = true
  acyclic : Acyclic forest.up

structure Housed (forest : Forest ν ρ) : Prop where
  placed : ∀ r n, forest.place r = some n → (forest.parent n).isSome = true
  under : ∀ n p, forest.up n = some p → (forest.parent p).isSome = true

theorem Sound.housed {forest : Forest ν ρ} (h : forest.Sound) : forest.Housed :=
  ⟨h.placed, h.under⟩

structure Vacant (forest : Forest ν ρ) (n : ν) : Prop where
  resident : ∀ r, forest.place r ≠ some n
  child : ∀ m, forest.up m ≠ some n

open Classical in
/-- The elements of `done` are in their new state, the others in their old one. -/
noncomputable def mix (old new : Forest ν ρ) (done : List (ν ⊕ ρ)) : Forest ν ρ where
  parent n := if .inl n ∈ done then new.parent n else old.parent n
  place r := if .inr r ∈ done then new.place r else old.place r

variable {done : List (ν ⊕ ρ)}

theorem mix_parent_of_mem (h : .inl n ∈ done) :
    (mix old new done).parent n = new.parent n := if_pos h

theorem mix_parent_of_notMem (h : .inl n ∉ done) :
    (mix old new done).parent n = old.parent n := if_neg h

theorem mix_parent_congr {done' : List (ν ⊕ ρ)} (h : .inl n ∈ done ↔ .inl n ∈ done') :
    (mix old new done).parent n = (mix old new done').parent n := by
  by_cases hin : .inl n ∈ done'
  · rw [mix_parent_of_mem hin, mix_parent_of_mem (h.mpr hin)]
  · rw [mix_parent_of_notMem hin, mix_parent_of_notMem (mt h.mp hin)]

theorem mix_place_of_mem {r : ρ} (h : .inr r ∈ done) :
    (mix old new done).place r = new.place r := if_pos h

theorem mix_place_of_notMem {r : ρ} (h : .inr r ∉ done) :
    (mix old new done).place r = old.place r := if_neg h

theorem mix_place_congr {done' : List (ν ⊕ ρ)} {r : ρ} (h : .inr r ∈ done ↔ .inr r ∈ done') :
    (mix old new done).place r = (mix old new done').place r := by
  by_cases hin : .inr r ∈ done'
  · rw [mix_place_of_mem hin, mix_place_of_mem (h.mpr hin)]
  · rw [mix_place_of_notMem hin, mix_place_of_notMem (mt h.mp hin)]

theorem mix_parent_cases (old new : Forest ν ρ) (done : List (ν ⊕ ρ)) (n : ν) :
    (mix old new done).parent n = old.parent n ∨ (mix old new done).parent n = new.parent n := by
  by_cases h : .inl n ∈ done
  · exact .inr (mix_parent_of_mem h)
  · exact .inl (mix_parent_of_notMem h)

theorem mix_place_cases (old new : Forest ν ρ) (done : List (ν ⊕ ρ)) (r : ρ) :
    (mix old new done).place r = old.place r ∨ (mix old new done).place r = new.place r := by
  by_cases h : .inr r ∈ done
  · exact .inr (mix_place_of_mem h)
  · exact .inl (mix_place_of_notMem h)

theorem mix_isSome_of_both (hold : (old.parent n).isSome = true)
    (hnew : (new.parent n).isSome = true) : ((mix old new done).parent n).isSome = true := by
  rcases mix_parent_cases old new done n with heq | heq
  · rw [heq]
    exact hold
  · rw [heq]
    exact hnew

theorem mix_node [DecidableEq ν] (old new : Forest ν ρ) (done : List (ν ⊕ ρ)) (n : ν) :
    mix old new (done ++ [.inl n]) =
      ⟨Function.update (mix old new done).parent n (new.parent n), (mix old new done).place⟩ := by
  refine Forest.ext (funext fun m => ?_) (funext fun r => mix_place_congr (by simp))
  by_cases h : m = n
  · subst h
    simp [mix]
  · rw [mix_parent_congr (by simp [h] : _ ↔ .inl m ∈ done)]
    exact (Function.update_of_ne h ..).symm

theorem mix_resident [DecidableEq ρ] (old new : Forest ν ρ) (done : List (ν ⊕ ρ)) (r : ρ) :
    mix old new (done ++ [.inr r]) =
      ⟨(mix old new done).parent, Function.update (mix old new done).place r (new.place r)⟩ := by
  refine Forest.ext (funext fun n => mix_parent_congr (by simp)) (funext fun s => ?_)
  by_cases h : s = r
  · subst h
    simp [mix]
  · rw [mix_place_congr (by simp [h] : _ ↔ .inr s ∈ done)]
    exact (Function.update_of_ne h ..).symm

/-- Every forest on the way from `start` is sound, and a node that goes is vacant
by then. -/
structure Passable (old new : Forest ν ρ) (start elements : List (ν ⊕ ρ)) : Prop where
  sound : ∀ done rest, elements = done ++ rest → (mix old new (start ++ done)).Sound
  vacant : ∀ done n rest, elements = done ++ .inl n :: rest → new.parent n = none →
    (mix old new (start ++ done)).Vacant n

theorem passable_nil {start : List (ν ⊕ ρ)} :
    Passable old new start [] ↔ (mix old new start).Sound := by
  constructor
  · intro h
    simpa using h.sound [] [] rfl
  · intro h
    refine ⟨fun done rest hspl => ?_, fun done n rest hspl => ?_⟩
    · rw [(append_eq_nil_iff.mp hspl.symm).1, append_nil]
      exact h
    · simp at hspl

theorem passable_cons {start rest : List (ν ⊕ ρ)} {e : ν ⊕ ρ} :
    Passable old new start (e :: rest) ↔
      (mix old new start).Sound ∧
      (∀ n, e = .inl n → new.parent n = none → (mix old new start).Vacant n) ∧
      Passable old new (start ++ [e]) rest := by
  constructor
  · intro h
    refine ⟨by simpa using h.sound [] (e :: rest) rfl, ?_, ?_, ?_⟩
    · rintro n rfl hnone
      simpa using h.vacant [] n rest rfl hnone
    · rintro done more rfl
      simpa using h.sound (e :: done) more rfl
    · rintro done n more rfl hnone
      simpa using h.vacant (e :: done) n more rfl hnone
  · rintro ⟨hsnd, hvacant, hrest⟩
    refine ⟨fun done more hspl => ?_, fun done n more hspl hnone => ?_⟩
    · rcases cons_eq_append_iff.mp hspl with ⟨rfl, -⟩ | ⟨later, rfl, hlat⟩
      · simpa using hsnd
      · simpa using hrest.sound later more hlat
    · rcases cons_eq_append_iff.mp hspl with ⟨rfl, hhead⟩ | ⟨later, rfl, hlat⟩
      · simpa using hvacant n (cons.inj hhead).1.symm hnone
      · simpa using hrest.vacant later n more hlat hnone

theorem append_of_notMem {α : Type*} {first second done rest : List α} {a : α}
    (h : first ++ second = done ++ a :: rest) (ha : a ∉ first) :
    ∃ later, done = first ++ later ∧ second = later ++ a :: rest := by
  rcases append_eq_append_iff.mp h with ⟨later, hdone, hsec⟩ | ⟨early, rfl, hrest⟩
  · exact ⟨later, hdone, hsec⟩
  · cases early with
    | nil => exact ⟨[], by simp, by simpa using hrest.symm⟩
    | cons b more =>
      obtain ⟨rfl, -⟩ := cons.inj hrest
      exact absurd (by simp) ha

theorem append_of_notMem_right {α : Type*} {first second done rest : List α} {a : α}
    (h : first ++ second = done ++ a :: rest) (ha : a ∉ second) :
    ∃ left, first = done ++ a :: left := by
  rcases append_eq_append_iff.mp h with ⟨later, rfl, hsec⟩ | ⟨early, rfl, hrest⟩
  · exact absurd (by simp [hsec]) ha
  · cases early with
    | nil =>
      rw [nil_append] at hrest
      exact absurd (hrest ▸ mem_cons_self) ha
    | cons b more =>
      obtain ⟨rfl, -⟩ := cons.inj hrest
      exact ⟨more, rfl⟩

structure Schedule (old new : Forest ν ρ) (puts : List ν) (moves : List ρ) (drops : List ν) :
    Prop where
  put : ∀ n ∈ puts, (new.parent n).isSome = true
  drop : ∀ n ∈ drops, new.parent n = none
  nodes : ∀ n, n ∉ puts → n ∉ drops → old.parent n = new.parent n
  residents : ∀ r, r ∉ moves → old.place r = new.place r
  deeper : ∀ done n rest, drops = done ++ n :: rest → ∀ m ∈ drops, old.up m = some n → m ∈ done

namespace Schedule

variable {puts : List ν} {moves : List ρ} {drops : List ν}

def elements (_ : Schedule old new puts moves drops) : List (ν ⊕ ρ) :=
  puts.map .inl ++ (moves.map .inr ++ drops.map .inl)

def Untangled (old new : Forest ν ρ) (puts : List ν) : Prop :=
  ∀ done rest, puts = done ++ rest → Acyclic (mix old new (done.map .inl)).up

def Ordered (old new : Forest ν ρ) (puts : List ν) : Prop :=
  ∀ done n rest p, puts = done ++ n :: rest → new.up n = some p →
    p ∈ done ∨ (old.parent p).isSome = true

theorem untangled_iff (hold : Acyclic old.up) :
    Untangled old new puts ↔ ∀ done n rest p, puts = done ++ n :: rest → new.up n = some p →
      old.up n ≠ some p → ∀ k, walk (mix old new (done.map .inl)).up k p ≠ some n := by
  have hagree : ∀ (done : List ν) (n m : ν), m ≠ n →
      (mix old new ((done ++ [n]).map .inl)).up m = (mix old new (done.map .inl)).up m := by
    intro done n m hne
    exact up_of_parent_eq (mix_parent_congr (by simp [hne]))
  have hlast : ∀ (done : List ν) (n : ν), (mix old new ((done ++ [n]).map .inl)).up n = new.up n :=
    fun done n => up_of_parent_eq (mix_parent_of_mem (by simp))
  constructor
  · intro huntangled done n rest p hspl hup _
    have hbef := huntangled done (n :: rest) hspl
    have haft := huntangled (done ++ [n]) rest (by rw [hspl, append_assoc]; rfl)
    exact (acyclic_iff_of_agree hbef (hagree done n)).mp haft p ((hlast done n).trans hup)
  · intro hno done
    induction done using reverseRecOn with
    | nil =>
      intro rest _
      refine hold.mono fun n p hup => ?_
      rwa [up_of_parent_eq (mix_parent_of_notMem (by simp))] at hup
    | append_singleton done n ih =>
      intro rest hspl
      have hspl' : puts = done ++ n :: rest := by rw [hspl, append_assoc]; rfl
      have hacy := ih (n :: rest) hspl'
      refine (acyclic_iff_of_agree hacy (hagree done n)).mpr ?_
      intro p hp k hwalk
      rw [hlast] at hp
      by_cases hstays : old.up n = some p
      · have hup : (mix old new (done.map .inl)).up n = some p := by
          rcases mix_parent_cases old new (done.map .inl) n with heq | heq
          · rw [up_of_parent_eq heq, hstays]
          · rw [up_of_parent_eq heq, hp]
        exact hacy n (k + 1) k.succ_pos (by simpa only [walk, hup, bind_some] using hwalk)
      · exact hno done n rest p hspl' hp hstays k hwalk

variable (h : Schedule old new puts moves drops)

include h

theorem notMem_drops {n : ν} (hn : (new.parent n).isSome = true) : n ∉ drops := by
  intro hdrop
  rw [h.drop n hdrop] at hn
  cases hn

theorem isSome_of_new {moved : List ρ} {dropped : List ν} (hdrp : ∀ n ∈ dropped, n ∈ drops)
    {n : ν} (hn : (new.parent n).isSome = true) :
    ((mix old new (puts.map .inl ++ (moved.map .inr ++ dropped.map .inl))).parent n).isSome =
      true := by
  have hkept := h.notMem_drops hn
  by_cases hput : n ∈ puts
  · rw [mix_parent_of_mem (by simp [hput])]
    exact hn
  · have hnot : n ∉ dropped := fun hin => hkept (hdrp n hin)
    rw [mix_parent_of_notMem (by simp [hput, hnot]), h.nodes n hput hkept]
    exact hn

variable {done rest : List ν}

theorem housed_of_puts (hold : old.Housed) (hordered : Ordered old new puts)
    (hspl : puts = done ++ rest) : (mix old new (done.map .inl)).Housed := by
  have hthr : ∀ n, n ∈ done ∨ (old.parent n).isSome = true →
      ((mix old new (done.map .inl)).parent n).isSome = true := by
    intro n hn
    by_cases hdone : n ∈ done
    · rw [mix_parent_of_mem (by simp [hdone])]
      exact h.put n (by rw [hspl]; exact mem_append_left _ hdone)
    · rw [mix_parent_of_notMem (by simp [hdone])]
      exact hn.resolve_left hdone
  refine ⟨?_, ?_⟩
  · intro r n hplace
    have hstill : (mix old new (done.map .inl)).place r = old.place r := if_neg (by simp)
    rw [hstill] at hplace
    exact hthr n (.inr (hold.placed r n hplace))
  · intro n p hup
    by_cases hdone : n ∈ done
    · rw [up_of_parent_eq (mix_parent_of_mem (by simp [hdone]))] at hup
      obtain ⟨before, after, rfl⟩ := append_of_mem hdone
      rw [append_assoc] at hspl
      refine hthr p ((hordered before n (after ++ rest) p hspl hup).imp_left ?_)
      exact mem_append_left _
    · rw [up_of_parent_eq (mix_parent_of_notMem (by simp [hdone]))] at hup
      exact hthr p (.inr (hold.under n p hup))

theorem housed_of_moves (hold : old.Housed) (hnew : new.Housed) (hordered : Ordered old new puts)
    (moved : List ρ) :
    (mix old new (puts.map .inl ++ (moved.map .inr ++ ([] : List ν).map .inl))).Housed := by
  have hput := h.housed_of_puts hold hordered (append_nil puts).symm
  have hpar : ∀ n, (mix old new
      (puts.map .inl ++ (moved.map .inr ++ ([] : List ν).map .inl))).parent n =
        (mix old new (puts.map .inl)).parent n :=
    fun n => mix_parent_congr (by simp)
  refine ⟨?_, ?_⟩
  · intro r n hplace
    by_cases hmoved : r ∈ moved
    · have hsettled : new.place r = some n := by simpa [mix, hmoved] using hplace
      exact h.isSome_of_new (by simp) (hnew.placed r n hsettled)
    · rw [hpar]
      exact hput.placed r n (by simpa [mix, hmoved] using hplace)
  · intro n p hup
    rw [hpar]
    exact hput.under n p (by rwa [← up_of_parent_eq (hpar n)])

theorem up_cases (hspl : drops = done ++ rest) {n p : ν}
    (hup : (mix old new (puts.map .inl ++ (moves.map .inr ++ done.map .inl))).up n = some p) :
    new.up n = some p ∨ n ∈ rest ∧ n ∉ done ∧ old.up n = some p := by
  by_cases hput : n ∈ puts
  · rw [up_of_parent_eq (mix_parent_of_mem (by simp [hput]))] at hup
    exact .inl hup
  · by_cases hdone : n ∈ done
    · rw [up_of_parent_eq (mix_parent_of_mem (by simp [hdone]))] at hup
      exact .inl hup
    · rw [up_of_parent_eq (mix_parent_of_notMem (by simp [hput, hdone]))] at hup
      by_cases hdrop : n ∈ drops
      · rw [hspl, mem_append] at hdrop
        exact .inr ⟨hdrop.resolve_left hdone, hdone, hup⟩
      · rw [up_of_parent_eq (h.nodes n hput hdrop)] at hup
        exact .inl hup

theorem housed_of_drops (hold : old.Housed) (hnew : new.Housed) (hspl : drops = done ++ rest) :
    (mix old new (puts.map .inl ++ (moves.map .inr ++ done.map .inl))).Housed := by
  have hdrp : ∀ n ∈ done, n ∈ drops := fun n hn => by
    rw [hspl]
    exact mem_append_left _ hn
  refine ⟨?_, ?_⟩
  · intro r n hplace
    refine h.isSome_of_new hdrp (hnew.placed r n ?_)
    by_cases hmove : r ∈ moves
    · simpa [mix, hmove] using hplace
    · rw [← h.residents r hmove]
      simpa [mix, hmove] using hplace
  · intro n p hup
    rcases h.up_cases hspl hup with hsettled | ⟨hrest, hnot, hleft⟩
    · exact h.isSome_of_new hdrp (hnew.under n p hsettled)
    · have hstays : p ∉ done := by
        intro hgone
        obtain ⟨before, after, rfl⟩ := append_of_mem hgone
        rw [append_assoc] at hspl
        have hbef := h.deeper before p (after ++ rest) hspl n (by rw [hspl]; simp [hrest]) hleft
        exact hnot (mem_append_left _ hbef)
      by_cases hput : p ∈ puts
      · rw [mix_parent_of_mem (by simp [hput])]
        exact h.put p hput
      · rw [mix_parent_of_notMem (by simp [hput, hstays])]
        exact hold.under n p hleft

theorem acyclic_of_drops (huntangled : Untangled old new puts) (hspl : drops = done ++ rest)
    (moved : List ρ) :
    Acyclic (mix old new (puts.map .inl ++ (moved.map .inr ++ done.map .inl))).up := by
  refine (huntangled puts [] (append_nil puts).symm).mono fun n p hup => ?_
  by_cases hput : n ∈ puts
  · rw [up_of_parent_eq (mix_parent_of_mem (by simp [hput]))] at hup ⊢
    exact hup
  · by_cases hdone : n ∈ done
    · rw [up_of_parent_eq (mix_parent_of_mem (by simp [hdone])), up,
        h.drop n (by rw [hspl]; exact mem_append_left _ hdone)] at hup
      cases hup
    · rw [up_of_parent_eq (mix_parent_of_notMem (by simp [hput, hdone]))] at hup
      rw [up_of_parent_eq (mix_parent_of_notMem (by simp [hput]))]
      exact hup

theorem vacant_of_drops (hnew : new.Housed) {n : ν} (hspl : drops = done ++ n :: rest) :
    (mix old new (puts.map .inl ++ (moves.map .inr ++ done.map .inl))).Vacant n := by
  have hgone : new.parent n = none := h.drop n (by rw [hspl]; simp)
  refine ⟨?_, ?_⟩
  · intro r hplace
    have hsettled : new.place r = some n := by
      by_cases hmove : r ∈ moves
      · simpa [mix, hmove] using hplace
      · rw [← h.residents r hmove]
        simpa [mix, hmove] using hplace
    have hthr := hnew.placed r n hsettled
    rw [hgone] at hthr
    cases hthr
  · intro m hup
    rcases h.up_cases hspl hup with hsettled | ⟨hrest, hnot, hleft⟩
    · have hthr := hnew.under m n hsettled
      rw [hgone] at hthr
      cases hthr
    · exact hnot (h.deeper done n rest hspl m (by rw [hspl]; exact mem_append_right _ hrest) hleft)

theorem mix_all : mix old new h.elements = new := by
  have hpar : ∀ n, (mix old new h.elements).parent n = new.parent n := by
    intro n
    by_cases hput : n ∈ puts
    · exact mix_parent_of_mem (by simp [elements, hput])
    · by_cases hdrop : n ∈ drops
      · exact mix_parent_of_mem (by simp [elements, hdrop])
      · rw [mix_parent_of_notMem (by simp [elements, hput, hdrop]), h.nodes n hput hdrop]
  have hplace : ∀ r, (mix old new h.elements).place r = new.place r := by
    intro r
    by_cases hmove : r ∈ moves
    · simp [mix, elements, hmove]
    · simp [mix, elements, hmove, h.residents r hmove]
  exact Forest.ext (funext hpar) (funext hplace)

theorem stages {done rest : List (ν ⊕ ρ)} (hspl : h.elements = done ++ rest) :
    (∃ put left, puts = put ++ left ∧ done = put.map .inl) ∨
      (∃ moved : List ρ, done = puts.map .inl ++ moved.map .inr) ∨
      ∃ dropped kept, drops = dropped ++ kept ∧
        done = puts.map .inl ++ (moves.map .inr ++ dropped.map .inl) := by
  rcases append_eq_append_iff.mp hspl with ⟨later, rfl, hlat⟩ | ⟨early, hearly, -⟩
  · rcases append_eq_append_iff.mp hlat with ⟨gone, rfl, hgone⟩ | ⟨still, hstill, -⟩
    · obtain ⟨dropped, kept, hdrops, rfl, -⟩ := map_eq_append_iff.mp hgone
      exact .inr (.inr ⟨dropped, kept, hdrops, rfl⟩)
    · obtain ⟨moved, -, -, rfl, -⟩ := map_eq_append_iff.mp hstill
      exact .inr (.inl ⟨moved, rfl⟩)
  · obtain ⟨put, left, hputs, rfl, -⟩ := map_eq_append_iff.mp hearly
    exact .inl ⟨put, left, hputs, rfl⟩

theorem sheltered (hold : old.Housed) (hnew : new.Housed) (hordered : Ordered old new puts) :
    (∀ done rest, h.elements = done ++ rest → (mix old new done).Housed) ∧
      ∀ done n rest, h.elements = done ++ .inl n :: rest → new.parent n = none →
        (mix old new done).Vacant n := by
  constructor
  · intro done rest hspl
    rcases h.stages hspl with ⟨put, left, hputs, rfl⟩ | ⟨moved, rfl⟩ | ⟨dropped, kept, hdrops, rfl⟩
    · exact h.housed_of_puts hold hordered hputs
    · have hhoused := h.housed_of_moves hold hnew hordered moved
      rwa [map_nil, append_nil] at hhoused
    · exact h.housed_of_drops hold hnew hdrops
  · intro done n rest hspl hnone
    have hput : Sum.inl n ∉ puts.map (Sum.inl : ν → ν ⊕ ρ) := by
      intro hin
      obtain ⟨m, hm, heq⟩ := mem_map.mp hin
      cases heq
      have hthr := h.put n hm
      rw [hnone] at hthr
      cases hthr
    obtain ⟨later, rfl, hlat⟩ := append_of_notMem hspl hput
    obtain ⟨gone, rfl, hgone⟩ := append_of_notMem hlat (by simp)
    obtain ⟨dropped, kept, hdrops, rfl, hkept⟩ := map_eq_append_iff.mp hgone
    obtain ⟨first, last, rfl, hfst, -⟩ := map_eq_cons_iff.mp hkept
    cases hfst
    exact h.vacant_of_drops hnew hdrops

theorem passable_iff :
    Passable old new [] h.elements ↔
      old.Sound ∧ new.Sound ∧ Ordered old new puts ∧ Untangled old new puts := by
  constructor
  · intro hpass
    have hold := hpass.sound [] h.elements rfl
    have hnew := hpass.sound h.elements [] (append_nil _).symm
    rw [nil_append] at hold hnew
    rw [show mix old new [] = old by simp [mix]] at hold
    rw [h.mix_all] at hnew
    have hstg : ∀ done rest, puts = done ++ rest → (mix old new (done.map .inl)).Sound := by
      intro done rest hspl
      refine hpass.sound (done.map .inl) (rest.map .inl ++ (moves.map .inr ++ drops.map .inl)) ?_
      rw [elements, hspl, map_append, append_assoc]
    refine ⟨hold, hnew, ?_, fun done rest hspl => (hstg done rest hspl).acyclic⟩
    intro done n rest p hspl hup
    have hsnd := hstg (done ++ [n]) rest (by rw [hspl, append_assoc]; rfl)
    have hplc : (mix old new ((done ++ [n]).map .inl)).up n = some p := by
      rw [up_of_parent_eq (mix_parent_of_mem (by simp))]
      exact hup
    have hne : p ≠ n := by
      rintro rfl
      exact hsnd.acyclic p 1 one_pos (by simpa [walk] using hplc)
    have hthr := hsnd.under n p hplc
    by_cases hdone : p ∈ done
    · exact .inl hdone
    · rw [mix_parent_of_notMem (by simp [hdone, hne])] at hthr
      exact .inr hthr
  · rintro ⟨hold, hnew, hordered, huntangled⟩
    obtain ⟨hhoused, hvacant⟩ := h.sheltered hold.housed hnew.housed hordered
    refine ⟨fun done rest hspl => ?_, hvacant⟩
    have hstg := hhoused done rest hspl
    refine ⟨hstg.placed, hstg.under, ?_⟩
    rcases h.stages hspl with ⟨put, left, hputs, rfl⟩ | ⟨moved, rfl⟩ | ⟨dropped, kept, hdrops, rfl⟩
    · exact huntangled put left hputs
    · have hacy := h.acyclic_of_drops huntangled (nil_append drops).symm moved
      rwa [map_nil, append_nil] at hacy
    · exact h.acyclic_of_drops huntangled hdrops moves

end Schedule

end Forest

end MumbleRuntime.Library
