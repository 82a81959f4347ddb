import Mathlib.Logic.Basic

/-!
# What was told of versioned objects

Objects change, and each carries a version that is raised when a change is told. An
object is stale from a change to the next raise. If only what is not stale is ever
told, a version tells the state.
-/

namespace MumbleRuntime.Library

variable {κ β : Type*}

/-- What was told of each object, against what the objects are. Versions saturate at `top`. -/
structure Records (top : Nat) (stale : κ → Prop) (current : κ → Option (Nat × β))
    (book : κ → Nat × β → Prop) : Prop where
  determined : ∀ {k v b b'}, book k (v, b) → book k (v, b') → v < top → b = b'
  behind : ∀ {k v b v' b'}, book k (v, b) → current k = some (v', b') → v ≤ v'
  faithful : ∀ {k v b b'}, ¬stale k → book k (v, b) → current k = some (v, b') → v < top → b = b'

/-- What may become of an object of which only `told` was told. -/
inductive Amended (top : Nat) (told : Nat × β → Prop) (stale stale' : Prop) :
    Option (Nat × β) → Option (Nat × β) → Prop
  | gone (before : Option (Nat × β)) : Amended top told stale stale' before none
  | opened (before : Option (Nat × β)) {after : Nat × β} (hnew : ∀ state, ¬told state) :
      Amended top told stale stale' before (some after)
  | kept {state : Nat × β} (hstale : stale → stale') :
      Amended top told stale stale' (some state) (some state)
  | changed {v : Nat} {b b' : β} (hstale : stale') :
      Amended top told stale stale' (some (v, b)) (some (v, b'))
  | raised {v v' : Nat} {b b' : β} (hle : v ≤ v') (hraised : v < v' ∨ top ≤ v') :
      Amended top told stale stale' (some (v, b)) (some (v', b'))

theorem Amended.same {top : Nat} {told : Nat × β → Prop} {stale stale' : Prop}
    (before : Option (Nat × β)) (hstl : stale → stale') :
    Amended top told stale stale' before before := by
  cases before with
  | none => exact .gone none
  | some state => exact .kept hstl

namespace Records

variable {top : Nat} {stale stale' : κ → Prop} {current current' : κ → Option (Nat × β)}
  {book : κ → Nat × β → Prop}

theorem amend (h : Records top stale current book)
    (hamended : ∀ k, Amended top (book k) (stale k) (stale' k) (current k) (current' k)) :
    Records top stale' current' book where
  determined := h.determined
  behind {k v b v' b'} hbook hcur := by
    have hamended := hamended k
    rw [hcur] at hamended
    generalize hbef : current k = before at hamended
    cases hamended with
    | opened _ hnew => exact absurd hbook (hnew _)
    | kept hstl
    | changed hstl => exact h.behind hbook hbef
    | raised hle hraised => exact Nat.le_trans (h.behind hbook hbef) hle
  faithful {k v b b'} hstl' hbook hcur htop := by
    have hamended := hamended k
    rw [hcur] at hamended
    generalize hbef : current k = before at hamended
    cases hamended with
    | opened _ hnew => exact absurd hbook (hnew _)
    | kept hstl => exact h.faithful (fun hk => hstl' (hstl hk)) hbook hbef htop
    | changed hstl => exact absurd hstl hstl'
    | raised hle hraised =>
      have hbehind := h.behind hbook hbef
      omega

theorem tell (h : Records top stale current book) {told : κ} {state : Nat × β}
    (hfr : ¬stale told) (hcur : current told = some state) :
    Records top stale current fun k state' => book k state' ∨ (k = told ∧ state' = state) where
  determined {k v b b'} hbook hbook' htop := by
    rcases hbook with hbook | ⟨rfl, rfl⟩ <;> rcases hbook' with hbook' | ⟨hk, hst⟩
    · exact h.determined hbook hbook' htop
    · subst hk
      subst hst
      exact h.faithful hfr hbook hcur htop
    · exact (h.faithful hfr hbook' hcur htop).symm
    · exact (congrArg Prod.snd hst).symm
  behind {k v b v' b'} hbook hcur' := by
    rcases hbook with hbook | ⟨rfl, rfl⟩
    · exact h.behind hbook hcur'
    · rw [hcur] at hcur'
      cases hcur'
      exact Nat.le_refl v
  faithful {k v b b'} hstl hbook hcur' htop := by
    rcases hbook with hbook | ⟨rfl, rfl⟩
    · exact h.faithful hstl hbook hcur' htop
    · rw [hcur] at hcur'
      cases hcur'
      rfl

end Records

end MumbleRuntime.Library
