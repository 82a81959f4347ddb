import Mathlib.Data.List.Sort
import Mathlib.Data.List.Nodup
import Mathlib.Order.Basic
import Mathlib.Data.Prod.Lex

/-!
# Tables of records kept in key order

A table holds records of one type, sorted by a key each record carries, with no
key held twice. It is the finite ordered map of which a record's own field is
the key; a map from keys to separate values is the table of pairs keyed by the
first component, and a set is the table keyed by the identity.

Everything about a table follows from its lookup function: two tables with the
same lookups are equal, and the rows with a given key are that lookup's list.
-/

namespace MumbleRuntime.Library

open List
open Option hiding mem_map

/-- Records sorted by `key`, each key at most once. -/
structure Table {α κ : Type*} [LinearOrder κ] (key : α → κ) where
  rows : List α
  sorted : rows.Pairwise (fun a b => key a < key b)

namespace Table

variable {α κ : Type*} [LinearOrder κ] {key : α → κ}

variable {t : Table key}

theorem eq_of_rows {u : Table key} (h : t.rows = u.rows) : t = u := by
  cases t
  cases u
  cases h
  rfl

instance [DecidableEq α] : DecidableEq (Table key) := fun t u =>
  decidable_of_iff (t.rows = u.rows) ⟨eq_of_rows, fun h => h ▸ rfl⟩

def empty : Table key := ⟨[], .nil⟩

instance : Inhabited (Table key) := ⟨empty⟩

def isEmpty (t : Table key) : Bool := t.rows.isEmpty

def get? (t : Table key) (k : κ) : Option α := t.rows.find? (fun a => key a = k)

def contains (t : Table key) (k : κ) : Bool := (t.get? k).isSome

def insertRow (key : α → κ) (a : α) : List α → List α
  | [] => [a]
  | b :: bs =>
    if key a < key b then a :: b :: bs
    else if key a = key b then a :: bs
    else b :: insertRow key a bs

variable {a : α}

theorem mem_insertRow {b : α} {bs : List α} (h : b ∈ insertRow key a bs) : b = a ∨ b ∈ bs := by
  induction bs with
  | nil => simpa [insertRow] using h
  | cons c cs ih =>
    simp only [insertRow] at h
    split_ifs at h with hlt heq
    · simpa using h
    · simp only [mem_cons] at h ⊢
      exact h.imp_right Or.inr
    · simp only [mem_cons] at h ⊢
      rcases h with rfl | h
      · exact Or.inr (Or.inl rfl)
      · exact (ih h).imp_right Or.inr

theorem insertRow_sorted (a : α) {bs : List α} (h : bs.Pairwise (fun a b => key a < key b)) :
    (insertRow key a bs).Pairwise (fun a b => key a < key b) := by
  induction bs with
  | nil => simp [insertRow]
  | cons c cs ih =>
    obtain ⟨hc, hcs⟩ := pairwise_cons.mp h
    simp only [insertRow]
    split_ifs with hlt heq
    · refine pairwise_cons.mpr ⟨?_, h⟩
      intro b hb
      rcases mem_cons.mp hb with rfl | hb
      · exact hlt
      · exact hlt.trans (hc b hb)
    · refine pairwise_cons.mpr ⟨?_, hcs⟩
      intro b hb
      exact heq ▸ hc b hb
    · refine pairwise_cons.mpr ⟨?_, ih hcs⟩
      intro b hb
      rcases mem_insertRow hb with rfl | hb
      · exact lt_of_le_of_ne (not_lt.mp hlt) (Ne.symm heq)
      · exact hc b hb

def insert (t : Table key) (a : α) : Table key :=
  ⟨insertRow key a t.rows, insertRow_sorted a t.sorted⟩

def filter (t : Table key) (p : α → Bool) : Table key := ⟨t.rows.filter p, t.sorted.filter p⟩

def erase (t : Table key) (k : κ) : Table key := t.filter (fun a => key a ≠ k)

def extend (t u : Table key) : Table key := u.rows.foldl insert t

def ofList (as : List α) : Table key := as.foldl insert empty

def modify (t : Table key) (k : κ) (f : α → α) : Table key :=
  match t.get? k with
  | none => t
  | some a => t.insert (f a)

def mapRows {β : Type*} {key' : β → κ} (t : Table key) (f : α → β) (hf : ∀ a, key' (f a) = key a) :
    Table key' :=
  ⟨t.rows.map f, by simpa only [List.pairwise_map, hf] using t.sorted⟩

theorem keys_nodup (t : Table key) : (t.rows.map key).Nodup := by
  rw [List.Nodup, pairwise_map]
  exact t.sorted.imp (fun h => h.ne)

theorem rows_nodup (t : Table key) : t.rows.Nodup := t.keys_nodup.of_map key

variable {k : κ}

theorem get?_eq_some_iff : t.get? k = some a ↔ a ∈ t.rows ∧ key a = k := by
  constructor
  · intro h
    exact ⟨mem_of_find?_eq_some h, by simpa using find?_some h⟩
  · rintro ⟨ha, rfl⟩
    cases hfind : t.get? (key a) with
    | none =>
      have hnone := find?_eq_none.mp hfind a ha
      simp at hnone
    | some b =>
      have hb := mem_of_find?_eq_some hfind
      have hkey : key b = key a := by simpa using find?_some hfind
      rw [inj_on_of_nodup_map t.keys_nodup hb ha hkey]

theorem key_of_get? (h : t.get? k = some a) : key a = k :=
  (get?_eq_some_iff.mp h).2

theorem mem_of_get? (h : t.get? k = some a) : a ∈ t.rows :=
  (get?_eq_some_iff.mp h).1

theorem get?_of_mem (h : a ∈ t.rows) : t.get? (key a) = some a :=
  get?_eq_some_iff.mpr ⟨h, rfl⟩

theorem get?_eq_none_iff : t.get? k = none ↔ ∀ a ∈ t.rows, key a ≠ k := by
  simp [get?]

theorem ext_get? {u : Table key} (h : ∀ k, t.get? k = u.get? k) : t = u := by
  apply eq_of_rows
  have hmem : ∀ a, a ∈ t.rows ↔ a ∈ u.rows := by
    intro a
    constructor
    · intro ha
      exact mem_of_get? ((h (key a)).symm.trans (get?_of_mem ha))
    · intro ha
      exact mem_of_get? ((h (key a)).trans (get?_of_mem ha))
  have hperm : t.rows.Perm u.rows := (perm_ext_iff_of_nodup t.rows_nodup u.rows_nodup).mpr hmem
  exact hperm.eq_of_pairwise (fun a b _ _ hab hba => absurd hba hab.asymm) t.sorted u.sorted

theorem filter_rows (t : Table key) (k : κ) :
    t.rows.filter (fun a => key a = k) = (t.get? k).toList := by
  have hnd := t.rows_nodup.filter (fun a => decide (key a = k))
  cases h : t.get? k with
  | none =>
    rw [toList_none, filter_eq_nil_iff]
    intro a ha
    simpa using get?_eq_none_iff.mp h a ha
  | some a =>
    apply perm_singleton.mp
    apply (perm_ext_iff_of_nodup hnd (nodup_singleton a)).mpr
    intro b
    simp only [mem_filter, decide_eq_true_eq, mem_singleton]
    constructor
    · rintro ⟨hb, rfl⟩
      exact some.inj ((get?_of_mem hb).symm.trans h)
    · rintro rfl
      exact get?_eq_some_iff.mp h

variable {β : Type*}

theorem filterMap_rows (t : Table key) (k : κ) {f : α → Option β}
    (hf : ∀ a, key a ≠ k → f a = none) : t.rows.filterMap f = ((t.get? k).bind f).toList := by
  have hscan : ∀ as : List α, as.filterMap f = (as.filter (fun a => key a = k)).filterMap f := by
    intro as
    induction as with
    | nil => rfl
    | cons a as ih =>
      by_cases hk : key a = k
      · simp [hk, filterMap_cons, ih]
      · simp [hk, hf a hk, ih]
  rw [hscan, filter_rows]
  cases t.get? k with
  | none => rfl
  | some a => cases h : f a <;> simp [h]

theorem filterMap_eq_keys (t : Table key) (f : α → Option β) :
    t.rows.filterMap f = ((t.filter fun a => (f a).isSome).rows.map key).filterMap
      fun k => (t.get? k).bind f := by
  rw [filterMap_map, filter, filterMap_filter]
  refine filterMap_congr fun a ha => ?_
  cases hf : f a <;> simp [get?_of_mem ha, hf]

theorem filterMap_congr {u : Table key} {f g : α → Option β}
    (h : ∀ k, (t.get? k).bind f = (u.get? k).bind g) : t.rows.filterMap f = u.rows.filterMap g := by
  have hmem : ∀ (t : Table key) (f : α → Option β) (k : κ),
      k ∈ (t.filter fun a => (f a).isSome).rows.map key ↔ ((t.get? k).bind f).isSome := by
    intro t f k
    simp only [filter, mem_map, mem_filter]
    constructor
    · rintro ⟨a, ⟨ha, hsome⟩, rfl⟩
      rwa [get?_of_mem ha]
    · intro hsome
      cases hget : t.get? k with
      | none => simp [hget] at hsome
      | some a => exact ⟨a, ⟨mem_of_get? hget, by simpa [hget] using hsome⟩, key_of_get? hget⟩
  have hkeys : (t.filter fun a => (f a).isSome).rows.map key =
      (u.filter fun a => (g a).isSome).rows.map key := by
    have hperm := (perm_ext_iff_of_nodup (t.filter fun a => (f a).isSome).keys_nodup
      (u.filter fun a => (g a).isSome).keys_nodup).mpr fun k => by rw [hmem, hmem, h]
    exact hperm.eq_of_pairwise (fun _ _ _ _ hab hba => absurd hba hab.asymm)
      (pairwise_map.mpr (t.filter _).sorted) (pairwise_map.mpr (u.filter _).sorted)
  rw [filterMap_eq_keys t f, filterMap_eq_keys u g, hkeys]
  simp only [h]

theorem flatMap_rows (t : Table key) (k : κ) {f : α → List β} (hf : ∀ a, key a ≠ k → f a = []) :
    t.rows.flatMap f = ((t.get? k).map f).getD [] := by
  have hscan : ∀ as : List α, as.flatMap f = (as.filter (fun a => key a = k)).flatMap f := by
    intro as
    induction as with
    | nil => rfl
    | cons a as ih =>
      by_cases hk : key a = k
      · simp [hk, ih]
      · simp [hk, hf a hk, ih]
  rw [hscan, filter_rows]
  cases t.get? k <;> simp

@[simp] theorem get?_empty (k : κ) : (empty : Table key).get? k = none := rfl

theorem get?_insertRow (a : α) (bs : List α) (k : κ) :
    (insertRow key a bs).find? (fun b => key b = k) =
      if k = key a then some a else bs.find? (fun b => key b = k) := by
  induction bs with
  | nil =>
    by_cases hk : k = key a
    · simp [insertRow, hk]
    · simp [insertRow, hk, Ne.symm hk]
  | cons b bs ih =>
    simp only [insertRow]
    by_cases hk : k = key a
    · subst hk
      rw [if_pos rfl]
      split_ifs with hlt heq
      · simp
      · simp
      · rw [find?_cons_of_neg (by simpa using Ne.symm heq), ih, if_pos rfl]
    · split_ifs with hlt heq
      · rw [find?_cons_of_neg (by simpa using Ne.symm hk)]
      · rw [find?_cons_of_neg (by simpa using Ne.symm hk),
          find?_cons_of_neg (by simpa using fun h => hk (heq.trans h).symm)]
      · by_cases hb : key b = k
        · simp [hb]
        · rw [find?_cons_of_neg (by simpa using hb),
            find?_cons_of_neg (by simpa using hb), ih, if_neg hk]

@[simp] theorem get?_insert (t : Table key) (a : α) (k : κ) :
    (t.insert a).get? k = if k = key a then some a else t.get? k :=
  get?_insertRow a t.rows k

theorem get?_insert_self (t : Table key) (a : α) : (t.insert a).get? (key a) = some a := by simp

@[simp] theorem get?_filter (t : Table key) (p : α → Bool) (k : κ) :
    (t.filter p).get? k = (t.get? k).filter p := by
  cases h : t.get? k with
  | none =>
    rw [filter_none, get?_eq_none_iff]
    intro a ha
    exact get?_eq_none_iff.mp h a (mem_filter.mp ha).1
  | some a =>
    obtain ⟨ha, hk⟩ := get?_eq_some_iff.mp h
    by_cases hp : p a = true
    · rw [filter_some, if_pos hp]
      exact get?_eq_some_iff.mpr ⟨mem_filter.mpr ⟨ha, hp⟩, hk⟩
    · rw [filter_some, if_neg hp, get?_eq_none_iff]
      intro b hb hkb
      obtain ⟨hbm, hpb⟩ := mem_filter.mp hb
      have hba : b = a := some.inj ((get?_eq_some_iff.mpr ⟨hbm, hkb⟩).symm.trans h)
      exact hp (hba ▸ hpb)

@[simp] theorem get?_erase (t : Table key) (j k : κ) :
    (t.erase j).get? k = if k = j then none else t.get? k := by
  rw [erase, get?_filter]
  cases h : t.get? k with
  | none => simp
  | some a =>
    have hk := key_of_get? h
    by_cases hj : k = j <;> simp [filter_some, hk, hj]

theorem get?_foldl_insert (as : List α) (t : Table key) (k : κ)
    (hnd : as.Pairwise (fun a b => key a < key b)) :
    (as.foldl insert t).get? k = (as.find? (fun a => key a = k)).or (t.get? k) := by
  induction as generalizing t with
  | nil => simp
  | cons a as ih =>
    obtain ⟨ha, has⟩ := pairwise_cons.mp hnd
    rw [foldl_cons, ih _ has, get?_insert]
    by_cases hk : k = key a
    · have hnone : as.find? (fun b => key b = k) = none := by
        rw [find?_eq_none]
        intro b hb
        simpa [hk] using (ha b hb).ne'
      rw [hnone, if_pos hk, find?_cons_of_pos (by simpa using hk.symm)]
      rfl
    · rw [if_neg hk, find?_cons_of_neg (by simpa using Ne.symm hk)]

@[simp] theorem get?_extend (t u : Table key) (k : κ) :
    (t.extend u).get? k = (u.get? k).or (t.get? k) :=
  get?_foldl_insert u.rows t k u.sorted

theorem get?_modify (t : Table key) (j k : κ) (f : α → α) (hf : ∀ a, key (f a) = key a) :
    (t.modify j f).get? k = if k = j then (t.get? k).map f else t.get? k := by
  unfold modify
  cases h : t.get? j with
  | none =>
    by_cases hk : k = j
    · subst hk
      simp [h]
    · simp [hk]
  | some a =>
    have ha := key_of_get? h
    simp only [get?_insert, hf, ha]
    by_cases hk : k = j
    · subst hk
      simp [h]
    · simp [hk]

@[simp] theorem get?_mapRows {key' : β → κ} (t : Table key) (f : α → β)
    (hf : ∀ a, key' (f a) = key a) (k : κ) : (t.mapRows f hf).get? k = (t.get? k).map f := by
  simp only [get?, mapRows, find?_map, Function.comp_def, hf]

theorem eq_empty_of_isEmpty (h : t.isEmpty = true) : t = empty :=
  eq_of_rows (isEmpty_iff.mp h)

theorem contains_iff : t.contains k = true ↔ ∃ a, t.get? k = some a := by
  simp [contains, isSome_iff_exists]

theorem mem_gone_iff {u : Table key} {f : κ → β} {b : β} :
    b ∈ t.rows.filterMap (fun old => if u.contains (key old) then none else some (f (key old))) ↔
      ∃ k, b = f k ∧ t.contains k = true ∧ u.contains k = false := by
  rw [mem_filterMap]
  constructor
  · rintro ⟨old, hold, hpick⟩
    split_ifs at hpick with hstays
    exact ⟨key old, (some.inj hpick).symm, contains_iff.mpr ⟨old, get?_of_mem hold⟩,
      by simpa using hstays⟩
  · rintro ⟨k, rfl, hthr, hgone⟩
    obtain ⟨old, hold⟩ := contains_iff.mp hthr
    obtain rfl := key_of_get? hold
    exact ⟨old, mem_of_get? hold, by rw [hgone]; rfl⟩

theorem contains_eq_false_iff : t.contains k = false ↔ t.get? k = none := by
  simp [contains]

theorem insert_self_of_get? (h : t.get? (key a) = some a) : t.insert a = t := by
  apply ext_get?
  intro k
  rw [get?_insert]
  split_ifs with hk
  · rw [hk, h]
  · rfl

theorem mem_rows_iff : a ∈ t.rows ↔ t.get? (key a) = some a :=
  ⟨get?_of_mem, mem_of_get?⟩

theorem insert_perm (t : Table key) (a : α) : (t.insert a).rows.Perm
    (a :: (t.erase (key a)).rows) := by
  have hnot : a ∉ (t.erase (key a)).rows := by
    intro h
    have hget := get?_of_mem h
    simp at hget
  refine (perm_ext_iff_of_nodup (rows_nodup _) (nodup_cons.mpr ⟨hnot, rows_nodup _⟩)).mpr ?_
  intro b
  rw [mem_cons, mem_rows_iff, mem_rows_iff, get?_insert, get?_erase]
  split_ifs with hk
  · simp [eq_comm]
  · have hb : b ≠ a := fun h => hk (by rw [h])
    simp [hb]

theorem erase_perm (h : t.get? k = some a) : t.rows.Perm (a :: (t.erase k).rows) := by
  have hinsert : t.insert a = t := insert_self_of_get? (by rwa [key_of_get? h])
  have hperm := t.insert_perm a
  rwa [hinsert, key_of_get? h] at hperm

theorem mem_insert_cases {b : α} (h : b ∈ (t.insert a).rows) :
    b = a ∨ b ∈ t.rows ∧ key b ≠ key a := by
  have hget := get?_of_mem h
  rw [get?_insert] at hget
  split_ifs at hget with hkey
  · exact .inl (some.inj hget).symm
  · exact .inr ⟨mem_of_get? hget, hkey⟩

theorem mem_or_mem_of_mem_foldl_insert {as : List α} (h : a ∈ (as.foldl insert t).rows) :
    a ∈ as ∨ a ∈ t.rows := by
  induction as generalizing t with
  | nil => exact .inr h
  | cons b rest ih =>
    rcases ih h with hrest | hinsert
    · exact .inl (mem_cons_of_mem _ hrest)
    · rcases mem_insert_cases hinsert with rfl | ⟨hold, -⟩
      · exact .inl mem_cons_self
      · exact .inr hold

theorem mem_foldl_insert_iff (hkey : Function.Injective key) {as : List α} :
    a ∈ (as.foldl insert t).rows ↔ a ∈ as ∨ a ∈ t.rows := by
  refine ⟨mem_or_mem_of_mem_foldl_insert, ?_⟩
  induction as generalizing t with
  | nil => simp
  | cons b rest ih =>
    intro h
    have hinsert : a = b ∨ a ∈ t.rows → a ∈ (t.insert b).rows := by
      intro hold
      rw [mem_rows_iff, get?_insert]
      split_ifs with hsame
      · rw [hkey hsame]
      · rcases hold with rfl | hold
        · exact absurd rfl hsame
        · exact get?_of_mem hold
    apply ih
    rcases h with h | h
    · rcases mem_cons.mp h with rfl | hrest
      · exact .inr (hinsert (.inl rfl))
      · exact .inl hrest
    · exact .inr (hinsert (.inr h))

theorem length_insert_of_get? {b : α} (h : t.get? (key a) = some b) :
    (t.insert a).rows.length = t.rows.length := by
  rw [(t.insert_perm a).length_eq, (erase_perm h).length_eq]
  rfl

theorem erase_of_get?_none (h : t.get? k = none) : t.erase k = t := by
  apply ext_get?
  intro j
  rw [get?_erase]
  split_ifs with hj
  · rw [hj, h]
  · rfl

theorem length_insert_of_none (h : t.get? (key a) = none) :
    (t.insert a).rows.length = t.rows.length + 1 := by
  rw [(t.insert_perm a).length_eq, erase_of_get?_none h]
  rfl

theorem shared_append_new_perm [DecidableEq α] (t u : Table key) :
    (t.rows.filter (fun a => u.get? (key a) = some a) ++
      u.rows.filter (fun a => t.get? (key a) ≠ some a)).Perm u.rows := by
  have hshr : (t.rows.filter fun a => u.get? (key a) = some a).Perm
      (u.rows.filter fun a => t.get? (key a) = some a) := by
    refine (perm_ext_iff_of_nodup (t.rows_nodup.filter _) (u.rows_nodup.filter _)).mpr fun a => ?_
    simp only [mem_filter, decide_eq_true_eq, mem_rows_iff, and_comm]
  refine (hshr.append_right _).trans ?_
  simpa using filter_append_perm (fun a => decide (t.get? (key a) = some a)) u.rows

end Table

abbrev OrderedMap (κ β : Type*) [LinearOrder κ] := Table (Prod.fst : κ × β → κ)

namespace OrderedMap

variable {κ β : Type*} [LinearOrder κ]

def find? (m : OrderedMap κ β) (k : κ) : Option β := (m.get? k).map Prod.snd

def set (m : OrderedMap κ β) (k : κ) (b : β) : OrderedMap κ β := m.insert (k, b)

@[simp] theorem find?_empty (k : κ) : find? (Table.empty : OrderedMap κ β) k = none := rfl

@[simp] theorem find?_set (m : OrderedMap κ β) (j k : κ) (b : β) :
    find? (m.set j b) k = if k = j then some b else find? m k := by
  simp only [find?, set, Table.get?_insert]
  split_ifs <;> rfl

theorem mem_rows_iff_find? {m : OrderedMap κ β} {k : κ} {b : β} :
    (k, b) ∈ m.rows ↔ find? m k = some b := by
  rw [find?, map_eq_some_iff]
  constructor
  · intro h
    exact ⟨(k, b), Table.get?_of_mem h, rfl⟩
  · rintro ⟨⟨j, c⟩, hget, rfl⟩
    obtain rfl : j = k := Table.key_of_get? hget
    exact Table.mem_of_get? hget

@[simp] theorem find?_erase (m : OrderedMap κ β) (j k : κ) :
    find? (m.erase j) k = if k = j then none else find? m k := by
  rw [find?, Table.get?_erase]
  split_ifs <;> rfl

theorem find?_foldl_insert_const {pairs : List (κ × β)} {b : β} (h : ∀ pair ∈ pairs, pair.2 = b)
    (m : OrderedMap κ β) (k : κ) :
    find? (pairs.foldl Table.insert m) k =
      if k ∈ pairs.map Prod.fst then some b else find? m k := by
  induction pairs generalizing m with
  | nil => rfl
  | cons pair rest ih =>
    obtain ⟨j, c⟩ := pair
    obtain rfl : c = b := h _ mem_cons_self
    have hinsert : find? (Table.insert m (j, c)) k = if k = j then some c else find? m k :=
      find?_set m j k c
    rw [foldl_cons, ih (fun pair hpair => h pair (mem_cons_of_mem _ hpair)), hinsert]
    by_cases hmem : k ∈ rest.map Prod.fst <;> by_cases hk : k = j <;> simp [hmem, hk]

theorem find?_foldl_count {α : Type*} (key : α → Option κ) {k : κ} {p : α → Bool}
    (hp : ∀ a, p a = true ↔ key a = some k) (as : List α) (m : OrderedMap κ ℕ) :
    find? (as.foldl (fun counts a =>
        match key a with
        | some j => counts.set j ((find? counts j).getD 0 + 1)
        | none => counts) m) k =
      if as.filter p = [] then find? m k else some ((find? m k).getD 0 + (as.filter p).length) := by
  induction as generalizing m with
  | nil => rfl
  | cons a rest ih =>
    rw [foldl_cons, ih]
    cases hkey : key a with
    | none =>
      have hskip : p a = false := by simp [Bool.eq_false_iff, hp, hkey]
      simp [hskip]
    | some j =>
      simp only [find?_set, filter_cons]
      by_cases hk : k = j
      · have hcounts : p a = true := by rw [hp, hkey, hk]
        by_cases hrest : rest.filter p = []
        · simp [hk, hcounts, hrest]
        · simp only [hk, hcounts, hrest, if_true, if_false, getD_some, reduceCtorEq,
            length_cons, some.injEq]
          omega
      · have hskip : p a = false := by simp [Bool.eq_false_iff, hp, hkey, Ne.symm hk]
        simp [hk, hskip]

end OrderedMap

abbrev OrderedSet (κ : Type*) [LinearOrder κ] := Table (id : κ → κ)

namespace OrderedSet

variable {κ : Type*} [LinearOrder κ]

def difference (s u : OrderedSet κ) : OrderedSet κ := s.filter (fun a => !u.contains a)

variable {s : OrderedSet κ}

theorem get?_eq_some_iff' {a b : κ} : s.get? a = some b ↔ s.contains a = true ∧ b = a := by
  constructor
  · intro h
    exact ⟨Table.contains_iff.mpr ⟨b, h⟩, Table.key_of_get? h⟩
  · rintro ⟨h, rfl⟩
    obtain ⟨c, hc⟩ := Table.contains_iff.mp h
    have hcb : c = b := Table.key_of_get? hc
    exact hcb ▸ hc

theorem ext_contains {u : OrderedSet κ} (h : ∀ a, s.contains a = u.contains a) : s = u := by
  apply Table.ext_get?
  intro k
  ext b
  rw [get?_eq_some_iff', get?_eq_some_iff', h]

@[simp] theorem contains_empty (a : κ) : (Table.empty : OrderedSet κ).contains a = false := rfl

@[simp] theorem contains_insert (s : OrderedSet κ) (a b : κ) :
    (s.insert a).contains b = (decide (b = a) || s.contains b) := by
  simp only [Table.contains, Table.get?_insert, id]
  split_ifs with h <;> simp [h]

@[simp] theorem contains_erase (s : OrderedSet κ) (a b : κ) :
    (s.erase a).contains b = (!decide (b = a) && s.contains b) := by
  simp only [Table.contains, Table.get?_erase]
  split_ifs with h <;> simp [h]

@[simp] theorem contains_extend (s u : OrderedSet κ) (a : κ) :
    (s.extend u).contains a = (u.contains a || s.contains a) := by
  simp [Table.contains]

@[simp] theorem contains_difference (s u : OrderedSet κ) (a : κ) :
    (s.difference u).contains a = (s.contains a && !u.contains a) := by
  rw [difference, Table.contains, Table.get?_filter]
  cases h : s.get? a with
  | none => simp [Table.contains_eq_false_iff.mpr h]
  | some b =>
    have hb : b = a := Table.key_of_get? h
    subst hb
    have hs : s.contains b = true := Table.contains_iff.mpr ⟨b, h⟩
    cases hu : u.contains b <;> simp [filter_some, hu, hs]

theorem difference_self (s : OrderedSet κ) : (s.difference s).isEmpty = true := by
  refine isEmpty_iff.mpr (filter_eq_nil_iff.mpr fun row hrow => ?_)
  have hin : s.contains row = true := Table.contains_iff.mpr ⟨row, Table.get?_of_mem hrow⟩
  simp [hin]

theorem eq_of_difference_isEmpty {u : OrderedSet κ} (h : (s.difference u).isEmpty = true)
    (h' : (u.difference s).isEmpty = true) : s = u := by
  apply ext_contains
  intro a
  have hs : (s.difference u).contains a = false := by rw [Table.eq_empty_of_isEmpty h]; rfl
  have hu : (u.difference s).contains a = false := by rw [Table.eq_empty_of_isEmpty h']; rfl
  cases hin : s.contains a <;> cases hin' : u.contains a <;> simp_all

theorem mem_rows_iff {a : κ} : a ∈ s.rows ↔ s.contains a = true := by
  rw [Table.contains_iff]
  constructor
  · intro h
    exact ⟨a, Table.get?_of_mem h⟩
  · rintro ⟨b, hget⟩
    obtain rfl : b = a := Table.key_of_get? hget
    exact Table.mem_of_get? hget

theorem contains_foldl_insert (as : List κ) (s : OrderedSet κ) (a : κ) :
    Table.contains (as.foldl Table.insert s) a = (decide (a ∈ as) || s.contains a) := by
  induction as generalizing s with
  | nil => simp
  | cons b rest ih =>
    rw [foldl_cons, ih, contains_insert]
    by_cases hb : a = b <;> simp [hb]

end OrderedSet

end MumbleRuntime.Library
