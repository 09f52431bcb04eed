/-
# `Keld.Lib.OrdMap` — a finite map iterated in key order

A sorted association list, with the sortedness of its keys carried as a field: the
ordered map of a standard library seen from its documented behaviour.  Iteration is in
increasing key order, and "the first value with property `p`" is the one of lowest key.

A program that writes through a mutable reference to a value is the pair of `find?` (or
`get?`) and `set`; a loop over all mutable values is `map`.

Every lemma below is stated through `get?`, so that a proof about one key never sees
the list.
-/
import Mathlib.Data.List.Basic
import Mathlib.Order.Basic
import Mathlib.Tactic.Common
import Mathlib.Order.Lattice

namespace Keld

open List

/-- A finite map whose entries are listed in strictly increasing key order. -/
structure OrdMap (κ ν : Type*) [LinearOrder κ] where
  toList : List (κ × ν)
  sorted : toList.Pairwise (fun a b => a.1 < b.1)

namespace OrdMap

variable {κ ν : Type*} [LinearOrder κ]

/-- The map without entries. -/
def empty : OrdMap κ ν := ⟨[], List.Pairwise.nil⟩

/-- Number of entries. -/
def length (m : OrdMap κ ν) : ℕ := m.toList.length

/-- The values, in key order. -/
def values (m : OrdMap κ ν) : List ν := m.toList.map Prod.snd

/-- The value at `k`. -/
def get? (m : OrdMap κ ν) (k : κ) : Option ν :=
  (m.toList.find? (fun a => a.1 = k)).map Prod.snd

/-- The entry of lowest key whose value satisfies `p`. -/
def find? (m : OrdMap κ ν) (p : ν → Bool) : Option (κ × ν) :=
  m.toList.find? (fun a => p a.2)

/-- Sorted insertion into a list of entries; an equal key is replaced. -/
def insertList (k : κ) (v : ν) : List (κ × ν) → List (κ × ν)
  | [] => [(k, v)]
  | (k', v') :: rest =>
    if k < k' then (k, v) :: (k', v') :: rest
    else if k = k' then (k, v) :: rest
    else (k', v') :: insertList k v rest

theorem mem_insertList {k : κ} {v : ν} :
    ∀ {l : List (κ × ν)}, l.Pairwise (fun a b => a.1 < b.1) → ∀ {a : κ × ν},
      a ∈ insertList k v l ↔ a = (k, v) ∨ (a ∈ l ∧ a.1 ≠ k)
  | [], _, a => by simp [insertList]
  | (k', v') :: rest, hs, a => by
    have hta := (pairwise_cons.mp hs).2
    have hh := (pairwise_cons.mp hs).1
    unfold insertList
    split_ifs with hlt he
    · have hne : ∀ b ∈ (k', v') :: rest, b.1 ≠ k := by
        intro b hb
        rcases mem_cons.mp hb with rfl | hb
        · exact ne_of_gt hlt
        · exact ne_of_gt (hlt.trans (hh b hb))
      constructor
      · intro h
        rcases mem_cons.mp h with rfl | h
        · exact .inl rfl
        · exact .inr ⟨h, hne a h⟩
      · rintro (rfl | ⟨h, -⟩)
        · exact mem_cons_self
        · exact mem_cons_of_mem _ h
    · subst he
      have hne : ∀ b ∈ rest, b.1 ≠ k := fun b hb => ne_of_gt (hh b hb)
      constructor
      · intro h
        rcases mem_cons.mp h with rfl | h
        · exact .inl rfl
        · exact .inr ⟨mem_cons_of_mem _ h, hne a h⟩
      · rintro (rfl | ⟨h, hk⟩)
        · exact mem_cons_self
        · rcases mem_cons.mp h with rfl | h
          · exact absurd rfl hk
          · exact mem_cons_of_mem _ h
    · rw [mem_cons, mem_insertList hta]
      constructor
      · rintro (rfl | rfl | ⟨h, hk⟩)
        · exact .inr ⟨mem_cons_self, fun h => he h.symm⟩
        · exact .inl rfl
        · exact .inr ⟨mem_cons_of_mem _ h, hk⟩
      · rintro (rfl | ⟨h, hk⟩)
        · exact .inr (.inl rfl)
        · rcases mem_cons.mp h with rfl | h
          · exact .inl rfl
          · exact .inr (.inr ⟨h, hk⟩)

theorem insertList_sorted {k : κ} {v : ν} :
    ∀ {l : List (κ × ν)}, l.Pairwise (fun a b => a.1 < b.1) →
      (insertList k v l).Pairwise (fun a b => a.1 < b.1)
  | [], _ => by simp [insertList]
  | (k', v') :: rest, hs => by
    have hta := (pairwise_cons.mp hs).2
    have hh := (pairwise_cons.mp hs).1
    unfold insertList
    split_ifs with hlt he
    · refine pairwise_cons.mpr ⟨?_, hs⟩
      intro b hb
      rcases mem_cons.mp hb with rfl | hb
      · exact hlt
      · exact hlt.trans (hh b hb)
    · subst he
      exact pairwise_cons.mpr ⟨hh, hta⟩
    · refine pairwise_cons.mpr ⟨?_, insertList_sorted hta⟩
      intro b hb
      rcases (mem_insertList hta).mp hb with rfl | ⟨hb, -⟩
      · exact lt_of_le_of_ne (not_lt.mp hlt) (Ne.symm he)
      · exact hh b hb

/-- Adds an entry, replacing the value at an equal key. -/
def insert (m : OrdMap κ ν) (k : κ) (v : ν) : OrdMap κ ν :=
  ⟨insertList k v m.toList, insertList_sorted m.sorted⟩

/-- Removes the entry at `k`. -/
def erase (m : OrdMap κ ν) (k : κ) : OrdMap κ ν :=
  ⟨m.toList.filter (fun a => a.1 ≠ k), m.sorted.filter _⟩

/-- Rewrites every value in place; the keys stay. -/
def mapEntries (f : κ × ν → ν) (m : OrdMap κ ν) : OrdMap κ ν :=
  ⟨m.toList.map (fun a => (a.1, f a)), pairwise_map.mpr m.sorted⟩

/-- Writes through a reference to the value at `k`. -/
def set (m : OrdMap κ ν) (k : κ) (v : ν) : OrdMap κ ν :=
  m.mapEntries (fun a => if a.1 = k then v else a.2)

/-- A loop over all mutable values. -/
def map (f : ν → ν) (m : OrdMap κ ν) : OrdMap κ ν :=
  m.mapEntries (fun a => f a.2)

/-! ## Membership and `get?` -/

variable {m m' : OrdMap κ ν} {a : κ × ν} {p : ν → Bool}

theorem eq_of_mem_of_key_eq {b : κ × ν} (ha : a ∈ m.toList) (hb : b ∈ m.toList) (h : a.1 = b.1) :
    a = b := by
  obtain ⟨i, hi, rfl⟩ := mem_iff_getElem.mp ha
  obtain ⟨j, hj, rfl⟩ := mem_iff_getElem.mp hb
  have hso := pairwise_iff_getElem.mp m.sorted
  rcases Nat.lt_trichotomy i j with hlt | rfl | hlt
  · exact absurd h (ne_of_lt (hso i j hi hj hlt))
  · rfl
  · exact absurd h (ne_of_gt (hso j i hj hi hlt))

theorem mem_toList_iff {k : κ} {v : ν} : (k, v) ∈ m.toList ↔ m.get? k = some v := by
  unfold get?
  constructor
  · intro h
    cases hf : m.toList.find? (fun a => a.1 = k) with
    | none =>
      have := find?_eq_none.mp hf (k, v) h
      simp at this
    | some a =>
      have hak : a.1 = k := by simpa using find?_some hf
      have ha := eq_of_mem_of_key_eq (mem_of_find?_eq_some hf) h hak
      simp [ha]
  · intro h
    obtain ⟨a, ha, rfl⟩ := Option.map_eq_some_iff.mp h
    have hak : a.1 = k := by simpa using find?_some ha
    have := mem_of_find?_eq_some ha
    rwa [← hak]

theorem mem_values_iff {v : ν} : v ∈ m.values ↔ ∃ k, m.get? k = some v := by
  constructor
  · intro h
    obtain ⟨a, ha, rfl⟩ := mem_map.mp h
    exact ⟨a.1, mem_toList_iff.mp ha⟩
  · rintro ⟨k, hk⟩
    exact mem_map.mpr ⟨(k, v), mem_toList_iff.mpr hk, rfl⟩

theorem get?_eq_of_mem_iff {k : κ} (h : ∀ v, m.get? k = some v ↔ m'.get? k = some v) :
    m.get? k = m'.get? k := by
  cases hm' : m'.get? k with
  | none =>
    cases hm : m.get? k with
    | none => rfl
    | some v => exact absurd ((h v).mp hm) (by simp [hm'])
  | some v => exact (h v).mpr hm'

@[simp] theorem get?_empty (k : κ) : (empty : OrdMap κ ν).get? k = none := rfl

@[simp] theorem get?_insert (m : OrdMap κ ν) (k : κ) (v : ν) (j : κ) :
    (m.insert k v).get? j = if j = k then some v else m.get? j := by
  have hm : ∀ w, (m.insert k v).get? j = some w ↔
      (j = k ∧ w = v) ∨ (m.get? j = some w ∧ j ≠ k) := by
    intro w
    rw [← mem_toList_iff, ← mem_toList_iff, insert, mem_insertList m.sorted]
    simp
  split_ifs with hj
  · exact (hm v).mpr (.inl ⟨hj, rfl⟩)
  · refine get?_eq_of_mem_iff (fun w => ?_)
    rw [hm w]
    simp [hj]

@[simp] theorem get?_erase (m : OrdMap κ ν) (k j : κ) :
    (m.erase k).get? j = if j = k then none else m.get? j := by
  split_ifs with h
  · subst h
    simp [get?, erase, find?_eq_none]
  · refine get?_eq_of_mem_iff (fun v => ?_)
    rw [← mem_toList_iff, ← mem_toList_iff]
    simp [erase, h]

/-- Erasing the `i`-th entry among those that satisfy `p` drops exactly it from them. -/
theorem filter_toList_erase {p : κ × ν → Bool} {i : ℕ} (h : (m.toList.filter p)[i]? = some a) :
    (m.erase a.1).toList.filter p = (m.toList.filter p).eraseIdx i := by
  obtain ⟨hi, ha⟩ := List.getElem?_eq_some_iff.mp h
  have hso := m.sorted.filter p
  have hs : m.toList.filter p =
      (m.toList.filter p).take i ++ a :: (m.toList.filter p).drop (i + 1) := by
    rw [← ha, ← drop_eq_getElem_cons hi, take_append_drop]
  rw [hs] at hso
  obtain ⟨-, haf, hbe⟩ := pairwise_append.mp hso
  have hco : (m.erase a.1).toList.filter p =
      (m.toList.filter p).filter (fun b => b.1 ≠ a.1) := filter_comm _ _ _
  have hta : ((m.toList.filter p).take i).filter (fun b => decide (b.1 ≠ a.1)) =
      (m.toList.filter p).take i := filter_eq_self.mpr fun b hb =>
        decide_eq_true (ne_of_lt (hbe b hb a mem_cons_self))
  have hd : ((m.toList.filter p).drop (i + 1)).filter (fun b => decide (b.1 ≠ a.1)) =
      (m.toList.filter p).drop (i + 1) := filter_eq_self.mpr fun b hb =>
        decide_eq_true (ne_of_gt ((pairwise_cons.mp haf).1 b hb))
  rw [hco, eraseIdx_eq_take_drop_succ]
  conv_lhs => rw [hs]
  rw [filter_append, filter_cons_of_neg (by simp), hta, hd]

theorem get?_mapEntries (f : κ × ν → ν) (m : OrdMap κ ν) (j : κ) :
    (m.mapEntries f).get? j = (m.get? j).map (fun v => f (j, v)) := by
  have hme : ∀ w, (m.mapEntries f).get? j = some w ↔ ∃ v, m.get? j = some v ∧ f (j, v) = w := by
    intro w
    rw [← mem_toList_iff, mapEntries, mem_map]
    constructor
    · rintro ⟨⟨k, v⟩, ha, he⟩
      obtain ⟨rfl, rfl⟩ := Prod.mk.inj he
      exact ⟨v, mem_toList_iff.mp ha, rfl⟩
    · rintro ⟨v, hv, rfl⟩
      exact ⟨(j, v), mem_toList_iff.mpr hv, rfl⟩
  cases hm : m.get? j with
  | none =>
    cases hf : (m.mapEntries f).get? j with
    | none => rfl
    | some w =>
      obtain ⟨v, hv, -⟩ := (hme w).mp hf
      exact absurd hv (by simp [hm])
  | some v => exact (hme (f (j, v))).mpr ⟨v, hm, rfl⟩

@[simp] theorem get?_map (f : ν → ν) (m : OrdMap κ ν) (j : κ) :
    (m.map f).get? j = (m.get? j).map f :=
  get?_mapEntries _ m j

theorem get?_set {k : κ} {v : ν} (hk : m.get? k = some v) (w : ν) (j : κ) :
    (m.set k w).get? j = if j = k then some w else m.get? j := by
  rw [set, get?_mapEntries]
  split_ifs with hj
  · subst hj
    rw [hk]
    rfl
  · cases m.get? j <;> rfl

theorem set_self {k : κ} {v : ν} (hk : m.get? k = some v) : m.set k v = m := by
  have hli : m.toList.map (fun a => (a.1, if a.1 = k then v else a.2)) = m.toList.map id := by
    refine map_congr_left (fun a ha => ?_)
    split_ifs with h
    · have := mem_toList_iff.mp (show (a.1, a.2) ∈ m.toList from ha)
      rw [h, hk] at this
      exact Prod.ext rfl (Option.some.inj this)
    · rfl
  cases m
  simpa [set, mapEntries] using hli

@[simp] theorem set_set (m : OrdMap κ ν) (k : κ) (v w : ν) : (m.set k v).set k w = m.set k w := by
  simp only [set, mapEntries, map_map]
  congr 1
  refine map_congr_left (fun a _ => ?_)
  by_cases h : a.1 = k <;> simp [h]

/-! ## Searching -/

theorem find?_eq_some {k : κ} {v : ν} (h : m.find? p = some (k, v)) :
    m.get? k = some v ∧ p v = true :=
  ⟨mem_toList_iff.mp (mem_of_find?_eq_some h), by simpa using find?_some h⟩

theorem find?_eq_none (h : m.find? p = none) {k : κ} {v : ν} (hk : m.get? k = some v) :
    p v = false := by
  have := List.find?_eq_none.mp h (k, v) (mem_toList_iff.mpr hk)
  simpa using this

/-- What is lowest among those that satisfy `p` is found. -/
theorem find?_of_lowest {k : κ} {v : ν} (hk : m.get? k = some v) (hp : p v = true)
    (h : ∀ j w, m.get? j = some w → p w = true → k ≤ j) : m.find? p = some (k, v) := by
  cases hf : m.find? p with
  | none => exact absurd (find?_eq_none hf hk) (by simp [hp])
  | some a =>
    obtain ⟨hg, ha⟩ := find?_eq_some (k := a.1) (v := a.2) hf
    obtain ⟨-, front, back, hs, hn⟩ := find?_eq_some_iff_append.mp hf
    have hm := mem_toList_iff.mpr hk
    have hso := m.sorted
    rw [hs] at hm hso
    obtain hm | hm := mem_append.mp hm
    · exact absurd hp (by simpa using hn _ hm)
    · obtain hm | hm := mem_cons.mp hm
      · rw [hm]
      · have hlt := (pairwise_cons.mp (pairwise_append.mp hso).2.1).1 _ hm
        exact absurd (h a.1 a.2 hg ha) (not_le_of_gt hlt)

theorem values_any_iff : m.values.any p = true ↔ ∃ k v, m.get? k = some v ∧ p v = true := by
  rw [any_eq_true]
  constructor
  · rintro ⟨v, hv, hp⟩
    obtain ⟨k, hk⟩ := mem_values_iff.mp hv
    exact ⟨k, v, hk, hp⟩
  · rintro ⟨k, v, hk, hp⟩
    exact ⟨v, mem_values_iff.mpr ⟨k, hk⟩, hp⟩

theorem values_all_iff : m.values.all p = true ↔ ∀ k v, m.get? k = some v → p v = true := by
  rw [all_eq_true]
  constructor
  · intro h k v hk
    exact h v (mem_values_iff.mpr ⟨k, hk⟩)
  · intro h v hv
    obtain ⟨k, hk⟩ := mem_values_iff.mp hv
    exact h k v hk

/-- Of what all values contribute, a filter that only the value at `k` passes keeps that
value's contribution. -/
theorem filterMap_flatMap_values {β γ : Type*} {k : κ} {v : ν} (hk : m.get? k = some v)
    (f : ν → List β) (p : β → Option γ)
    (hoh : ∀ j w, m.get? j = some w → j ≠ k → (f w).filterMap p = []) :
    (m.values.flatMap f).filterMap p = (f v).filterMap p := by
  obtain ⟨as, bs, hl⟩ := append_of_mem (mem_toList_iff.mpr hk)
  have he : ∀ l : List (κ × ν), (∀ a ∈ l, a ∈ m.toList ∧ a.1 ≠ k) →
      ((l.map Prod.snd).flatMap f).filterMap p = [] := by
    intro l
    induction l with
    | nil => intro _; rfl
    | cons a l ih =>
      intro h
      obtain ⟨hm, hne⟩ := h a mem_cons_self
      have ha := hoh a.1 a.2 (mem_toList_iff.mp hm) hne
      have hre := ih (fun b hb => h b (mem_cons_of_mem _ hb))
      simp only [map_cons, flatMap_cons, filterMap_append, ha, hre, append_nil]
  have hso := m.sorted
  rw [hl, pairwise_append] at hso
  obtain ⟨-, hbs, has⟩ := hso
  have hle := he as (fun a ha =>
    ⟨by rw [hl]; exact mem_append_left _ ha, ne_of_lt (has a ha _ mem_cons_self)⟩)
  have hr := he bs (fun a ha =>
    ⟨by rw [hl]; exact mem_append_right _ (mem_cons_of_mem _ ha),
      ne_of_gt ((pairwise_cons.mp hbs).1 a ha)⟩)
  rw [values, hl]
  simp only [map_append, map_cons, flatMap_append, flatMap_cons,
    filterMap_append, hle, hr, nil_append, append_nil]

/-! ## Size -/

@[simp] theorem length_mapEntries (f : κ × ν → ν) (m : OrdMap κ ν) :
    (m.mapEntries f).length = m.length := by
  simp [mapEntries, length]

@[simp] theorem length_map (f : ν → ν) (m : OrdMap κ ν) : (m.map f).length = m.length :=
  length_mapEntries _ m

@[simp] theorem length_set (m : OrdMap κ ν) (k : κ) (v : ν) : (m.set k v).length = m.length :=
  length_mapEntries _ m

theorem length_insertList_of_fresh {k : κ} {v : ν} :
    ∀ {l : List (κ × ν)}, (∀ a ∈ l, a.1 ≠ k) → (insertList k v l).length = l.length + 1
  | [], _ => rfl
  | (k', v') :: rest, h => by
    have hk : k ≠ k' := fun hk => h (k', v') mem_cons_self hk.symm
    have ih := length_insertList_of_fresh (v := v) (fun a ha => h a (mem_cons_of_mem (k', v') ha))
    unfold insertList
    split_ifs
    · simp
    · simp [ih]

theorem length_insert_of_fresh {k : κ} (h : m.get? k = none) (v : ν) :
    (m.insert k v).length = m.length + 1 := by
  refine length_insertList_of_fresh (fun a ha hk => ?_)
  have := mem_toList_iff.mp (show (a.1, a.2) ∈ m.toList from ha)
  rw [hk, h] at this
  exact absurd this (by simp)

/-! ## The entries up to order -/

/-- Taking out the entry at a key leaves the other entries. -/
theorem toList_perm_erase {k : κ} {v : ν} (hk : m.get? k = some v) :
    m.toList.Perm ((k, v) :: (m.erase k).toList) := by
  obtain ⟨as, bs, hl⟩ := append_of_mem (mem_toList_iff.mpr hk)
  have hso := m.sorted
  rw [hl, pairwise_append] at hso
  obtain ⟨-, hbs, has⟩ := hso
  have hle : as.filter (fun a => decide (a.1 ≠ k)) = as := filter_eq_self.mpr fun a ha =>
    decide_eq_true (ne_of_lt (has a ha _ mem_cons_self))
  have hr : bs.filter (fun a => decide (a.1 ≠ k)) = bs := filter_eq_self.mpr fun b hb =>
    decide_eq_true (ne_of_gt ((pairwise_cons.mp hbs).1 b hb))
  have hes : (m.erase k).toList = as ++ bs := by
    change m.toList.filter (fun a => decide (a.1 ≠ k)) = as ++ bs
    rw [hl, filter_append, filter_cons_of_neg (by simp), hle, hr]
  rw [hes, hl]
  exact perm_middle

/-- Two maps with the same value at every key are one map. -/
theorem ext_get? (h : ∀ k, m.get? k = m'.get? k) : m = m' := by
  have hm : ∀ a, a ∈ m.toList ↔ a ∈ m'.toList := by
    rintro ⟨k, v⟩
    rw [mem_toList_iff, mem_toList_iff, h]
  have hno : ∀ m : OrdMap κ ν, m.toList.Nodup := fun m =>
    m.sorted.imp fun hlt he => ne_of_lt hlt (congrArg Prod.fst he)
  have hp := (perm_ext_iff_of_nodup (hno m) (hno m')).mpr hm
  have hli := hp.eq_of_pairwise (fun a b _ _ hab hba => absurd hab (lt_asymm hba))
    m.sorted m'.sorted
  cases m
  cases m'
  simpa using hli

theorem toList_insert_perm {k : κ} (h : m.get? k = none) (v : ν) :
    (m.insert k v).toList.Perm ((k, v) :: m.toList) := by
  have hes : (m.insert k v).erase k = m := by
    refine ext_get? fun j => ?_
    rw [get?_erase, get?_insert]
    split_ifs with hj
    · rw [hj, h]
    · rfl
  have := toList_perm_erase (show (m.insert k v).get? k = some v by simp)
  rwa [hes] at this

theorem toList_set_perm {k : κ} {v : ν} (hk : m.get? k = some v) (w : ν) :
    (m.set k w).toList.Perm ((k, w) :: (m.erase k).toList) := by
  have hes : (m.set k w).erase k = m.erase k := by
    refine ext_get? fun j => ?_
    rw [get?_erase, get?_erase, get?_set hk]
    split_ifs with hj
    · rfl
    · rfl
  have := toList_perm_erase (show (m.set k w).get? k = some w by rw [get?_set hk, if_pos rfl])
  rwa [hes] at this

end OrdMap
end Keld
