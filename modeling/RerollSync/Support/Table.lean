import Mathlib.Data.List.Nodup
import Mathlib.Data.List.Basic
import Mathlib.Data.List.Sort

/-!
# Finite keyed tables

A table is a list of rows with distinct keys, in insertion order: a relation
with a primary key, or an insertion-ordered dictionary.  The four statement
shapes are `modify` (`UPDATE`), `set` (`INSERT ... ON CONFLICT DO UPDATE`),
`insertNew` (`INSERT OR IGNORE`) and `filter` (`DELETE`); each is characterised by what a key
lookup returns afterwards, so later proofs never look at the row list.
-/

namespace RerollSync.Support

universe u v w

/-- Rows with pairwise distinct keys, in insertion order. -/
structure Table (κ : Type u) (ρ : Type v) where
  rows : List (κ × ρ)
  nodup : (rows.map Prod.fst).Nodup

namespace Table

variable {κ : Type u} {ρ : Type v}

instance [DecidableEq κ] [DecidableEq ρ] : DecidableEq (Table κ ρ) := fun t t' =>
  decidable_of_iff (t.rows = t'.rows) (by cases t; cases t'; simp)

@[ext] theorem ext {t t' : Table κ ρ} (h : t.rows = t'.rows) : t = t' := by
  cases t; cases t'; simpa using h

/-- The table with no rows. -/
def empty : Table κ ρ := ⟨[], by simp⟩

instance : EmptyCollection (Table κ ρ) := ⟨empty⟩

instance : Inhabited (Table κ ρ) := ⟨empty⟩

def keys (t : Table κ ρ) : List κ := t.rows.map Prod.fst

/-- Update every row by a function that sees its key. -/
def modify {ρ' : Type w} (t : Table κ ρ) (f : κ → ρ → ρ') : Table κ ρ' where
  rows := t.rows.map fun r => (r.1, f r.1 r.2)
  nodup := by
    have hfst : Prod.fst ∘ (fun r : κ × ρ => (r.1, f r.1 r.2)) = Prod.fst := rfl
    rw [List.map_map, hfst]
    exact t.nodup

@[simp] theorem keys_modify {ρ' : Type w} (t : Table κ ρ) (f : κ → ρ → ρ') :
    (t.modify f).keys = t.keys := by
  simp [keys, modify]

/-- Keep the rows whose key and value satisfy `p`. -/
def filter (t : Table κ ρ) (p : κ → ρ → Bool) : Table κ ρ where
  rows := t.rows.filter fun r => p r.1 r.2
  nodup := t.nodup.sublist (List.filter_sublist.map Prod.fst)

/-- `ORDER BY` the key. -/
def orderByKey [LE κ] [DecidableLE κ] (t : Table κ ρ) : Table κ ρ where
  rows := t.rows.insertionSort fun r r' => r.1 ≤ r'.1
  nodup := ((List.perm_insertionSort _ t.rows).map Prod.fst).nodup_iff.mpr t.nodup

/-- Forget the oldest row. -/
def dropFirst (t : Table κ ρ) : Table κ ρ where
  rows := t.rows.tail
  nodup := t.nodup.sublist ((List.tail_sublist _).map Prod.fst)

theorem filter_eq_self {t : Table κ ρ} {p : κ → ρ → Bool} (h : ∀ k r, p k r = true) :
    t.filter p = t := by
  ext1
  exact List.filter_eq_self.mpr fun x _ => h x.1 x.2

theorem filter_filter (t : Table κ ρ) (p q : κ → ρ → Bool) :
    (t.filter p).filter q = t.filter fun k r => p k r && q k r := by
  ext1
  simp [filter, List.filter_filter, Bool.and_comm]

theorem modify_eq_self {t : Table κ ρ} {f : κ → ρ → ρ} (h : ∀ k r, f k r = r) :
    t.modify f = t := by
  ext1
  simp [modify, h]

theorem modify_modify {ρ' ρ'' : Type*} (t : Table κ ρ) (f : κ → ρ → ρ') (g : κ → ρ' → ρ'') :
    (t.modify f).modify g = t.modify fun k r => g k (f k r) := by
  ext1
  simp [modify]

variable [DecidableEq κ]

/-- The row stored under `k`. -/
def get? (t : Table κ ρ) (k : κ) : Option ρ :=
  (t.rows.find? fun r => r.1 = k).map Prod.snd

/-- Insert a row unless its key is taken. -/
def insertNew (t : Table κ ρ) (k : κ) (r : ρ) : Table κ ρ :=
  if h : k ∈ t.keys then t
  else
    { rows := t.rows ++ [(k, r)]
      nodup := by
        rw [List.map_append, List.nodup_append]
        refine ⟨t.nodup, by simp, ?_⟩
        intro a ha b hb hab
        obtain rfl : b = k := by simpa using hb
        exact h (hab ▸ ha) }

/-- Insert a row, or overwrite the row already stored under its key. -/
def set (t : Table κ ρ) (k : κ) (r : ρ) : Table κ ρ :=
  (t.modify fun k' r' => if k' = k then r else r').insertNew k r

/-- `t.setdefault(k, []).append(a)`. -/
def push {α : Type*} (t : Table κ (List α)) (k : κ) (a : α) : Table κ (List α) :=
  t.set k ((t.get? k).getD [] ++ [a])

theorem get?_eq_some_iff {t : Table κ ρ} {k : κ} {r : ρ} :
    t.get? k = some r ↔ (k, r) ∈ t.rows := by
  have hnodup := t.nodup
  rw [get?]
  generalize t.rows = rows at hnodup
  induction rows with
  | nil => simp
  | cons x rows ih =>
      obtain ⟨hx, hrows⟩ := List.nodup_cons.mp hnodup
      by_cases hk : x.1 = k
      · have hnot : (k, r) ∉ rows := by
          intro hmem
          exact hx (hk ▸ List.mem_map_of_mem hmem)
        subst hk
        simp [hnot, Prod.ext_iff, eq_comm]
      · have hne : (k, r) ≠ x := fun h => hk (by rw [← h])
        rw [List.find?_cons_of_neg (by simpa using hk)]
        exact (ih hrows).trans (by simp [hne])

theorem get?_eq_none_iff {t : Table κ ρ} {k : κ} : t.get? k = none ↔ k ∉ t.keys := by
  constructor
  · intro h hk
    obtain ⟨⟨k', r⟩, hmem, rfl⟩ := List.mem_map.mp hk
    rw [get?_eq_some_iff.mpr hmem] at h
    cases h
  · intro h
    cases hget : t.get? k with
    | none => rfl
    | some r => exact (h (List.mem_map_of_mem (get?_eq_some_iff.mp hget))).elim

theorem mem_keys_iff {t : Table κ ρ} {k : κ} : k ∈ t.keys ↔ ∃ r, t.get? k = some r := by
  rw [← Option.ne_none_iff_exists', Ne, get?_eq_none_iff, not_not]

@[simp] theorem get?_orderByKey [LE κ] [DecidableLE κ] (t : Table κ ρ) (k : κ) :
    t.orderByKey.get? k = t.get? k := by
  ext r
  rw [get?_eq_some_iff, get?_eq_some_iff, orderByKey, List.mem_insertionSort]

theorem keys_insertNew_of_notMem {t : Table κ ρ} {k : κ} (h : k ∉ t.keys) (r : ρ) :
    (t.insertNew k r).keys = t.keys ++ [k] := by
  rw [insertNew, dif_neg h]
  simp [keys]

theorem get?_of_dropFirst {t : Table κ ρ} {k : κ} {r : ρ} (h : t.dropFirst.get? k = some r) :
    t.get? k = some r :=
  get?_eq_some_iff.mpr (List.mem_of_mem_tail (get?_eq_some_iff.mp h))

@[simp] theorem get?_empty (k : κ) : (∅ : Table κ ρ).get? k = none := rfl

@[simp] theorem get?_modify {ρ' : Type w} (t : Table κ ρ) (f : κ → ρ → ρ') (k : κ) :
    (t.modify f).get? k = (t.get? k).map (f k) := by
  cases h : t.get? k with
  | none =>
      have hk : k ∉ (t.modify f).keys := by
        have := get?_eq_none_iff.mp h
        simpa [keys, modify] using this
      simpa using get?_eq_none_iff.mpr hk
  | some r =>
      refine get?_eq_some_iff.mpr ?_
      exact List.mem_map.mpr ⟨(k, r), get?_eq_some_iff.mp h, rfl⟩

@[simp] theorem get?_filter (t : Table κ ρ) (p : κ → ρ → Bool) (k : κ) :
    (t.filter p).get? k = (t.get? k).filter (p k) := by
  ext r
  rw [get?_eq_some_iff, Option.filter_eq_some_iff, get?_eq_some_iff]
  simp [filter]

/-- A lookup in a table from which nothing is deleted. -/
@[simp] theorem option_filter_true (r : Option ρ) : (r.filter fun _ => true) = r := by
  cases r <;> rfl

/-- Deleting by key. -/
theorem get?_filter_key (t : Table κ ρ) (p : κ → Bool) (k : κ) :
    (t.filter fun k _ => p k).get? k = if p k then t.get? k else none := by
  rw [get?_filter]
  by_cases hp : p k = true <;> simp [hp]

/-- Two updates that agree on every stored row are the same update. -/
theorem modify_congr {ρ' : Type w} {t : Table κ ρ} {f g : κ → ρ → ρ'}
    (h : ∀ k r, t.get? k = some r → f k r = g k r) : t.modify f = t.modify g := by
  ext1
  refine List.map_congr_left fun x hx => ?_
  rw [h x.1 x.2 (get?_eq_some_iff.mpr hx)]

theorem get?_insertNew (t : Table κ ρ) (k k' : κ) (r : ρ) :
    (t.insertNew k r).get? k' =
      if k' = k then some ((t.get? k).getD r) else t.get? k' := by
  by_cases hk : k ∈ t.keys
  · rw [insertNew, dif_pos hk]
    obtain ⟨r', hr'⟩ : ∃ r', t.get? k = some r' := by
      cases h : t.get? k with
      | none => exact (get?_eq_none_iff.mp h hk).elim
      | some r' => exact ⟨r', rfl⟩
    by_cases hkk : k' = k
    · subst hkk
      simp [hr']
    · simp [hkk]
  · have hnone := get?_eq_none_iff.mpr hk
    rw [insertNew, dif_neg hk]
    ext x
    rw [get?_eq_some_iff]
    by_cases hkk : k' = k
    · subst hkk
      have hnot : (k', x) ∉ t.rows := fun hmem => hk (List.mem_map_of_mem hmem)
      simp [hnone, hnot, eq_comm]
    · simp [hkk, get?_eq_some_iff]

/-- A key has one row. -/
theorem rows_filter_key {t : Table κ ρ} {k : κ} {r : ρ} (h : t.get? k = some r) :
    (t.filter fun k' _ => decide (k' = k)).rows = [(k, r)] := by
  obtain ⟨rows₁, rows₂, hrows⟩ := List.append_of_mem (get?_eq_some_iff.mp h)
  have hnodup := t.nodup
  rw [hrows, List.map_append, List.map_cons, List.nodup_append] at hnodup
  obtain ⟨-, htail, hcross⟩ := hnodup
  have hnone₁ : rows₁.filter (fun x => decide (x.1 = k)) = [] :=
    List.filter_eq_nil_iff.mpr fun x hx hk =>
      hcross x.1 (List.mem_map_of_mem hx) k (by simp) (of_decide_eq_true hk)
  have hnone₂ : rows₂.filter (fun x => decide (x.1 = k)) = [] :=
    List.filter_eq_nil_iff.mpr fun x hx hk =>
      (List.nodup_cons.mp htail).1 (List.mem_map.mpr ⟨x, hx, of_decide_eq_true hk⟩)
  simp [filter, hrows, hnone₁, hnone₂]

theorem get?_set (t : Table κ ρ) (k k' : κ) (r : ρ) :
    (t.set k r).get? k' = if k' = k then some r else t.get? k' := by
  rw [set, get?_insertNew, get?_modify, get?_modify]
  by_cases hkk : k' = k
  · cases h : t.get? k <;> simp [hkk]
  · cases h : t.get? k' <;> simp [hkk]

@[simp] theorem get?_set_self (t : Table κ ρ) (k : κ) (r : ρ) :
    (t.set k r).get? k = some r := by
  rw [get?_set, if_pos rfl]

theorem get?_set_of_ne (t : Table κ ρ) {k k' : κ} (r : ρ) (h : k' ≠ k) :
    (t.set k r).get? k' = t.get? k' := by
  rw [get?_set, if_neg h]

theorem get?_set_eq_some_iff {t : Table κ ρ} {k k' : κ} {r r' : ρ} :
    (t.set k r).get? k' = some r' ↔ (k = k' ∧ r = r') ∨ (k' ≠ k ∧ t.get? k' = some r') := by
  rw [get?_set]
  by_cases hk : k' = k
  · simp [hk]
  · simp [hk, Ne.symm hk]

/-- Storing a row forgets no key. -/
theorem exists_get?_set {t : Table κ ρ} {k k' : κ} {r : ρ} (h : ∃ r', t.get? k' = some r') :
    ∃ r', (t.set k r).get? k' = some r' := by
  rw [get?_set]
  by_cases hk : k' = k
  · exact ⟨r, if_pos hk⟩
  · rw [if_neg hk]
    exact h

/-- A property of all stored rows, checked on the row list. -/
theorem forall_get?_iff {t : Table κ ρ} {P : κ → ρ → Prop} :
    (∀ k r, t.get? k = some r → P k r) ↔ ∀ x ∈ t.rows, P x.1 x.2 := by
  constructor
  · intro h x hx
    exact h x.1 x.2 (get?_eq_some_iff.mpr hx)
  · intro h k r hget
    exact h (k, r) (get?_eq_some_iff.mp hget)

/-- What a dictionary built by assignments holds was there or is one of them. -/
theorem get?_foldl_set {ι : Type*} (key : ι → κ) (value : ι → ρ) (l : List ι) (t : Table κ ρ)
    {k : κ} {r : ρ} (h : (l.foldl (fun t x => t.set (key x) (value x)) t).get? k = some r) :
    t.get? k = some r ∨ ∃ x ∈ l, key x = k ∧ value x = r := by
  induction l generalizing t with
  | nil => exact Or.inl h
  | cons x l ih =>
      rcases ih (t.set (key x) (value x)) h with hget | ⟨y, hy, hkey⟩
      · rw [get?_set] at hget
        by_cases hk : k = key x
        · rw [if_pos hk] at hget
          exact Or.inr ⟨x, by simp, hk.symm, by simpa using hget⟩
        · rw [if_neg hk] at hget
          exact Or.inl hget
      · exact Or.inr ⟨y, by simp [hy], hkey⟩

/-- Assignments that agree on a key leave what they assign to it. -/
theorem get?_foldl_set_iff {ι : Type*} {key : ι → κ} {value : ι → ρ} {l : List ι}
    (h : ∀ x ∈ l, ∀ y ∈ l, key x = key y → value x = value y) {k : κ} {r : ρ} :
    (l.foldl (fun (t : Table κ ρ) x => t.set (key x) (value x)) ∅).get? k = some r ↔
      ∃ x ∈ l, key x = k ∧ value x = r := by
  constructor
  · intro hget
    rcases get?_foldl_set key value l ∅ hget with hempty | hmem
    · simp at hempty
    · exact hmem
  · rintro ⟨x, hx, rfl, rfl⟩
    have hstored : ∀ (l : List ι) (t : Table κ ρ),
        ((∃ r, t.get? (key x) = some r) ∨ ∃ y ∈ l, key y = key x) →
          ∃ r, (l.foldl (fun t y => t.set (key y) (value y)) t).get? (key x) = some r := by
      intro l
      induction l with
      | nil =>
          rintro t (hget | ⟨y, hy, -⟩)
          · exact hget
          · simp at hy
      | cons y l ih =>
          intro t hor
          refine ih _ ?_
          by_cases hy : key y = key x
          · exact Or.inl ⟨value y, hy ▸ get?_set_self t (key y) (value y)⟩
          · rcases hor with hget | ⟨z, hz, hkey⟩
            · exact Or.inl (exists_get?_set hget)
            · rcases List.mem_cons.mp hz with rfl | hz
              · exact absurd hkey hy
              · exact Or.inr ⟨z, hz, hkey⟩
    obtain ⟨r, hr⟩ := hstored l ∅ (Or.inr ⟨x, hx, rfl⟩)
    rcases get?_foldl_set key value l ∅ hr with hempty | ⟨y, hy, hkey, rfl⟩
    · simp at hempty
    · rw [hr, h y hy x hx hkey]

theorem get?_push {α : Type*} (t : Table κ (List α)) (k k' : κ) (a : α) :
    (t.push k a).get? k' = if k' = k then some ((t.get? k).getD [] ++ [a]) else t.get? k' :=
  get?_set t k k' _

/-- A dictionary of lists has under each key what was appended there. -/
theorem getD_get?_foldl_push {ι α : Type*} (key : ι → κ) (value : ι → α) (l : List ι)
    (t : Table κ (List α)) (k : κ) :
    ((l.foldl (fun t x => t.push (key x) (value x)) t).get? k).getD [] =
      (t.get? k).getD [] ++ (l.filter fun x => key x = k).map value := by
  induction l generalizing t with
  | nil => simp
  | cons x l ih =>
      rw [List.foldl_cons, ih, get?_push, List.filter_cons]
      by_cases hk : key x = k
      · simp [hk]
      · rw [if_neg fun h => hk h.symm]
        simp [hk]

/-- Appending to the list of a key appends to what the lists hold together. -/
theorem perm_push {α : Type*} (t : Table κ (List α)) (k : κ) (a : α) :
    ((t.push k a).rows.flatMap Prod.snd).Perm (t.rows.flatMap Prod.snd ++ [a]) := by
  have hkeys : ∀ l : List α, (t.modify fun k' l' => if k' = k then l else l').keys = t.keys :=
    fun l => by simp [keys, modify]
  cases hget : t.get? k with
  | none =>
      have hfresh := get?_eq_none_iff.mp hget
      have hsame : ∀ l : List α, (t.modify fun k' l' => if k' = k then l else l') = t := by
        intro l
        refine (modify_congr fun k' l' hl' => if_neg ?_).trans (modify_eq_self fun _ _ => rfl)
        rintro rfl
        rw [hget] at hl'
        cases hl'
      rw [push, set, hget, hsame, insertNew, dif_neg hfresh]
      simp
  | some l =>
      have hmem : k ∈ t.keys := List.mem_map_of_mem (get?_eq_some_iff.mp hget)
      obtain ⟨rows₁, rows₂, hrows⟩ := List.append_of_mem (get?_eq_some_iff.mp hget)
      have hnodup := t.nodup
      rw [hrows, List.map_append, List.map_cons] at hnodup
      obtain ⟨-, hnodup₂, hdisjoint⟩ := List.nodup_append.mp hnodup
      have hothers : ∀ rows : List (κ × List α), (∀ r ∈ rows, r.1 ≠ k) →
          rows.map (fun r => (r.1, if r.1 = k then l ++ [a] else r.2)) = rows := fun rows hne =>
        (List.map_congr_left fun r hr => by rw [if_neg (hne r hr), id]).trans (List.map_id _)
      have hrows₁ : ∀ r ∈ rows₁, r.1 ≠ k := fun r hr =>
        hdisjoint r.1 (List.mem_map_of_mem hr) k List.mem_cons_self
      have hrows₂ : ∀ r ∈ rows₂, r.1 ≠ k := fun r hr heq =>
        (List.nodup_cons.mp hnodup₂).1 (List.mem_map.mpr ⟨r, hr, heq⟩)
      have hpushed : (t.push k a).rows = rows₁ ++ (k, l ++ [a]) :: rows₂ := by
        rw [push, set, hget, insertNew, dif_pos (by rw [hkeys]; exact hmem), Option.getD_some]
        change t.rows.map (fun r => (r.1, if r.1 = k then l ++ [a] else r.2)) = _
        rw [hrows, List.map_append, List.map_cons, hothers rows₁ hrows₁, hothers rows₂ hrows₂,
          if_pos rfl]
      rw [hpushed, hrows]
      simp only [List.flatMap_append, List.flatMap_cons, List.append_assoc]
      exact ((List.perm_append_comm).append_left _).append_left _

/-- What a dictionary of lists holds together is what was appended to them. -/
theorem perm_foldl_push {ι α : Type*} (key : ι → κ) (value : ι → α) (l : List ι)
    (t : Table κ (List α)) :
    ((l.foldl (fun t x => t.push (key x) (value x)) t).rows.flatMap Prod.snd).Perm
      (t.rows.flatMap Prod.snd ++ l.map value) := by
  induction l generalizing t with
  | nil => simp
  | cons x l ih =>
      refine (ih (t.push (key x) (value x))).trans ?_
      refine ((t.perm_push (key x) (value x)).append_right _).trans ?_
      rw [List.map_cons, List.append_assoc]
      rfl

end Table

end RerollSync.Support
