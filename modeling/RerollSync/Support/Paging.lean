import Mathlib.Data.List.Sort
import Mathlib.Order.Defs.LinearOrder

/-!
# Keyset pagination

A table read in key order, one bounded page at a time, each page starting behind
the last key of the one before.  Whatever the size of the pages, together they are
the rows behind the start.
-/

namespace RerollSync.Support

universe u v

/-- `LIMIT ?`: a negative limit is none. -/
def limitRows {α : Type u} (limit : ℤ) (l : List α) : List α :=
  if limit < 0 then l else l.take limit.toNat

theorem mem_of_mem_limitRows {α : Type u} {limit : ℤ} {l : List α} {a : α}
    (h : a ∈ limitRows limit l) : a ∈ l := by
  rw [limitRows] at h
  split at h
  · exact h
  · exact List.mem_of_mem_take h

variable {κ : Type u} {ρ : Type v} [LinearOrder κ]

/-- The rows behind a key, in key order; all of them before there is one. -/
def rowsFrom (rows : List (κ × ρ)) (cursor : Option κ) : List (κ × ρ) :=
  (rows.filter fun r => cursor.all (· < r.1)).insertionSort fun a b => a.1 ≤ b.1

/-- The rows behind a key, in key order. -/
def rowsAfter (rows : List (κ × ρ)) (last : κ) : List (κ × ρ) :=
  (rows.filter fun r => last < r.1).insertionSort fun a b => a.1 ≤ b.1

/-- The pages behind `last`.  Every page but the final one has a row, so `turns`
bounds the number of pages. -/
def keysetPages (rows : List (κ × ρ)) (limit : ℤ) : ℕ → κ → List (κ × ρ)
  | 0, _ => []
  | turns + 1, last =>
      let page := limitRows limit (rowsAfter rows last)
      match page.getLast? with
      | none => []
      | some row =>
          if page.length < limit then page else page ++ keysetPages rows limit turns row.1

variable {rows : List (κ × ρ)} {cursor : Option κ} {last : κ}

theorem mem_rowsFrom {row : κ × ρ} :
    row ∈ rowsFrom rows cursor ↔ row ∈ rows ∧ ∀ last ∈ cursor, last < row.1 := by
  simp only [rowsFrom, List.mem_insertionSort, List.mem_filter, Option.all_eq_true,
    decide_eq_true_eq, Option.mem_def]

theorem rowsFrom_none : rowsFrom rows none = rows.insertionSort fun a b => a.1 ≤ b.1 := by
  have hall : (rows.filter fun r => (none : Option κ).all (· < r.1)) = rows :=
    List.filter_eq_self.mpr fun _ _ => rfl
  rw [rowsFrom, hall]

theorem length_rowsFrom_none : (rowsFrom rows none).length = rows.length := by
  rw [rowsFrom_none]
  exact (List.perm_insertionSort _ _).length_eq

theorem rowsFrom_some : rowsFrom rows (some last) = rowsAfter rows last := rfl

theorem pairwise_rowsFrom (hkeys : (rows.map Prod.fst).Nodup) :
    (rowsFrom rows cursor).Pairwise fun a b => a.1 < b.1 := by
  have htotal : Std.Total fun a b : κ × ρ => a.1 ≤ b.1 := ⟨fun a b => le_total a.1 b.1⟩
  have htrans : IsTrans (κ × ρ) fun a b => a.1 ≤ b.1 := ⟨fun _ _ _ => le_trans⟩
  have hsorted : (rowsFrom rows cursor).Pairwise fun a b => a.1 ≤ b.1 :=
    List.pairwise_insertionSort _ _
  have hperm : (rowsFrom rows cursor).Perm (rows.filter fun r => cursor.all (· < r.1)) :=
    List.perm_insertionSort _ _
  have hnodup : ((rowsFrom rows cursor).map Prod.fst).Nodup :=
    (hperm.map Prod.fst).nodup_iff.mpr (hkeys.sublist (List.filter_sublist.map Prod.fst))
  have hne : (rowsFrom rows cursor).Pairwise fun a b => a.1 ≠ b.1 := List.pairwise_map.mp hnodup
  exact (hsorted.and hne).imp fun h => lt_of_le_of_ne h.1 h.2

/-- The rows behind the last row of a page are those the page has left. -/
theorem rowsFrom_of_take (hkeys : (rows.map Prod.fst).Nodup) {k : ℕ} {page : List (κ × ρ)}
    {row : κ × ρ} (h : (rowsFrom rows cursor).take k = page ++ [row]) :
    rowsFrom rows (some row.1) = (rowsFrom rows cursor).drop k := by
  have hirrefl : Std.Irrefl fun a b : κ × ρ => a.1 < b.1 := ⟨fun a => lt_irrefl a.1⟩
  have hantisymm : Std.Antisymm fun a b : κ × ρ => a.1 < b.1 :=
    ⟨fun a b hab hba => (lt_asymm hab hba).elim⟩
  have hsorted : (rowsFrom rows cursor).Pairwise fun a b => a.1 < b.1 := pairwise_rowsFrom hkeys
  have hsplit : rowsFrom rows cursor = (page ++ [row]) ++ (rowsFrom rows cursor).drop k := by
    rw [← h, List.take_append_drop]
  have hcross := hsorted
  rw [hsplit, List.pairwise_append, List.pairwise_append] at hcross
  obtain ⟨⟨-, -, hbefore⟩, -, hafter⟩ := hcross
  have hrow : row ∈ rowsFrom rows cursor := by
    rw [hsplit]
    simp
  refine List.Pairwise.eq_of_mem_iff (pairwise_rowsFrom hkeys)
    (hsorted.sublist (List.drop_sublist k _)) fun a => ?_
  rw [mem_rowsFrom]
  constructor
  · rintro ⟨ha, hlt⟩
    have hlt : row.1 < a.1 := hlt row.1 rfl
    have hmem : a ∈ rowsFrom rows cursor :=
      mem_rowsFrom.mpr ⟨ha, fun last hlast => ((mem_rowsFrom.mp hrow).2 last hlast).trans hlt⟩
    rw [hsplit] at hmem
    rcases List.mem_append.mp hmem with hpage | hrest
    · rcases List.mem_append.mp hpage with hpage | hlast
      · exact (lt_asymm hlt (hbefore a hpage row (by simp))).elim
      · obtain rfl : a = row := by simpa using hlast
        exact (lt_irrefl _ hlt).elim
    · exact hrest
  · intro ha
    refine ⟨(mem_rowsFrom.mp (List.mem_of_mem_drop ha)).1, ?_⟩
    rintro - ⟨⟩
    exact hafter row (by simp) a ha

/-- One row more than the page holds tells whether there is a next page. -/
theorem take_of_length_overfetch_le {α : Type u} {l : List α} {limit : ℕ}
    (h : (l.take (limit + 1)).length ≤ limit) : (l.take (limit + 1)).take limit = l := by
  rw [List.length_take] at h
  rw [List.take_take, min_eq_left (Nat.le_succ limit), List.take_of_length_le (by omega)]

/-- A page that has a next one ends in the row the next one starts behind. -/
theorem exists_getLast?_overfetch (hkeys : (rows.map Prod.fst).Nodup) {limit : ℕ}
    (hlimit : 0 < limit) (h : limit < ((rowsFrom rows cursor).take (limit + 1)).length) :
    ∃ row, (((rowsFrom rows cursor).take (limit + 1)).take limit).getLast? = some row ∧
      ((rowsFrom rows cursor).take (limit + 1)).take limit ++ rowsFrom rows (some row.1) =
        rowsFrom rows cursor ∧
      (rowsFrom rows (some row.1)).length < (rowsFrom rows cursor).length := by
  rw [List.length_take] at h
  rw [List.take_take, min_eq_left (Nat.le_succ limit)]
  have hne : (rowsFrom rows cursor).take limit ≠ [] := by
    intro hnil
    rcases List.take_eq_nil_iff.mp hnil with hzero | hempty
    · omega
    · rw [hempty] at h
      simp at h
  obtain ⟨row, hrow⟩ := Option.ne_none_iff_exists'.mp (mt List.getLast?_eq_none_iff.mp hne)
  obtain ⟨page, hpage⟩ := List.getLast?_eq_some_iff.mp hrow
  have hrest := rowsFrom_of_take hkeys hpage
  refine ⟨row, hrow, ?_, ?_⟩
  · rw [hrest, List.take_append_drop]
  · rw [hrest, List.length_drop]
    omega

/-- A page holds the rows between its first and its last one. -/
theorem mem_page_iff (hkeys : (rows.map Prod.fst).Nodup) {page rest : List (κ × ρ)}
    (hpage : page ++ rest = rowsFrom rows cursor) {first last row : κ × ρ}
    (hfirst : page.head? = some first) (hlast : page.getLast? = some last) :
    row ∈ page ↔ row ∈ rows ∧ first.1 ≤ row.1 ∧ row.1 ≤ last.1 := by
  have hsorted : (page ++ rest).Pairwise fun a b => a.1 < b.1 := hpage ▸ pairwise_rowsFrom hkeys
  obtain ⟨hinside, -, hcross⟩ := List.pairwise_append.mp hsorted
  have hmem : ∀ r, r ∈ page ++ rest ↔ r ∈ rows ∧ ∀ last ∈ cursor, last < r.1 := by
    intro r
    rw [hpage, mem_rowsFrom]
  obtain ⟨tail, rfl⟩ := List.head?_eq_some_iff.mp hfirst
  obtain ⟨init, hinit⟩ := List.getLast?_eq_some_iff.mp hlast
  constructor
  · intro hrow
    refine ⟨((hmem row).mp (List.mem_append_left _ hrow)).1, ?_, ?_⟩
    · rcases List.mem_cons.mp hrow with rfl | htail
      · exact le_rfl
      · exact (List.rel_of_pairwise_cons hinside htail).le
    · rw [hinit] at hrow hinside
      rcases List.mem_append.mp hrow with hbefore | hself
      · exact ((List.pairwise_append.mp hinside).2.2 row hbefore last (by simp)).le
      · obtain rfl : row = last := by simpa using hself
        exact le_rfl
  · rintro ⟨hrow, hle, hge⟩
    have hbehind : ∀ last ∈ cursor, last < row.1 := fun c hc =>
      (((hmem first).mp (by simp)).2 c hc).trans_le hle
    rcases List.mem_append.mp ((hmem row).mpr ⟨hrow, hbehind⟩) with hin | hout
    · exact hin
    · have hlastmem : last ∈ first :: tail := by
        rw [hinit]
        simp
      exact absurd (hcross last hlastmem row hout) (not_lt_of_ge hge)

theorem mem_rowsAfter {row : κ × ρ} : row ∈ rowsAfter rows last ↔ row ∈ rows ∧ last < row.1 := by
  rw [← rowsFrom_some, mem_rowsFrom]
  simp

theorem rowsAfter_of_take (hkeys : (rows.map Prod.fst).Nodup) {k : ℕ} {page : List (κ × ρ)}
    {row : κ × ρ} (h : (rowsAfter rows last).take k = page ++ [row]) :
    rowsAfter rows row.1 = (rowsAfter rows last).drop k := by
  rw [← rowsFrom_some] at h ⊢
  exact rowsFrom_of_take hkeys h

/-- Whatever their size, if it is not zero, the pages hold the rows behind the start. -/
theorem keysetPages_eq (hkeys : (rows.map Prod.fst).Nodup) {limit : ℤ} (hlimit : limit ≠ 0)
    {turns : ℕ} (hturns : (rowsAfter rows last).length < turns) :
    keysetPages rows limit turns last = rowsAfter rows last := by
  induction turns generalizing last with
  | zero => exact absurd hturns (Nat.not_lt_zero _)
  | succ turns ih =>
      obtain ⟨k, hk, hpage⟩ : ∃ k, 0 < k ∧
          limitRows limit (rowsAfter rows last) = (rowsAfter rows last).take k := by
        by_cases hneg : limit < 0
        · refine ⟨(rowsAfter rows last).length + 1, Nat.succ_pos _, ?_⟩
          rw [limitRows, if_pos hneg, List.take_of_length_le (Nat.le_succ _)]
        · exact ⟨limit.toNat, by omega, if_neg hneg⟩
      rw [keysetPages]
      cases hlast : (limitRows limit (rowsAfter rows last)).getLast? with
      | none =>
          rw [List.getLast?_eq_none_iff, hpage, List.take_eq_nil_iff] at hlast
          rcases hlast with hzero | hnil
          · omega
          · exact hnil.symm
      | some row =>
          obtain ⟨page, hrow⟩ := List.getLast?_eq_some_iff.mp hlast
          have hrest := rowsAfter_of_take hkeys (hpage.symm.trans hrow)
          by_cases hshort : ((limitRows limit (rowsAfter rows last)).length : ℤ) < limit
          · simp only [hshort, if_true]
            rw [limitRows, if_neg (by omega)] at hshort ⊢
            rw [List.length_take] at hshort
            exact List.take_of_length_le (by omega)
          · simp only [hshort, if_false]
            have hlength : (rowsAfter rows row.1).length < turns := by
              have hpos : 0 < (rowsAfter rows last).length := by
                by_contra hzero
                have hnil : rowsAfter rows last = [] := List.eq_nil_of_length_eq_zero (by omega)
                rw [hpage, hnil] at hrow
                simp at hrow
              rw [hrest, List.length_drop]
              omega
            rw [ih hlength, hrest, hpage, List.take_append_drop]

/-! ## Pages of a table that changes -/

/-- The pages behind `last` when the table changes between them: page `t` is of the rows
at `t`. -/
def keysetPagesAt (rows : ℕ → List (κ × ρ)) (limit : ℤ) : ℕ → ℕ → κ → List (κ × ρ)
  | 0, _, _ => []
  | turns + 1, t, last =>
      let page := limitRows limit (rowsAfter (rows t) last)
      match page.getLast? with
      | none => []
      | some row =>
          if page.length < limit then page
          else page ++ keysetPagesAt rows limit turns (t + 1) row.1

/-- A page of no rows ends the reading at once. -/
theorem keysetPages_zero (turns : ℕ) : keysetPages rows 0 turns last = [] := by
  cases turns with
  | zero => rfl
  | succ turns => simp [keysetPages, limitRows]

/-! ## A bounded page -/

section Page

variable {α : Type u} {r : α → α → Prop} [DecidableRel r] {l : List α} {limit : ℕ} {a b : α}

theorem mem_of_mem_page (h : a ∈ (l.insertionSort r).take limit) : a ∈ l :=
  (List.mem_insertionSort r).mp (List.mem_of_mem_take h)

/-- A page that leaves a row out is full. -/
theorem length_page_of_not_mem (hb : b ∈ l) (hnot : b ∉ (l.insertionSort r).take limit) :
    ((l.insertionSort r).take limit).length = limit := by
  rw [List.length_take]
  refine min_eq_left (Nat.le_of_lt (Nat.lt_of_not_le fun hle => hnot ?_))
  rw [List.take_of_length_le hle]
  exact (List.mem_insertionSort r).mpr hb

variable [Std.Total r] [IsTrans α r]

theorem pairwise_page : ((l.insertionSort r).take limit).Pairwise r :=
  (List.pairwise_insertionSort r l).sublist (List.take_sublist _ _)

/-- The rows a page leaves out come after those it holds. -/
theorem rel_of_not_mem_page (ha : a ∈ (l.insertionSort r).take limit) (hb : b ∈ l)
    (hnot : b ∉ (l.insertionSort r).take limit) : r a b := by
  have hsorted := List.pairwise_insertionSort r l
  rw [← List.take_append_drop limit (l.insertionSort r), List.pairwise_append] at hsorted
  have hdrop : b ∈ (l.insertionSort r).drop limit := by
    have hmem : b ∈ l.insertionSort r := (List.mem_insertionSort r).mpr hb
    rw [← List.take_append_drop limit (l.insertionSort r)] at hmem
    exact (List.mem_append.mp hmem).resolve_left hnot
  exact hsorted.2.2 a ha b hdrop

end Page

end RerollSync.Support
