import Mathlib.Order.Lattice
import RerollSync.Support.Table

/-!
# Stamped tables

Every row carries a stamp, and a write gives the rows it changes stamps drawn after
those in the table.  A reader that remembers the largest stamp it has seen then finds
every later change among the rows with a larger one.
-/

namespace RerollSync.Support

variable {κ ρ : Type} [DecidableEq κ] {stamp : ρ → ℕ}

variable (stamp) in
/-- The largest stamp of a table; zero if it is empty. -/
def highWater (t : Table κ ρ) : ℕ := (t.rows.map fun r => stamp r.2).foldr max 0

variable (stamp) in
/-- The keys of the rows with a stamp beyond `seen`. -/
def stampedAfter (seen : ℕ) (t : Table κ ρ) : List κ :=
  (t.filter fun _ row => seen < stamp row).keys

theorem foldr_max_le_iff {l : List ℕ} {n : ℕ} : l.foldr max 0 ≤ n ↔ ∀ m ∈ l, m ≤ n := by
  induction l with
  | nil => simp
  | cons m l ih => simp [ih]

theorem highWater_le_iff {t : Table κ ρ} {n : ℕ} :
    highWater stamp t ≤ n ↔ ∀ key row, t.get? key = some row → stamp row ≤ n := by
  rw [highWater, foldr_max_le_iff]
  simp only [List.mem_map, Prod.exists, forall_exists_index, and_imp, Table.get?_eq_some_iff]
  constructor
  · intro h key row hrow
    exact h _ key row hrow rfl
  · rintro h m key row hrow rfl
    exact h key row hrow

theorem le_highWater {t : Table κ ρ} {key : κ} {row : ρ} (h : t.get? key = some row) :
    stamp row ≤ highWater stamp t := highWater_le_iff.mp le_rfl key row h

theorem mem_stampedAfter {seen : ℕ} {t : Table κ ρ} {key : κ} :
    key ∈ stampedAfter stamp seen t ↔ ∃ row, t.get? key = some row ∧ seen < stamp row := by
  simp only [stampedAfter, Table.keys, Table.filter, List.mem_map, List.mem_filter, Prod.exists,
    exists_and_right, exists_eq_right, decide_eq_true_eq, Table.get?_eq_some_iff]

/-! ## What a write leaves -/

variable (stamp) in
/-- The rows of `t'` that are not as in `t` have stamps after `lo`, up to `hi`, and no
row is gone. -/
def Restamped (lo hi : ℕ) (t t' : Table κ ρ) : Prop :=
  ∀ key, t'.get? key = t.get? key ∨
    ∃ row, t'.get? key = some row ∧ lo < stamp row ∧ stamp row ≤ hi

section Restamped

variable {lo hi : ℕ} {t t' t'' : Table κ ρ}

theorem Restamped.refl (t : Table κ ρ) : Restamped stamp lo hi t t := fun _ => Or.inl rfl

theorem Restamped.highWater_le (h : Restamped stamp lo hi t t') (hle : lo ≤ hi)
    (ht : highWater stamp t ≤ lo) : highWater stamp t' ≤ hi := by
  refine highWater_le_iff.mpr fun key row hrow => ?_
  rcases h key with hsame | ⟨row', hrow', -, hrange⟩
  · exact (le_highWater (hsame ▸ hrow)).trans (ht.trans hle)
  · obtain rfl : row = row' := Option.some.inj (hrow.symm.trans hrow')
    exact hrange

end Restamped

/-! ## What a reader misses -/

variable (stamp) in
/-- `t'` comes after `t`: no row is gone, no stamp goes back, and a row that is not as
in `t` has a stamp beyond all those of `t`. -/
structure Fresher (t t' : Table κ ρ) : Prop where
  kept : ∀ key row, t.get? key = some row → ∃ row', t'.get? key = some row' ∧
    stamp row ≤ stamp row'
  changed : ∀ key row, t'.get? key = some row → t.get? key ≠ some row →
    highWater stamp t < stamp row

section Fresher

variable {t t' t'' : Table κ ρ}

theorem Fresher.refl (t : Table κ ρ) : Fresher stamp t t :=
  ⟨fun _ row hrow => ⟨row, hrow, le_rfl⟩, fun _ _ hrow hne => (hne hrow).elim⟩

theorem Fresher.highWater_le (h : Fresher stamp t t') : highWater stamp t ≤ highWater stamp t' := by
  refine highWater_le_iff.mpr fun key row hrow => ?_
  obtain ⟨row', hrow', hle⟩ := h.kept key row hrow
  exact hle.trans (le_highWater hrow')

theorem Fresher.trans (h : Fresher stamp t t') (h' : Fresher stamp t' t'') :
    Fresher stamp t t'' where
  kept key row hrow := by
    obtain ⟨row', hrow', hle⟩ := h.kept key row hrow
    obtain ⟨row'', hrow'', hle'⟩ := h'.kept key row' hrow'
    exact ⟨row'', hrow'', hle.trans hle'⟩
  changed key row hrow hne := by
    by_cases hsame : t'.get? key = some row
    · exact h.changed key row hsame hne
    · exact h.highWater_le.trans_lt (h'.changed key row hrow hsame)

/-- Stamps drawn after those of the table make it fresher. -/
theorem Restamped.fresher {lo hi : ℕ} (h : Restamped stamp lo hi t t')
    (ht : highWater stamp t ≤ lo) : Fresher stamp t t' where
  kept key row hrow := by
    rcases h key with hsame | ⟨row', hrow', hlt, -⟩
    · exact ⟨row, hsame.trans hrow, le_rfl⟩
    · exact ⟨row', hrow', ((le_highWater hrow).trans ht).trans hlt.le⟩
  changed key row hrow hne := by
    rcases h key with hsame | ⟨row', hrow', hlt, -⟩
    · exact (hne (hsame ▸ hrow)).elim
    · obtain rfl : row = row' := Option.some.inj (hrow.symm.trans hrow')
      exact ht.trans_lt hlt

end Fresher

end RerollSync.Support
