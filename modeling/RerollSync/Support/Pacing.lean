import RerollSync.Support.Machine
import Mathlib.Algebra.Order.Ring.Rat
import Mathlib.Tactic.Linarith
import Mathlib.Tactic.Ring

/-!
# Paced runs and bounded runs

Some events of a machine are starts, and a state knows of a time that the last start was
not before.  When a start is only possible a gap after that time, the starts of a run are
the gap apart, however many lie between two of them.  When every start uses up a measure,
a run has no more of them than the measure allows.
-/

namespace RerollSync.Support.Machine

variable {σ α : Type} {M : Machine σ α}

/-- A step that is not a start keeps the time of the last start, and a start comes the gap
after it. -/
structure Paced (M : Machine σ α) (C : σ → α → Prop) (isStart : α → Bool) (time : α → ℚ)
    (gap : ℚ) (Since : ℚ → σ → Prop) : Prop where
  keeps : ∀ s a s' t, Since t s → C s a → isStart a = false → M.step s a = some s' → Since t s'
  starts : ∀ s a s' t, Since t s → C s a → isStart a = true → M.step s a = some s' →
    t + gap ≤ time a ∧ Since (time a) s'

variable {C : σ → α → Prop} {isStart : α → Bool} {time : α → ℚ} {gap : ℚ} {Since : ℚ → σ → Prop}

/-- A run with `n` starts puts the last one at least `n` gaps later. -/
theorem Paced.run (h : Paced M C isStart time gap Since) {s s' : σ} {l : List α} {t : ℚ}
    (hs : Since t s) (hC : M.Along C s l) (hrun : M.run s l = some s') :
    ∃ t', Since t' s' ∧ t + l.countP isStart * gap ≤ t' := by
  induction l generalizing s t with
  | nil =>
      obtain rfl : s = s' := by simpa using hrun
      exact ⟨t, hs, by simp⟩
  | cons a l ih =>
      obtain ⟨m, hm, hrest⟩ := run_cons_eq_some.mp hrun
      obtain ⟨hCa, hCl⟩ := (along_cons hm).mp hC
      cases hstart : isStart a with
      | false =>
          obtain ⟨t', hsince, hle⟩ := ih (h.keeps s a m t hs hCa hstart hm) hCl hrest
          exact ⟨t', hsince, by rwa [List.countP_cons_of_neg (by simp [hstart])]⟩
      | true =>
          obtain ⟨hgap, hsince⟩ := h.starts s a m t hs hCa hstart hm
          obtain ⟨t', hsince', hle⟩ := ih hsince hCl hrest
          refine ⟨t', hsince', ?_⟩
          rw [List.countP_cons_of_pos hstart]
          push_cast
          linarith

/-- Two starts with `n` starts between them are `n + 1` gaps apart. -/
theorem Paced.between (h : Paced M C isStart time gap Since) {s s' : σ} {a : α} {l : List α}
    {t : ℚ} (hs : Since t s) (hC : M.Along C s (l ++ [a])) (ha : isStart a = true)
    (hrun : M.run s (l ++ [a]) = some s') : t + (l.countP isStart + 1) * gap ≤ time a := by
  obtain ⟨m, hm, hstep⟩ := run_snoc_eq_some.mp hrun
  obtain ⟨hCl, hCa, -⟩ := (along_append hm).mp hC
  obtain ⟨t', hsince, hle⟩ := h.run hs hCl hm
  have hgap := (h.starts m a s' t' hsince hCa ha hstep).1
  linarith

/-- Steps that count use up a measure that no step raises, so a run takes no more of them
than there was at its beginning. -/
theorem countP_add_le {P : σ → Prop} {counts : α → Bool} {left : σ → ℕ}
    (hkeep : ∀ s a s', P s → C s a → M.step s a = some s' → P s')
    (hspend : ∀ s a s', P s → C s a → M.step s a = some s' →
      (if counts a then 1 else 0) + left s' ≤ left s)
    {s s' : σ} {l : List α} (hs : P s) (hC : M.Along C s l) (hrun : M.run s l = some s') :
    l.countP counts + left s' ≤ left s := by
  induction l generalizing s with
  | nil =>
      obtain rfl : s = s' := by simpa using hrun
      simp
  | cons a l ih =>
      obtain ⟨m, hm, hrest⟩ := run_cons_eq_some.mp hrun
      obtain ⟨hCa, hCl⟩ := (along_cons hm).mp hC
      have hspent := hspend s a m hs hCa hm
      have hle := ih (hkeep s a m hs hCa hm) hCl hrest
      rw [List.countP_cons]
      omega

end RerollSync.Support.Machine
