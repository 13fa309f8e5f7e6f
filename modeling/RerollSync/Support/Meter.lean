import Mathlib.Algebra.Order.Field.Basic
import Mathlib.Algebra.BigOperators.Group.List.Basic
import Mathlib.Tactic.Linarith
import Mathlib.Tactic.Ring

/-!
# Metered withdrawals from a lazily refilled account

The potential argument behind every token bucket, over an ordered field.  An
account of capacity `burst` refills at `rate` per unit of time, lazily, at the
readings of a clock that never goes back; withdrawals are logged with the time
of the refill that preceded them.  `Metered` is the invariant tying the balance
to the log: what was withdrawn since time `a`, plus what is left, never exceeds
`burst + rate * (last - a)`.  Its last field is the bound for every window.
-/

namespace RerollSync.Support

variable {𝕜 : Type*} [Field 𝕜] [LinearOrder 𝕜]

/-- Total amount of the logged withdrawals `(time, amount)` made at `a` or later. -/
def amountSince (log : List (𝕜 × 𝕜)) (a : 𝕜) : 𝕜 :=
  ((log.filter fun g => a ≤ g.1).map Prod.snd).sum

/-- Total amount of the logged withdrawals made in the window `[a, b]`. -/
def amountIn (log : List (𝕜 × 𝕜)) (a b : 𝕜) : 𝕜 :=
  ((log.filter fun g => a ≤ g.1 ∧ g.1 ≤ b).map Prod.snd).sum

theorem amountSince_cons (log : List (𝕜 × 𝕜)) (t n a : 𝕜) :
    amountSince ((t, n) :: log) a =
      if a ≤ t then n + amountSince log a else amountSince log a := by
  by_cases h : a ≤ t
  · simp [amountSince, h]
  · simp [amountSince, h]

theorem amountIn_cons (log : List (𝕜 × 𝕜)) (t n a b : 𝕜) :
    amountIn ((t, n) :: log) a b =
      if a ≤ t ∧ t ≤ b then n + amountIn log a b else amountIn log a b := by
  by_cases h : a ≤ t ∧ t ≤ b
  · simp [amountIn, h]
  · simp only [amountIn, List.filter_cons, decide_eq_true_eq, if_neg h]

/-- Nothing was withdrawn since `a` when every withdrawal is older. -/
theorem amountSince_eq_zero {log : List (𝕜 × 𝕜)} {a : 𝕜}
    (h : ∀ g ∈ log, g.1 < a) : amountSince log a = 0 := by
  have hfilter : log.filter (fun g => a ≤ g.1) = [] := by
    rw [List.filter_eq_nil_iff]
    intro g hg
    simpa using h g hg
  simp [amountSince, hfilter]

/-- A window whose right end is not before any withdrawal counts everything
since its left end. -/
theorem amountIn_eq_amountSince {log : List (𝕜 × 𝕜)} {a b : 𝕜}
    (h : ∀ g ∈ log, g.1 ≤ b) : amountIn log a b = amountSince log a := by
  rw [amountIn, amountSince]
  congr 2
  apply List.filter_congr
  intro g hg
  simp [h g hg]

/-- The invariant of a metered account: `tokens` is the balance, `last` the
time of the last refill and `log` the withdrawals so far. -/
structure Metered (burst rate tokens last : 𝕜) (log : List (𝕜 × 𝕜)) : Prop where
  tokens_nonneg : 0 ≤ tokens
  tokens_le : tokens ≤ burst
  past : ∀ g ∈ log, g.1 ≤ last
  since : ∀ a ≤ last, amountSince log a + tokens ≤ burst + rate * (last - a)
  window : ∀ a b, a ≤ b → amountIn log a b ≤ burst + rate * (b - a)

namespace Metered

variable [IsStrictOrderedRing 𝕜] {burst rate tokens last : 𝕜} {log : List (𝕜 × 𝕜)}

/-- A full account without withdrawals. -/
theorem full (hburst : 0 ≤ burst) (hrate : 0 ≤ rate) (last : 𝕜) :
    Metered burst rate burst last [] where
  tokens_nonneg := hburst
  tokens_le := le_refl burst
  past := by simp
  since := by
    intro a ha
    have : 0 ≤ rate * (last - a) := mul_nonneg hrate (sub_nonneg.mpr ha)
    simpa [amountSince] using this
  window := by
    intro a b hab
    have : 0 ≤ rate * (b - a) := mul_nonneg hrate (sub_nonneg.mpr hab)
    simp only [amountIn, List.filter_nil, List.map_nil, List.sum_nil]
    linarith

/-- Refilling up to `now` keeps the invariant. -/
theorem refill (h : Metered burst rate tokens last log) (hrate : 0 ≤ rate)
    {now : 𝕜} (hnow : last ≤ now) :
    Metered burst rate (min burst (tokens + (now - last) * rate)) now log where
  tokens_nonneg := by
    have hgain : 0 ≤ (now - last) * rate := mul_nonneg (sub_nonneg.mpr hnow) hrate
    exact le_min (le_trans h.tokens_nonneg h.tokens_le) (add_nonneg h.tokens_nonneg hgain)
  tokens_le := min_le_left _ _
  past := fun g hg => le_trans (h.past g hg) hnow
  since := by
    intro a ha
    by_cases hlast : a ≤ last
    · have hold := h.since a hlast
      have hmin : min burst (tokens + (now - last) * rate) ≤ tokens + (now - last) * rate :=
        min_le_right _ _
      have hsplit : rate * (now - a) = rate * (last - a) + (now - last) * rate := by ring
      linarith
    · have hzero : amountSince log a = 0 :=
        amountSince_eq_zero fun g hg => lt_of_le_of_lt (h.past g hg) (not_le.mp hlast)
      have hmin : min burst (tokens + (now - last) * rate) ≤ burst := min_le_left _ _
      have hspan : 0 ≤ rate * (now - a) := mul_nonneg hrate (sub_nonneg.mpr ha)
      linarith
  window := h.window

/-- A withdrawal covered by the balance keeps the invariant. -/
theorem take (h : Metered burst rate tokens last log) (hrate : 0 ≤ rate)
    {n : 𝕜} (hpos : 0 ≤ n) (hn : n ≤ tokens) :
    Metered burst rate (tokens - n) last ((last, n) :: log) where
  tokens_nonneg := sub_nonneg.mpr hn
  tokens_le := le_trans (sub_le_self _ hpos) h.tokens_le
  past := by
    intro g hg
    rcases List.mem_cons.mp hg with rfl | hold
    · exact le_refl _
    · exact h.past g hold
  since := by
    intro a ha
    have hold := h.since a ha
    rw [amountSince_cons, if_pos ha]
    linarith
  window := by
    intro a b hab
    rw [amountIn_cons]
    split
    next hin =>
      have hsince := h.since a hin.1
      have hall : amountIn log a b = amountSince log a :=
        amountIn_eq_amountSince fun g hg => le_trans (h.past g hg) hin.2
      have hspan : rate * (last - a) ≤ rate * (b - a) :=
        mul_le_mul_of_nonneg_left (sub_le_sub_right hin.2 a) hrate
      rw [hall]
      linarith
    next => exact h.window a b hab

end Metered

end RerollSync.Support
