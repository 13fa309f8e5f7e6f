import RerollSync.RateLimit.Penalties
import Mathlib.Algebra.BigOperators.Ring.List
import Mathlib.Algebra.Order.BigOperators.Group.List

/-!
# Reserves are independent

Every grant needs the global bucket too, so a child's reserve is its own only as long as
the global bucket holds what all children hold together.  It does at the start, and
refills keep it so when rates and bursts of the children add up to no more than the
global ones.  A grant takes the same from both sides, unless the clock moves between the
refill of the child and that of the global bucket while the child is full.
-/

namespace RerollSync.RateLimit

open RerollSync.Support

namespace TokenBucket

variable {b : TokenBucket} {now later n : ℚ}

/-- What a bucket holds later, from what it holds now. -/
theorem Regular.available_later (h : b.Regular now) (hle : now ≤ later) :
    b.available later = min b.burst (b.available now + (later - now) * b.ratePerSecond) := by
  rw [← h.available_refillLocked hle, (h.refillLocked.mono hle).available_eq, refillLocked_burst,
    refillLocked_ratePerSecond, refillLocked_lastRefill h.lastRefill_le]
  rfl

theorem Wf.regular (h : b.Wf now) : b.Regular now := ⟨h.tokens_le, h.lastRefill_le⟩

theorem Wf.available_nonneg (h : b.Wf now) : 0 ≤ b.available now := h.refillLocked.tokens_nonneg

theorem Regular.available_le_burst (h : b.Regular now) : b.available now ≤ b.burst := by
  rw [h.available_eq]
  exact min_le_left _ _

/-- A bucket only gains while nobody draws on it. -/
theorem Wf.available_mono (h : b.Wf now) (hle : now ≤ later) :
    b.available now ≤ b.available later := by
  rw [h.regular.available_later hle]
  have hgain : 0 ≤ (later - now) * b.ratePerSecond :=
    mul_nonneg (sub_nonneg.mpr hle) h.rate_nonneg
  exact le_min h.regular.available_le_burst (le_add_of_nonneg_right hgain)

/-- What a take at reading `t` leaves. -/
theorem Regular.available_taken {b' : TokenBucket} {t : ℚ} (h : b.Regular t) (hn : 0 ≤ n)
    (htakes : b.tryTakeLocked now t n = (true, b')) (hle : t ≤ later) :
    b'.available later = min b.burst (b.available t - n + (later - t) * b.ratePerSecond) := by
  obtain ⟨hburst, hrate, -⟩ := tryTakeLocked_burst htakes
  have hleft : b'.available t = b.available t - n := by
    rcases tryTakeLocked_cases b now t n with ⟨-, heq⟩ | ⟨-, -, heq⟩ | ⟨-, -, -, heq⟩
    · cases heq.symm.trans htakes
    · cases heq.symm.trans htakes
    · obtain ⟨-, hb'⟩ := Prod.mk.inj (heq.symm.trans htakes)
      have hlast : b'.lastRefill = t := hb' ▸ refillLocked_lastRefill h.lastRefill_le
      rw [available, refillLocked_idem hlast, ← hb']
      rfl
  rw [(h.taken hn htakes).available_later hle, hleft, hburst, hrate]

end TokenBucket

namespace HierarchicalLimiter

variable {L L' : HierarchicalLimiter} {now later : ℚ} {name : String} {child : ChildState}

/-- The sum of a quantity over the buckets of the children. -/
def total (L : HierarchicalLimiter) (f : TokenBucket → ℚ) : ℚ :=
  (L.children.rows.map fun row => f row.2.bucket).sum

/-- The global bucket holds what the children hold together, and refills with them. -/
structure Covered (L : HierarchicalLimiter) (now : ℚ) : Prop where
  rates : L.total (·.ratePerSecond) ≤ L.globalBucket.ratePerSecond
  bursts : L.total (·.burst) ≤ L.globalBucket.burst
  available : L.total (·.available now) ≤ L.globalBucket.available now

theorem total_congr {f g : TokenBucket → ℚ}
    (h : ∀ name c, L.children.get? name = some c → f c.bucket = g c.bucket) :
    L.total f = L.total g := by
  refine congrArg List.sum (List.map_congr_left fun row hrow => ?_)
  exact h row.1 row.2 (Table.get?_eq_some_iff.mpr hrow)

theorem total_le {f g : TokenBucket → ℚ}
    (h : ∀ name c, L.children.get? name = some c → f c.bucket ≤ g c.bucket) :
    L.total f ≤ L.total g :=
  List.sum_le_sum fun row hrow => h row.1 row.2 (Table.get?_eq_some_iff.mpr hrow)

/-- The total of a limiter whose children have been updated. -/
theorem total_modify {f : String → ChildState → ChildState} {g : TokenBucket → ℚ}
    (hL : L'.children = L.children.modify f)
    (hf : ∀ name c, L.children.get? name = some c → g (f name c).bucket = g c.bucket) :
    L'.total g = L.total g := by
  rw [total, hL, Table.modify, List.map_map]
  refine congrArg List.sum (List.map_congr_left fun row hrow => ?_)
  exact hf row.1 row.2 (Table.get?_eq_some_iff.mpr hrow)

/-- The rows of a table around the row of a key. -/
theorem exists_rows_eq (hget : L.children.get? name = some child) :
    ∃ before after, L.children.rows = before ++ (name, child) :: after ∧
      ∀ row ∈ before ++ after, row.1 ≠ name := by
  obtain ⟨before, after, hrows⟩ := List.append_of_mem (Table.get?_eq_some_iff.mp hget)
  refine ⟨before, after, hrows, fun row hrow hname => ?_⟩
  have hnodup := L.children.nodup
  rw [hrows, List.map_append, List.map_cons] at hnodup
  have hrest := (List.nodup_middle.mp hnodup).notMem
  rw [← List.map_append] at hrest
  exact hrest (List.mem_map.mpr ⟨row, hrow, hname⟩)

/-- The total when the bucket of one child is replaced. -/
theorem total_setBucket (hget : L.children.get? name = some child) (b : TokenBucket)
    (f : TokenBucket → ℚ) :
    (L.setBucket name b).total f = L.total f - f child.bucket + f b := by
  obtain ⟨before, after, hrows, hothers⟩ := exists_rows_eq hget
  have hsame : ∀ rows : List (String × ChildState), (∀ row ∈ rows, row.1 ≠ name) →
      (rows.map fun row => f (if row.1 = name then { row.2 with bucket := b } else row.2).bucket) =
        rows.map fun row => f row.2.bucket := fun rows hrows =>
    List.map_congr_left fun row hrow => by rw [if_neg (hrows row hrow)]
  have hbefore := hsame before fun row hrow => hothers row (List.mem_append_left _ hrow)
  have hafter := hsame after fun row hrow => hothers row (List.mem_append_right _ hrow)
  rw [total, total, setBucket, updateChild, Table.modify, List.map_map, hrows]
  simp only [List.map_append, List.map_cons, List.sum_append, List.sum_cons, Function.comp_def,
    hbefore, hafter, if_true]
  ring

/-- The total is no less than any of its parts, when none is negative. -/
theorem le_total (hget : L.children.get? name = some child) {f : TokenBucket → ℚ}
    (hf : ∀ name c, L.children.get? name = some c → 0 ≤ f c.bucket) :
    f child.bucket ≤ L.total f :=
  List.single_le_sum (fun x hx => by
    obtain ⟨row, hrow, rfl⟩ := List.mem_map.mp hx
    exact hf row.1 row.2 (Table.get?_eq_some_iff.mpr hrow)) _
    (List.mem_map.mpr ⟨(name, child), Table.get?_eq_some_iff.mp hget, rfl⟩)

/-- Refills keep the children covered. -/
theorem Covered.mono (h : L.Covered now) (hregular : L.Regular now) (hle : now ≤ later) :
    L.Covered later where
  rates := h.rates
  bursts := h.bursts
  available := by
    have hlater : L.total (·.available later) =
        L.total fun b => min b.burst (b.available now + (later - now) * b.ratePerSecond) :=
      total_congr fun name c hc => (hregular.children name c hc).available_later hle
    have hbursts : L.total (·.available later) ≤ L.total (·.burst) :=
      hlater.trans_le (total_le fun _ _ _ => min_le_left _ _)
    have hgains : L.total (·.available later) ≤
        L.total (·.available now) + (later - now) * L.total (·.ratePerSecond) := by
      have hsum : L.total (·.available now) + (later - now) * L.total (·.ratePerSecond) =
          L.total fun b => b.available now + (later - now) * b.ratePerSecond := by
        rw [total, total, total, List.sum_map_add, List.sum_map_mul_left]
      rw [hsum]
      exact hlater.trans_le (total_le fun _ _ _ => min_le_right _ _)
    rw [hregular.globalBucket.available_later hle]
    refine le_min (hbursts.trans h.bursts) (hgains.trans ?_)
    have hrates := mul_le_mul_of_nonneg_left h.rates (sub_nonneg.mpr hle)
    linarith [h.available]

/-- A change that touches no bucket keeps the children covered. -/
theorem Covered.untouched (h : L.Covered now) (htouched : Untouched now L L') : L'.Covered now := by
  obtain ⟨f, hchildren, hf⟩ := htouched.children
  refine ⟨?_, ?_, ?_⟩
  · rw [total_modify hchildren fun name c hc => (hf name c hc).ratePerSecond,
      htouched.globalBucket.ratePerSecond]
    exact h.rates
  · rw [total_modify hchildren fun name c hc => (hf name c hc).burst, htouched.globalBucket.burst]
    exact h.bursts
  · rw [total_modify hchildren fun name c hc => (hf name c hc).available now (le_refl now),
      htouched.globalBucket.available now (le_refl now)]
    exact h.available

theorem Wf.regular (h : L.Wf now) : L.Regular now :=
  ⟨h.globalBucket.regular, fun name c hc => (h.children name c hc).regular⟩

section Attempt

variable {r : ℕ → ℚ} {n : ℚ} (hwf : L.Wf now) (h : L.Covered now)
  (hget : L.children.get? name = some child) (hr : Monotone r) (hnow : now ≤ r 0)
include hwf h hget hr hnow

/-- While the children are covered, a child that is not penalised and holds `n` tokens is
granted them: the global bucket, which is refilled no earlier, holds them too. -/
theorem Covered.granted (hpen : ¬child.bucket.isPenalized (r 0))
    (hholds : n ≤ child.bucket.available (r 2)) :
    (L.tryTakeLocked r name child n).1 = .granted false := by
  have hwf2 : child.bucket.Wf (r 2) :=
    ((hwf.children name child hget).mono hnow).mono (hr (Nat.zero_le 2))
  have hwf5 : L.Wf (r 5) := hwf.mono (hnow.trans (hr (Nat.zero_le 5)))
  have hcovered := h.mono hwf.regular (hnow.trans (hr (Nat.zero_le 5)))
  have hown : (child.bucket.tryTakeLocked (r 1) (r 2) n).1 = true := by
    rw [TokenBucket.tryTakeLocked_fst_iff]
    refine ⟨fun hpen' => hpen ?_, ?_, hholds⟩
    · exact (WithBot.coe_le_coe.mpr (hr (Nat.zero_le 1))).trans_lt hpen'
    · rw [TokenBucket.refillLocked_burst]
      exact hholds.trans hwf2.regular.available_le_burst
  have hglobal : (L.globalBucket.tryTakeLocked (r 4) (r 5) n).1 = true := by
    rw [TokenBucket.tryTakeLocked_fst_iff, TokenBucket.isPenalized, hwf.global_unpenalized]
    have hburst : n ≤ L.globalBucket.burst :=
      calc n ≤ child.bucket.burst := hholds.trans hwf2.regular.available_le_burst
        _ ≤ L.total (·.burst) :=
          le_total hget fun name c hc => (hwf.children name c hc).burst_pos.le
        _ ≤ L.globalBucket.burst := h.bursts
    have htokens : n ≤ L.globalBucket.available (r 5) :=
      calc n ≤ child.bucket.available (r 5) :=
            hholds.trans (hwf2.available_mono (hr (show 2 ≤ 5 by omega)))
        _ ≤ L.total (·.available (r 5)) :=
          le_total hget fun name c hc => (hwf5.children name c hc).available_nonneg
        _ ≤ L.globalBucket.available (r 5) := hcovered.available
    exact ⟨by simp, by rwa [TokenBucket.refillLocked_burst], htokens⟩
  rcases hb : child.bucket.tryTakeLocked (r 1) (r 2) n with ⟨took, b⟩
  rcases hg : L.globalBucket.tryTakeLocked (r 4) (r 5) n with ⟨ok, g⟩
  rw [hb] at hown
  rw [hg] at hglobal
  obtain rfl : took = true := hown
  obtain rfl : ok = true := hglobal
  simp [tryTakeLocked, hpen, hb, hg]

/-- A grant from the child's own bucket takes as much from the global bucket, so the
children stay covered, if the child does not fill up between the two refills. -/
theorem Covered.of_granted (hn : 0 ≤ n)
    (hroom : child.bucket.available (r 2) + (r 5 - r 2) * child.bucket.ratePerSecond ≤
      child.bucket.burst)
    (htake : L.tryTakeLocked r name child n = (.granted false, L')) : L'.Covered (r 5) := by
  have hregular : child.bucket.Regular (r 2) :=
    ((hwf.children name child hget).mono (hnow.trans (hr (Nat.zero_le 2)))).regular
  have hglobal : L.globalBucket.Regular (r 5) :=
    (hwf.globalBucket.mono (hnow.trans (hr (Nat.zero_le 5)))).regular
  have hcovered := h.mono hwf.regular (hnow.trans (hr (Nat.zero_le 5)))
  rcases tryTakeLocked_cases r L name child n with
    ⟨-, heq⟩ | ⟨-, b, g, htakes, htakes', heq⟩ | ⟨-, b, g, -, -, heq⟩ | ⟨-, b, -, -, heq⟩ |
    ⟨-, b, g, -, -, -, heq⟩ | ⟨-, b, g, -, -, -, heq⟩
  · cases heq.symm.trans htake
  · obtain ⟨-, rfl⟩ := Prod.mk.inj (heq.symm.trans htake)
    obtain ⟨hburst, hrate, -⟩ := TokenBucket.tryTakeLocked_burst htakes
    obtain ⟨hburst', hrate', -⟩ := TokenBucket.tryTakeLocked_burst htakes'
    have htotal : ∀ f, ((L.setBucket name b).setGlobal g).total f =
        L.total f - f child.bucket + f b := total_setBucket hget b
    refine ⟨?_, ?_, ?_⟩
    · rw [htotal, hrate, setGlobal_globalBucket, hrate']
      linarith [h.rates]
    · rw [htotal, hburst, setGlobal_globalBucket, hburst']
      linarith [h.bursts]
    · have hchild : child.bucket.available (r 5) =
          child.bucket.available (r 2) + (r 5 - r 2) * child.bucket.ratePerSecond := by
        rw [hregular.available_later (hr (show 2 ≤ 5 by omega)), min_eq_right hroom]
      have hleft : b.available (r 5) ≤ child.bucket.available (r 5) - n := by
        rw [hregular.available_taken hn htakes (hr (show 2 ≤ 5 by omega)), hchild]
        refine (min_le_right _ _).trans (le_of_eq ?_)
        ring
      have hleft' : g.available (r 5) = L.globalBucket.available (r 5) - n := by
        rw [hglobal.available_taken hn htakes' (le_refl _), sub_self, zero_mul, add_zero]
        exact min_eq_right ((sub_le_self _ hn).trans hglobal.available_le_burst)
      rw [htotal, setGlobal_globalBucket, hleft']
      linarith [hcovered.available]
  · cases heq.symm.trans htake
  · cases heq.symm.trans htake
  · cases heq.symm.trans htake
  · cases heq.symm.trans htake

end Attempt

/-- A penalty changes neither rate nor burst nor tokens. -/
theorem Covered.penalize (h : L.Covered now) (hget : L.children.get? name = some child)
    (t seconds : ℚ) : (L.setBucket name (child.bucket.penalize t seconds)).Covered now := by
  have hsame : ∀ f : TokenBucket → ℚ,
      f (child.bucket.penalize t seconds) = f child.bucket →
      (L.setBucket name (child.bucket.penalize t seconds)).total f = L.total f := fun f hf => by
    rw [total_setBucket hget, hf]
    ring
  have hfields : (child.bucket.penalize t seconds).ratePerSecond = child.bucket.ratePerSecond ∧
      (child.bucket.penalize t seconds).burst = child.bucket.burst := by
    simp only [TokenBucket.penalize]
    split <;> exact ⟨rfl, rfl⟩
  refine ⟨?_, ?_, ?_⟩
  · rw [hsame _ hfields.1]
    exact h.rates
  · rw [hsame _ hfields.2]
    exact h.bursts
  · rw [hsame _ (child.bucket.available_penalize t seconds now)]
    exact h.available

/-- A pass that grants from the child's own bucket. -/
theorem acquirePass_reserved_iff {r : ℕ → ℚ} {n : ℚ} {deadline : Option ℚ} :
    (L.acquirePass r name child n deadline).verdict = .granted false ↔
      (L.tryTakeLocked r name child n).1 = .granted false := by
  rcases L.acquirePass_cases r name child n deadline with
    ⟨borrowed, L₁, htake, hpass⟩ | ⟨returned, L₁, waitFor, L₂, htake, -, hpass⟩
  · rw [htake, hpass]
    simp
  · rw [htake]
    refine iff_of_false (fun hgranted => ?_) (by simp)
    rcases hpass with ⟨hpass, -⟩ | ⟨seconds, -, ⟨-, hpass⟩ | ⟨d, -, -, hpass⟩⟩ <;>
      simp [hpass] at hgranted

end HierarchicalLimiter

/-! ## Attempts of a run -/

/-- The child of the attempt is not penalised and holds the tokens in its own bucket. -/
structure Trial.Ready (T : Trial) : Prop where
  unpenalized : ¬T.child.bucket.isPenalized (T.readings 0)
  holds : T.caller.n ≤ T.child.bucket.available (T.readings 2)

/-- The child's bucket does not run over in the time between its refill and that of the
global bucket. -/
def Trial.Timely (T : Trial) : Prop :=
  T.child.bucket.available (T.readings 2) +
    (T.readings 5 - T.readings 2) * T.child.bucket.ratePerSecond ≤ T.child.bucket.burst

instance (T : Trial) : Decidable T.Ready :=
  decidable_of_iff (¬T.child.bucket.isPenalized (T.readings 0) ∧
    T.caller.n ≤ T.child.bucket.available (T.readings 2))
    ⟨fun h => ⟨h.1, h.2⟩, fun h => ⟨h.unpenalized, h.holds⟩⟩

instance (T : Trial) : Decidable T.Timely := inferInstanceAs (Decidable (_ ≤ _))

/-- A grant from a child's own bucket goes to a child that holds the tokens. -/
theorem Trial.ready_of_reserved {T : Trial} (h : T.pass.verdict = .granted false) : T.Ready := by
  rw [pass, HierarchicalLimiter.acquirePass_reserved_iff] at h
  rcases HierarchicalLimiter.tryTakeLocked_cases T.readings T.limiter T.caller.child T.child
      T.caller.n with
    ⟨-, heq⟩ | ⟨hpen, b, g, htakes, -, -⟩ | ⟨-, b, g, -, -, heq⟩ | ⟨-, b, -, -, heq⟩ |
    ⟨-, b, g, -, -, -, heq⟩ | ⟨-, b, g, -, -, -, heq⟩
  · simp [heq] at h
  · refine ⟨hpen, ?_⟩
    have htrue : (T.child.bucket.tryTakeLocked (T.readings 1) (T.readings 2) T.caller.n).1 =
        true := by rw [htakes]
    exact ((TokenBucket.tryTakeLocked_fst_iff _ _ _ _).mp htrue).2.2
  · simp [heq] at h
  · simp [heq] at h
  · simp [heq] at h
  · simp [heq] at h

namespace AcquireState

open HierarchicalLimiter

variable {clock : ℕ → ℚ} {s s' : AcquireState} {e : AcquireEvent} {burst rate : ℚ}

/-- No grant so far has been borrowed. -/
def Unborrowed (s : AcquireState) : Prop := ∀ g ∈ s.grants, g.borrowed = false

/-- The attempt of the event, if its child holds the tokens, is timely. -/
def InTime (clock : ℕ → ℚ) (s : AcquireState) (e : AcquireEvent) : Prop :=
  ∀ T ∈ s.trial clock e, T.Ready → T.Timely

/-- While nobody has borrowed, an attempt of a child that is not penalised and holds the
tokens in its own bucket is granted from it. -/
def ReservesServed (clock : ℕ → ℚ) (s : AcquireState) : Prop :=
  s.Unborrowed → ∀ e T, s.trial clock e = some T → 0 < T.caller.n → T.Ready →
    T.pass.verdict = .granted false

instance (s : AcquireState) : Decidable s.Unborrowed :=
  inferInstanceAs (Decidable (∀ g ∈ s.grants, _))

instance (clock : ℕ → ℚ) (s : AcquireState) (e : AcquireEvent) : Decidable (InTime clock s e) :=
  inferInstanceAs (Decidable (∀ T ∈ s.trial clock e, _ → _))

/-- The children are covered until somebody borrows. -/
structure Reserved (burst rate : ℚ) (clock : ℕ → ℚ) (s : AcquireState) : Prop where
  capped : Capped burst rate clock s
  steady : Steady clock s
  covered : s.Unborrowed → s.limiter.Covered (clock s.ticks)

/-- The limiter that a trial starts from, where the children are still covered. -/
theorem Reserved.starts (hclock : Monotone clock) (h : Reserved burst rate clock s)
    (hunborrowed : s.Unborrowed) {T : Trial} (hT : Starts clock s T) :
    T.limiter.Wf (T.readings 0) ∧ T.limiter.Covered (T.readings 0) ∧ Monotone T.readings ∧
      T.readings 5 ≤ clock (s.ticks + 16) := by
  obtain ⟨htouched, hr, -⟩ := h.steady.starts hclock hT
  obtain ⟨k, hk, hreadings⟩ := hT.readings
  have hnow : clock s.ticks ≤ T.readings 0 := by
    rw [hreadings]
    exact hclock (by omega)
  have hwf := h.capped.accounted.wf
  refine ⟨?_, ?_, hr, ?_⟩
  · rcases hT.limiter with hlimiter | ⟨t, hlimiter⟩
    · rw [hlimiter]
      exact hwf.mono hnow
    · rw [hlimiter]
      exact (hwf.mono hnow).updateChild fun c hc => (hwf.mono hnow).children _ c hc
  · exact ((h.covered hunborrowed).mono hwf.regular hnow).untouched htouched
  · rw [hreadings]
    exact hclock (by omega)

/-- An attempt that is ready is granted. -/
theorem Reserved.served (hclock : Monotone clock) (h : Reserved burst rate clock s)
    (hunborrowed : s.Unborrowed) {T : Trial} (hT : Starts clock s T) (hready : T.Ready) :
    T.pass.verdict = .granted false := by
  obtain ⟨hwf, hcovered, hr, -⟩ := h.starts hclock hunborrowed hT
  rw [Trial.pass, acquirePass_reserved_iff]
  exact hcovered.granted hwf hT.child hr (le_refl _) hready.unpenalized hready.holds

/-- A grant that is timely keeps the children covered. -/
theorem Reserved.covered_granted (hclock : Monotone clock) (h : Reserved burst rate clock s)
    (hunborrowed : s.Unborrowed) {T : Trial} (hT : Starts clock s T) (htimely : T.Timely)
    (hgranted : T.pass.verdict = .granted false) :
    T.pass.limiter.Covered (clock (s.ticks + 16)) := by
  obtain ⟨hwf, hcovered, hr, hlast⟩ := h.starts hclock hunborrowed hT
  have hpasses := T.limiter.acquirePass_cases T.readings T.caller.child T.child T.caller.n
    T.caller.deadline
  rw [Trial.pass] at hgranted ⊢
  rcases hpasses with ⟨borrowed, L₁, htake, hpass⟩ | ⟨returned, L₁, waitFor, L₂, -, -, hpass⟩
  · obtain rfl : borrowed = false := by simpa [hpass] using hgranted
    have hgranted₁ := hcovered.of_granted hwf hT.child hr (le_refl _) hT.pos.le htimely htake
    obtain ⟨hregular, -, -⟩ :=
      hwf.regular.granted_tryTakeLocked hT.child hr (le_refl _) hT.pos.le htake
    have hcounted : Untouched (T.readings 5) L₁ (L₁.countAcquired T.caller.child) :=
      hregular.untouched_updateChild fun c hc => (hregular.children _ c hc).undrawn
    rw [hpass]
    exact (hgranted₁.untouched hcounted).mono hcounted.regular hlast
  · rcases hpass with ⟨hpass, -⟩ | ⟨seconds, -, ⟨-, hpass⟩ | ⟨d, -, -, hpass⟩⟩ <;>
      simp [hpass] at hgranted

theorem reserved_step (hclock : Monotone clock) (h : Reserved burst rate clock s)
    (hinTime : InTime clock s e) (hstep : step clock s e = some s') :
    Reserved burst rate clock s' := by
  refine ⟨capped_step hclock h.capped hstep, h.steady.step hclock hstep, fun hunborrowed' => ?_⟩
  have hunborrowed : s.Unborrowed := by
    obtain ⟨grants, hgrants, -⟩ := h.steady.grants_step hstep
    exact fun g hg => hunborrowed' g (hgrants ▸ List.mem_append_right _ hg)
  have hregular := h.capped.accounted.wf.regular
  have hcovered := h.covered hunborrowed
  rcases step_cases h.steady.waiting_pos hstep with
    ⟨T, hT, hstarts, hlimiter, hgrants, hticks⟩ | ⟨child, c, seconds, -, hget, rfl⟩ | ⟨-, rfl⟩
  · rw [hlimiter, hticks]
    rcases (h.steady.pass hclock hstarts).2.2 with ⟨borrowed, hgranted, -⟩ | ⟨-, htouched⟩
    · obtain rfl : borrowed = false := by
        refine hunborrowed' ⟨T.readings 5, T.caller.child, T.caller.n, borrowed⟩ ?_
        rw [hgrants, hgranted]
        exact List.mem_append_left _ (List.mem_singleton_self _)
      exact h.covered_granted hclock hunborrowed hstarts
        (hinTime T hT (Trial.ready_of_reserved hgranted)) hgranted
    · have hlater := hcovered.mono hregular (hclock (show s.ticks ≤ s.ticks + 16 - 1 by omega))
      exact (hlater.untouched htouched).mono htouched.regular (hclock (by omega))
  · have hlater := hcovered.mono hregular (hclock (Nat.le_succ s.ticks))
    exact hlater.penalize hget _ _
  · have htouched := hregular.untouched_snapshotRefill (readings_monotone hclock s)
      (hclock (Nat.le_refl s.ticks))
    have hlater := hcovered.mono hregular
      (hclock (show s.ticks ≤ s.ticks + s.limiter.children.keys.length by omega))
    refine (hlater.untouched htouched).mono htouched.regular (hclock ?_)
    dsimp only
    omega

theorem reserved_create (hclock : Monotone clock) {globalRate : ℚ} {children : Table String ℚ}
    (hglobal : 0 ≤ globalRate) (hrates : ∀ name rate, children.get? name = some rate → 0 ≤ rate)
    (htotal : (children.rows.map Prod.snd).sum ≤ globalRate)
    (hbursts : (children.rows.map fun row => oneSecondBurst row.2).sum ≤
      oneSecondBurst globalRate) :
    Reserved (oneSecondBurst globalRate) (globalRate / 60) clock
      (create globalRate children clock) where
  capped := capped_create hclock hglobal hrates
  steady := steady_create hclock globalRate children
  covered _ := by
    have hwf : (create globalRate children clock).limiter.Wf
        (clock (create globalRate children clock).ticks) :=
      HierarchicalLimiter.Wf.create hglobal hrates hclock
    have htotals : ∀ f : TokenBucket → ℚ, (create globalRate children clock).limiter.total f =
        (children.rows.map fun row => f (TokenBucket.create row.2 (oneSecondBurst row.2)
          (clock (1 + children.keys.idxOf row.1)))).sum := fun f => by
      simp only [create, HierarchicalLimiter.create, total, Table.modify, List.map_map]
      rfl
    have hbursts' : (create globalRate children clock).limiter.total (·.burst) ≤
        oneSecondBurst globalRate := by
      rw [htotals]
      exact hbursts
    refine ⟨?_, hbursts', ?_⟩
    · rw [htotals]
      have hsum : (children.rows.map fun row => row.2 / 60).sum =
          (children.rows.map Prod.snd).sum / 60 := by
        simp only [div_eq_mul_inv, List.sum_map_mul_right]
      change (children.rows.map fun row => row.2 / 60).sum ≤ globalRate / 60
      rw [hsum]
      exact div_le_div_of_nonneg_right htotal (by norm_num)
    · -- every child is at most full, and the global bucket is full
      refine (total_le fun name c hc => ?_).trans (hbursts'.trans ?_)
      · exact ((hwf.children name c hc).regular).available_le_burst
      · rw [hwf.globalBucket.regular.available_eq]
        have hgain := mul_nonneg (sub_nonneg.mpr hwf.globalBucket.lastRefill_le)
          hwf.globalBucket.rate_nonneg
        exact le_min (le_refl _) (le_add_of_nonneg_right hgain)

/-- In every state that a limiter has reached without a borrowed grant, an attempt of a
child that is not penalised and holds the tokens is granted from its own bucket, provided
that the bucket of no attempt so far ran over between its refill and the global one. -/
theorem reservesServed_of_inTime (hclock : Monotone clock) {globalRate : ℚ}
    {children : Table String ℚ} (hglobal : 0 ≤ globalRate)
    (hrates : ∀ name rate, children.get? name = some rate → 0 ≤ rate)
    (htotal : (children.rows.map Prod.snd).sum ≤ globalRate)
    (hbursts : (children.rows.map fun row => oneSecondBurst row.2).sum ≤
      oneSecondBurst globalRate) {l : List AcquireEvent}
    (hrun : (machine clock).run (create globalRate children clock) l = some s)
    (hinTime : (machine clock).Along (InTime clock) (create globalRate children clock) l) :
    (machine clock).Always (ReservesServed clock) (create globalRate children clock) l :=
  Machine.always_of_along
    (Q := Reserved (oneSecondBurst globalRate) (globalRate / 60) clock)
    (fun _ _ _ h hC hstep => reserved_step hclock h hC hstep)
    (fun _ h hunborrowed _ _ hT hn hready =>
      h.served hclock hunborrowed (starts_of_trial hT hn) hready)
    (reserved_create hclock hglobal hrates htotal hbursts) hinTime hrun

/-- Two children that share the global rate, each with a burst of one. -/
def sharedRate : Table String ℚ := ⟨[("a", 60), ("b", 60)], by decide⟩

/-- Both children draw what they hold at once. -/
theorem reservesServed_bothDraw :
    (machine fun _ => 0).Always (ReservesServed fun _ => 0) (create 120 sharedRate fun _ => 0)
      [.call "a" (1 / 2) none, .call "b" 1 none, .call "a" (1 / 2) none] := by
  have hruns : ((machine fun _ => 0).run (create 120 sharedRate fun _ => 0)
      [.call "a" (1 / 2) none, .call "b" 1 none, .call "a" (1 / 2) none]).isSome = true := by
    decide +kernel
  obtain ⟨s, hrun⟩ := Option.isSome_iff_exists.mp hruns
  have hrates : ∀ name rate, sharedRate.get? name = some rate → 0 ≤ rate := by
    intro name rate hget
    have hmem := Table.get?_eq_some_iff.mp hget
    simp only [sharedRate, List.mem_cons, Prod.mk.injEq, List.not_mem_nil, or_false] at hmem
    rcases hmem with ⟨-, rfl⟩ | ⟨-, rfl⟩ <;> norm_num
  exact reservesServed_of_inTime monotone_const (by norm_num) hrates (by decide +kernel)
    (by decide +kernel) hrun (by decide +kernel)

/-- The clock that moves while the first attempt is under way, between the refill of the
child and that of the global bucket. -/
def midwayClock (k : ℕ) : ℚ := if k < 8 then 0 else 1 / 2

theorem midwayClock_monotone : Monotone midwayClock := by
  intro i j hij
  unfold midwayClock
  split_ifs <;> first | omega | norm_num

/-- The child refills while the global bucket is still full: then the other child draws
what it holds, and the first is refused the half token that it holds. -/
theorem midwayClock_starves : Monotone midwayClock ∧
    (sharedRate.rows.map Prod.snd).sum ≤ 120 ∧
    (sharedRate.rows.map fun row => oneSecondBurst row.2).sum ≤ oneSecondBurst 120 ∧
    ∃ s, (machine midwayClock).run (create 120 sharedRate midwayClock)
        [.call "a" 1 none, .call "b" 1 none] = some s ∧
      s.Unborrowed ∧ ¬ReservesServed midwayClock s := by
  have hcompute : ((machine midwayClock).run (create 120 sharedRate midwayClock)
      [.call "a" 1 none, .call "b" 1 none]).map (fun s => (decide s.Unborrowed,
        (s.trial midwayClock (.call "a" (1 / 2) none)).map fun T =>
          (decide (0 < T.caller.n ∧ T.Ready), decide (T.pass.verdict = .granted false)))) =
      some (true, some (true, false)) := by
    decide +kernel
  obtain ⟨s, hrun, hfacts⟩ := Option.map_eq_some_iff.mp hcompute
  obtain ⟨hunborrowed, htrial⟩ := Prod.mk.inj hfacts
  obtain ⟨T, hT, hfacts'⟩ := Option.map_eq_some_iff.mp htrial
  obtain ⟨hready, hrefused⟩ := Prod.mk.inj hfacts'
  obtain ⟨hn, hready⟩ := of_decide_eq_true hready
  refine ⟨midwayClock_monotone, by decide +kernel, by decide +kernel, s, hrun,
    of_decide_eq_true hunborrowed, fun hserved => ?_⟩
  exact of_decide_eq_false hrefused (hserved (of_decide_eq_true hunborrowed) _ T hT hn hready)

end AcquireState

end RerollSync.RateLimit
