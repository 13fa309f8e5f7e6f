import RerollSync.RateLimit.Reserves

/-!
# How long a caller waits

A caller that is refused waits for its own bucket or for a chance to borrow, whichever
comes first.  The second does not depend on penalties, which are of children only, so
no penalty makes a wait longer than the limiter's own refill times: a limit on these is
a limit on every wait.  And every penalty ends: past its deadline, and with the buckets
refilled, a call is granted.
-/

namespace RerollSync.RateLimit

open RerollSync.Support

/-! ## Limiters that refill -/

/-- A bucket for a token at least, that is full again within `limit` seconds. -/
structure TokenBucket.Refills (b : TokenBucket) (limit : ℚ) : Prop where
  one_le_burst : 1 ≤ b.burst
  rate_pos : 0 < b.ratePerSecond
  burst_le : b.burst ≤ limit * b.ratePerSecond

/-- A child that refills, and that has made no attempt yet to come. -/
structure ChildState.Refills (c : ChildState) (limit now : ℚ) : Prop where
  bucket : c.bucket.Refills limit
  refillTime_le : c.refillTime ≤ limit
  lastAttempt_le : ∀ last ∈ c.lastAttempt, last ≤ now

/-- Two states of a child with the same limits and the same last attempt. -/
structure ChildState.SameLimits (c c' : ChildState) : Prop where
  burst : c'.bucket.burst = c.bucket.burst
  ratePerSecond : c'.bucket.ratePerSecond = c.bucket.ratePerSecond
  reserveRate : c'.reserveRate = c.reserveRate
  lastAttempt : c'.lastAttempt = c.lastAttempt

section Buckets

variable {b : TokenBucket} {c c' : ChildState} {limit now later n : ℚ}

theorem TokenBucket.Refills.congr {b' : TokenBucket} (h : b.Refills limit)
    (hburst : b'.burst = b.burst) (hrate : b'.ratePerSecond = b.ratePerSecond) : b'.Refills limit :=
  ⟨hburst ▸ h.one_le_burst, hrate ▸ h.rate_pos, by rw [hburst, hrate]; exact h.burst_le⟩

theorem TokenBucket.Refills.limit_pos (h : b.Refills limit) : 0 < limit :=
  pos_of_mul_pos_left ((zero_lt_one.trans_le h.one_le_burst).trans_le h.burst_le) h.rate_pos.le

theorem TokenBucket.Refills.create {rate : ℚ} (hrate : 0 < rate) (hone : 1 ≤ limit)
    (hslow : 60 / rate ≤ limit) (now : ℚ) :
    (TokenBucket.create rate (oneSecondBurst rate) now).Refills limit where
  one_le_burst := le_max_left _ _
  rate_pos := div_pos hrate (by norm_num)
  burst_le := by
    have hpos : 0 < rate / 60 := div_pos hrate (by norm_num)
    refine max_le ?_ (le_mul_of_one_le_left hpos.le hone)
    have htoken : 60 / rate * (rate / 60) ≤ limit * (rate / 60) :=
      mul_le_mul_of_nonneg_right hslow hpos.le
    rwa [div_mul_div_cancel₀ hrate.ne', div_self (by norm_num)] at htoken

theorem ChildState.Refills.congr (h : c.Refills limit now) (hsame : c.SameLimits c') :
    c'.Refills limit now where
  bucket := h.bucket.congr hsame.burst hsame.ratePerSecond
  refillTime_le := by
    rw [refillTime, hsame.reserveRate]
    exact h.refillTime_le
  lastAttempt_le := hsame.lastAttempt ▸ h.lastAttempt_le

theorem ChildState.Refills.mono (h : c.Refills limit now) (hle : now ≤ later) :
    c.Refills limit later :=
  ⟨h.bucket, h.refillTime_le, fun last hlast => (h.lastAttempt_le last hlast).trans hle⟩

/-- What a bucket that nobody penalises makes a caller wait. -/
theorem TokenBucket.Refills.wait_le (h : b.Refills limit) (hpen : b.penaltyDeadline = ⊥)
    {refillNow : ℚ} (hwf : b.Wf refillNow) {seconds : ℚ}
    (hwait : (b.timeUntilAvailableLocked now refillNow n).1 = some seconds) :
    0 ≤ seconds ∧ seconds ≤ limit := by
  have hmax := h.limit_pos.le
  have hzero : b.waitForPenalty now = 0 := by rw [waitForPenalty, hpen]
  simp only [timeUntilAvailableLocked, hzero] at hwait
  split at hwait
  · cases hwait
  · rename_i hburst
    split at hwait
    · rw [← Option.some.inj hwait]
      exact ⟨le_rfl, hmax⟩
    · rw [refillLocked_ratePerSecond, if_neg (not_le.mpr h.rate_pos)] at hwait
      rw [← Option.some.inj hwait]
      refine ⟨le_max_left _ _, max_le hmax ?_⟩
      rw [div_le_iff₀ h.rate_pos]
      have htokens := hwf.refillLocked.tokens_nonneg
      exact (sub_le_self n htokens).trans ((not_lt.mp hburst).trans h.burst_le)

theorem TokenBucket.wait_nonneg {refillNow seconds : ℚ}
    (hwait : (b.timeUntilAvailableLocked now refillNow n).1 = some seconds) : 0 ≤ seconds := by
  simp only [timeUntilAvailableLocked] at hwait
  split at hwait
  · cases hwait
  · split at hwait
    · rw [← Option.some.inj hwait]
      exact waitForPenalty_nonneg b now
    · split at hwait
      · cases hwait
      · rw [← Option.some.inj hwait]
        exact (waitForPenalty_nonneg b now).trans (le_max_left _ _)

/-- A bucket holds a token once there was time for one to refill. -/
theorem TokenBucket.Refills.holds_one (h : b.Refills limit) (hwf : b.Wf now)
    (hlater : now + 1 / b.ratePerSecond ≤ later) : (b.refillLocked later).Holds 1 := by
  have hle : now ≤ later := le_trans (le_add_of_nonneg_right
    (div_nonneg zero_le_one h.rate_pos.le)) hlater
  have havailable : 1 ≤ b.available later := by
    rw [hwf.regular.available_later hle]
    refine le_min h.one_le_burst ?_
    have htoken : 1 ≤ (later - now) * b.ratePerSecond := by
      rw [← div_le_iff₀ h.rate_pos]
      linarith
    exact htoken.trans (le_add_of_nonneg_left hwf.available_nonneg)
  exact ⟨by rw [refillLocked_burst]; exact h.one_le_burst, havailable⟩

theorem siblingWait_le (h : c.Refills limit now) :
    HierarchicalLimiter.siblingWait c now ≤ limit := by
  have hmax := h.bucket.limit_pos.le
  rw [HierarchicalLimiter.siblingWait]
  cases hlast : c.lastAttempt with
  | none => exact hmax
  | some last =>
      refine max_le hmax (le_trans (sub_le_self _ ?_) h.refillTime_le)
      exact sub_nonneg.mpr (h.lastAttempt_le last hlast)

end Buckets

namespace HierarchicalLimiter

/-- A limiter whose buckets refill. -/
structure Refills (L : HierarchicalLimiter) (limit now : ℚ) : Prop where
  globalBucket : L.globalBucket.Refills limit
  children : ∀ name c, L.children.get? name = some c → c.Refills limit now

variable {L : HierarchicalLimiter} {limit now later : ℚ} {name : String} {child : ChildState}
  {r : ℕ → ℚ} {n : ℚ}

theorem Refills.mono (h : L.Refills limit now) (hle : now ≤ later) : L.Refills limit later :=
  ⟨h.globalBucket, fun name c hc => (h.children name c hc).mono hle⟩

theorem Refills.updateChild (h : L.Refills limit now) {f : ChildState → ChildState}
    (hf : ∀ c, L.children.get? name = some c → (f c).Refills limit now) :
    (L.updateChild name f).Refills limit now where
  globalBucket := h.globalBucket
  children := by
    intro k c hc
    rw [get?_updateChild, Option.map_eq_some_iff] at hc
    obtain ⟨old, hold, rfl⟩ := hc
    split
    next hk => exact hf old (hk ▸ hold)
    next => exact h.children k old hold

theorem Refills.setBucket (h : L.Refills limit now) (hget : L.children.get? name = some child)
    {b : TokenBucket} (hburst : b.burst = child.bucket.burst)
    (hrate : b.ratePerSecond = child.bucket.ratePerSecond) :
    (L.setBucket name b).Refills limit now :=
  h.updateChild fun c hc => by
    obtain rfl : c = child := Option.some.inj (hc.symm.trans hget)
    exact (h.children name c hc).congr ⟨hburst, hrate, rfl, rfl⟩

theorem Refills.setGlobal (h : L.Refills limit now) {g : TokenBucket}
    (hburst : g.burst = L.globalBucket.burst)
    (hrate : g.ratePerSecond = L.globalBucket.ratePerSecond) : (L.setGlobal g).Refills limit now :=
  ⟨h.globalBucket.congr hburst hrate, h.children⟩

/-- The buckets after an update of one child and of the global bucket. -/
theorem Refills.buckets (h : L.Refills limit now) (hget : L.children.get? name = some child)
    {b g : TokenBucket} (hburst : b.burst = child.bucket.burst)
    (hrate : b.ratePerSecond = child.bucket.ratePerSecond)
    (hburst' : g.burst = L.globalBucket.burst)
    (hrate' : g.ratePerSecond = L.globalBucket.ratePerSecond) :
    ((L.setBucket name b).setGlobal g).Refills limit now :=
  (h.setBucket hget hburst hrate).setGlobal hburst' hrate'

theorem Refills.tryTakeLocked (h : L.Refills limit now) (hget : L.children.get? name = some child) :
    (L.tryTakeLocked r name child n).2.Refills limit now := by
  have hglobal : ∀ {took g}, L.globalBucket.tryTakeLocked (r 4) (r 5) n = (took, g) →
      g.burst = L.globalBucket.burst ∧ g.ratePerSecond = L.globalBucket.ratePerSecond :=
    fun htake => (TokenBucket.tryTakeLocked_burst htake).imp_right And.left
  have hown : ∀ {took b}, child.bucket.tryTakeLocked (r 1) (r 2) n = (took, b) →
      b.burst = child.bucket.burst ∧ b.ratePerSecond = child.bucket.ratePerSecond :=
    fun htake => (TokenBucket.tryTakeLocked_burst htake).imp_right And.left
  rcases tryTakeLocked_cases r L name child n with
    ⟨-, heq⟩ | ⟨-, b, g, htake, hg, heq⟩ | ⟨-, b, g, htake, hg, heq⟩ | ⟨-, b, htake, -, heq⟩ |
    ⟨-, b, g, htake, -, hg, heq⟩ | ⟨-, b, g, htake, -, hg, heq⟩
  · rw [heq]
    exact h
  · rw [heq]
    exact h.buckets hget (hown htake).1 (hown htake).2 (hglobal hg).1 (hglobal hg).2
  · rw [heq]
    exact h.buckets hget (hown htake).1 (hown htake).2 (hglobal hg).1 (hglobal hg).2
  · rw [heq]
    exact h.setBucket hget (hown htake).1 (hown htake).2
  · rw [heq]
    exact h.buckets hget (hown htake).1 (hown htake).2 (hglobal hg).1 (hglobal hg).2
  · rw [heq]
    exact h.buckets hget (hown htake).1 (hown htake).2 (hglobal hg).1 (hglobal hg).2

theorem Refills.timeUntilLocked (h : L.Refills limit now)
    (hget : L.children.get? name = some child) :
    (L.timeUntilLocked r name child n).2.Refills limit now := by
  have hbucket : ∀ (b : TokenBucket) (t t' : ℚ),
      (b.timeUntilAvailableLocked t t' n).2.burst = b.burst ∧
        (b.timeUntilAvailableLocked t t' n).2.ratePerSecond = b.ratePerSecond := by
    intro b t t'
    rcases TokenBucket.timeUntilAvailableLocked_snd b t t' n with heq | heq <;> simp [heq]
  rw [timeUntilLocked_snd]
  exact h.buckets hget (hbucket _ _ _).1 (hbucket _ _ _).2 (hbucket _ _ _).1 (hbucket _ _ _).2

theorem Refills.siblings_le (h : L.Refills limit now) :
    L.timeUntilSiblingsIdleLocked name now ≤ limit := by
  have hfold : ∀ (rows : List (String × ChildState)) (wait : ℚ), wait ≤ limit →
      (∀ row ∈ rows, row.2.Refills limit now) → rows.foldl (fun wait row =>
        if row.1 = name then wait else max wait (siblingWait row.2 now)) wait ≤ limit := by
    intro rows
    induction rows with
    | nil => exact fun _ hwait _ => hwait
    | cons row rows ih =>
        intro wait hwait hrows
        obtain ⟨hrow, hrest⟩ := List.forall_mem_cons.mp hrows
        rw [List.foldl_cons]
        split
        · exact ih wait hwait hrest
        · exact ih _ (max_le hwait (siblingWait_le hrow)) hrest
  refine hfold _ 0 h.globalBucket.limit_pos.le fun row hrow => ?_
  exact h.children row.1 row.2 (Table.get?_eq_some_iff.mpr hrow)

/-- A wait is no longer than the limiter's own refills, whatever the child's penalty. -/
theorem Refills.wait_le (h : L.Refills limit (r 4)) (hwf : L.Wf (r 3)) {seconds : ℚ}
    (hwait : (L.timeUntilLocked r name child n).1 = some seconds) :
    0 ≤ seconds ∧ seconds ≤ limit := by
  rw [HierarchicalLimiter.timeUntilLocked] at hwait
  have hglobal : ∀ globalWait,
      (L.globalBucket.timeUntilAvailableLocked (r 2) (r 3) n).1 = some globalWait →
        0 ≤ globalWait ∧ globalWait ≤ limit :=
    fun globalWait hgw => h.globalBucket.wait_le hwf.global_unpenalized hwf.globalBucket hgw
  have hown : ∀ ownWait, (child.bucket.timeUntilAvailableLocked (r 0) (r 1) n).1 = some ownWait →
      0 ≤ ownWait := fun _ how => TokenBucket.wait_nonneg how
  rcases hc : child.bucket.timeUntilAvailableLocked (r 0) (r 1) n with ⟨ownWait, bucket⟩
  rcases hg : L.globalBucket.timeUntilAvailableLocked (r 2) (r 3) n with ⟨globalWait, g⟩
  rw [hc] at hown
  rw [hg] at hglobal
  simp only [hc, hg] at hwait
  cases globalWait with
  | none => cases hwait
  | some globalWait =>
      obtain ⟨hgnonneg, hgle⟩ := hglobal globalWait rfl
      have hidle : ((L.setBucket name bucket).setGlobal g).timeUntilSiblingsIdleLocked name (r 4) ≤
          limit := by
        rw [timeUntilSiblingsIdleLocked_setGlobal, timeUntilSiblingsIdleLocked_setBucket]
        exact h.siblings_le
      have hborrow := max_le hidle hgle
      by_cases hzero : ownWait = some 0
      · simp only [hzero, if_true] at hwait
        rw [← Option.some.inj hwait]
        exact ⟨hgnonneg, hgle⟩
      · simp only [hzero, if_false] at hwait
        cases ownWait with
        | none =>
            rw [← Option.some.inj hwait]
            exact ⟨hgnonneg.trans (le_max_right _ _), hborrow⟩
        | some ownWait =>
            rw [← Option.some.inj hwait]
            exact ⟨le_min (hown ownWait rfl) (hgnonneg.trans (le_max_right _ _)),
              (min_le_right _ _).trans hborrow⟩

theorem exists_child_tryTakeLocked (hget : L.children.get? name = some child) :
    ∃ c, (L.tryTakeLocked r name child n).2.children.get? name = some c := by
  rcases tryTakeLocked_cases r L name child n with
    ⟨-, heq⟩ | ⟨-, b, g, -, -, heq⟩ | ⟨-, b, g, -, -, heq⟩ | ⟨-, b, -, -, heq⟩ |
    ⟨-, b, g, -, -, -, heq⟩ | ⟨-, b, g, -, -, -, heq⟩ <;>
    simp [heq, get?_setBucket, hget]

/-- A pass keeps the limits. -/
theorem Refills.acquirePass (h : L.Refills limit now) (hget : L.children.get? name = some child)
    (deadline : Option ℚ) : (L.acquirePass r name child n deadline).limiter.Refills limit now := by
  have htaken := h.tryTakeLocked hget (r := r) (n := n)
  have hcount : ∀ {L' : HierarchicalLimiter} (f : ChildState → ChildState), L'.Refills limit now →
      (∀ c : ChildState, c.SameLimits (f c)) → (L'.updateChild name f).Refills limit now :=
    fun f h' hf => h'.updateChild fun c hc => (h'.children name c hc).congr (hf c)
  rcases L.acquirePass_cases r name child n deadline with
    ⟨borrowed, L₁, htake, hpass⟩ | ⟨returned, L₁, waitFor, L₂, htake, htime, hpass⟩
  · rw [htake] at htaken
    rw [hpass]
    exact hcount _ htaken fun _ => ⟨rfl, rfl, rfl, rfl⟩
  · obtain ⟨c, hc⟩ := exists_child_tryTakeLocked (r := r) (n := n) hget
    rw [htake] at htaken hc
    rw [hc, Option.getD_some] at htime
    have htimed := htaken.timeUntilLocked hc (r := fun k => r (6 + k)) (n := n)
    rw [htime] at htimed
    rcases hpass with ⟨hpass, -⟩ | ⟨seconds, -, ⟨-, hpass⟩ | ⟨d, -, -, hpass⟩⟩
    · rw [hpass]
      exact hcount _ htimed fun _ => ⟨rfl, rfl, rfl, rfl⟩
    · rw [hpass]
      exact htimed
    · rw [hpass]
      exact htimed

/-- What a pass makes its caller wait. -/
theorem Refills.pass_wait_le {burst rate : ℚ} {log : List (ℚ × ℚ)} (h : L.Refills limit (r 0))
    (haccounted : Accounted burst rate L (r 0) log) (hr : Monotone r)
    (hget : L.children.get? name = some child) (hn : 0 ≤ n) {deadline : Option ℚ} {seconds : ℚ}
    (hwait : (L.acquirePass r name child n deadline).verdict = .wait seconds) :
    0 ≤ seconds ∧ seconds ≤ limit := by
  rcases L.acquirePass_cases r name child n deadline with
    ⟨borrowed, L₁, -, hpass⟩ | ⟨returned, L₁, waitFor, L₂, htake, htime, hpass⟩
  · rw [hpass] at hwait
    cases hwait
  · have htaken := (h.tryTakeLocked hget (r := r) (n := n)).mono (hr (Nat.zero_le 10))
    have hwf := (haccounted.tryTakeLocked hr le_rfl name (haccounted.wf.children name child hget)
      hn).wf.mono (hr (show 5 ≤ 9 by omega))
    rw [htake] at htaken hwf
    have hle : ∀ seconds, waitFor = some seconds → 0 ≤ seconds ∧ seconds ≤ limit := by
      intro seconds hseconds
      have hsome : (L₁.timeUntilLocked (fun k => r (6 + k)) name
          ((L₁.children.get? name).getD child) n).1 = some seconds := by rw [htime, hseconds]
      exact Refills.wait_le (r := fun k => r (6 + k)) htaken hwf hsome
    rcases hpass with ⟨hpass, -⟩ | ⟨waited, hwaited, ⟨-, hpass⟩ | ⟨d, -, hd, hpass⟩⟩
    · rw [hpass] at hwait
      cases hwait
    · rw [hpass] at hwait
      rw [← Verdict.wait.inj hwait]
      exact hle waited hwaited
    · rw [hpass] at hwait
      rw [← Verdict.wait.inj hwait]
      exact ⟨le_min (hle waited hwaited).1 (sub_nonneg.mpr hd.le),
        (min_le_left _ _).trans (hle waited hwaited).2⟩

/-- An attempt of a child past its penalty is granted when both buckets hold a token. -/
theorem tryTakeLocked_granted (hchild : ∀ k, ¬child.bucket.isPenalized (r k))
    (hglobal : L.globalBucket.penaltyDeadline = ⊥)
    (hown : (child.bucket.refillLocked (r 2)).Holds n)
    (hshared : (L.globalBucket.refillLocked (r 5)).Holds n) :
    (L.tryTakeLocked r name child n).1 = .granted false := by
  have htakes : (child.bucket.tryTakeLocked (r 1) (r 2) n).1 = true :=
    (TokenBucket.tryTakeLocked_fst_iff _ _ _ _).mpr ⟨hchild 1, hown⟩
  have hunpenalized : ¬L.globalBucket.isPenalized (r 4) := by
    rw [TokenBucket.isPenalized, hglobal]
    exact not_lt_bot
  have hdraws : (L.globalBucket.tryTakeLocked (r 4) (r 5) n).1 = true :=
    (TokenBucket.tryTakeLocked_fst_iff _ _ _ _).mpr ⟨hunpenalized, hshared⟩
  rcases tryTakeLocked_cases r L name child n with
    ⟨hpen, -⟩ | ⟨-, b, g, -, -, heq⟩ | ⟨-, b, g, -, hg, -⟩ | ⟨-, b, hb, -, -⟩ |
    ⟨-, b, g, hb, -, -, -⟩ | ⟨-, b, g, hb, -, -, -⟩
  · exact absurd hpen (hchild 0)
  · rw [heq]
  · rw [hg] at hdraws
    cases hdraws
  · rw [hb] at htakes
    cases htakes
  · rw [hb] at htakes
    cases htakes
  · rw [hb] at htakes
    cases htakes

end HierarchicalLimiter

/-! ## Runs -/

/-- What a limiter is configured with: positive rates. -/
structure LimiterConfig where
  globalRate : ℚ
  children : Table String ℚ
  global_pos : 0 < globalRate
  children_pos : ∀ name rate, children.get? name = some rate → 0 < rate

/-- No rate takes longer for a token than `limit`, a second at least. -/
structure LimiterConfig.RefillsWithin (config : LimiterConfig) (limit : ℚ) : Prop where
  one_le : 1 ≤ limit
  global_le : 60 / config.globalRate ≤ limit
  children_le : ∀ name rate, config.children.get? name = some rate → 60 / rate ≤ limit

theorem LimiterConfig.exists_refillsWithin (config : LimiterConfig) :
    ∃ limit, config.RefillsWithin limit := by
  have hrows : ∀ rows : List (String × ℚ), ∃ limit : ℚ, ∀ row ∈ rows, 60 / row.2 ≤ limit := by
    intro rows
    induction rows with
    | nil => exact ⟨0, by simp⟩
    | cons row rows ih =>
        obtain ⟨limit, hlimit⟩ := ih
        exact ⟨max (60 / row.2) limit, List.forall_mem_cons.mpr
          ⟨le_max_left _ _, fun r hr => (hlimit r hr).trans (le_max_right _ _)⟩⟩
  obtain ⟨limit, hlimit⟩ := hrows config.children.rows
  refine ⟨max 1 (max (60 / config.globalRate) limit), le_max_left _ _,
    (le_max_left _ _).trans (le_max_right _ _), fun name rate hrate => ?_⟩
  have hrow := hlimit (name, rate) (Table.get?_eq_some_iff.mp hrate)
  exact hrow.trans ((le_max_right _ _).trans (le_max_right _ _))

namespace AcquireState

open HierarchicalLimiter

variable {clock : ℕ → ℚ} {s s' : AcquireState} {e : AcquireEvent}
  {limit burst rate : ℚ}

/-- What every reachable state of a configured limiter satisfies. -/
structure Provisioned (limit burst rate : ℚ) (clock : ℕ → ℚ) (s : AcquireState) : Prop where
  capped : Capped burst rate clock s
  refills : s.limiter.Refills limit (clock s.ticks)

theorem provisioned_create (hclock : Monotone clock) (config : LimiterConfig)
    (hlimit : config.RefillsWithin limit) :
    Provisioned limit (oneSecondBurst config.globalRate) (config.globalRate / 60) clock
      (create config.globalRate config.children clock) where
  capped := capped_create hclock config.global_pos.le
    fun name rate hrate => (config.children_pos name rate hrate).le
  refills :=
    { globalBucket := TokenBucket.Refills.create config.global_pos hlimit.one_le hlimit.global_le _
      children := by
        intro name c hc
        simp only [create, HierarchicalLimiter.create, Table.get?_modify,
          Option.map_eq_some_iff] at hc
        obtain ⟨rate, hrate, rfl⟩ := hc
        have hpos := config.children_pos name rate hrate
        have hrefill := hlimit.children_le name rate hrate
        refine ⟨TokenBucket.Refills.create hpos hlimit.one_le hrefill _, ?_, by simp⟩
        simp only [ChildState.refillTime, hpos, if_true]
        exact hrefill }

/-- The limiter a trial starts from, with the readings it makes. -/
theorem trial_start (hclock : Monotone clock) (h : Provisioned limit burst rate clock s) {T : Trial}
    (hT : s.trial clock e = some T) :
    T.limiter.children.get? T.caller.child = some T.child ∧ Monotone T.readings ∧
      T.limiter.Refills limit (T.readings 0) ∧
      Accounted burst rate T.limiter (T.readings 0) (grantLog s.grants) ∧
      T.readings 0 ≤ clock (s.ticks + 16) := by
  cases e with
  | call childName n timeout =>
      obtain ⟨child, hget, rfl⟩ := Option.map_eq_some_iff.mp hT
      have hnow : clock s.ticks ≤ clock (s.ticks + (2 + 0)) := hclock (by omega)
      refine ⟨by simp [recordAttempt, get?_updateChild, hget], fun i j hij => hclock (by omega),
        (h.refills.mono hnow).updateChild fun c hc => ?_,
        (h.capped.accounted.mono hnow).recordAttempt childName _, hclock (by omega)⟩
      have hc' := (h.refills.mono hnow).children childName c hc
      refine ⟨hc'.bucket, hc'.refillTime_le, ?_⟩
      rintro - ⟨⟩
      exact hclock (by omega)
  | wake i =>
      obtain ⟨w, hw, hrest⟩ := Option.bind_eq_some_iff.mp hT
      obtain ⟨child, hget, hrest⟩ := Option.bind_eq_some_iff.mp hrest
      obtain rfl := Option.some.inj hrest
      exact ⟨hget, readings_monotone hclock s, h.refills, h.capped.accounted, hclock (by omega)⟩
  | penalize child seconds => cases hT
  | snapshot => cases hT

theorem provisioned_step (hclock : Monotone clock) (h : Provisioned limit burst rate clock s)
    (hstep : step clock s e = some s') : Provisioned limit burst rate clock s' := by
  refine ⟨capped_step hclock h.capped hstep, ?_⟩
  rcases step_cases h.capped.waiting_pos hstep with
    ⟨T, hT, -, hlimiter, -, hticks⟩ | ⟨child, c, seconds, -, hget, rfl⟩ | ⟨-, rfl⟩
  · obtain ⟨hget, -, hrefills, -, hlast⟩ := trial_start hclock h hT
    rw [hlimiter, hticks]
    exact (hrefills.acquirePass hget _).mono hlast
  · have hsame : (c.bucket.penalize (clock s.ticks) seconds).burst = c.bucket.burst ∧
        (c.bucket.penalize (clock s.ticks) seconds).ratePerSecond = c.bucket.ratePerSecond := by
      simp only [TokenBucket.penalize]
      split <;> exact ⟨rfl, rfl⟩
    exact (h.refills.setBucket hget hsame.1 hsame.2).mono (hclock (Nat.le_succ _))
  · refine HierarchicalLimiter.Refills.mono ⟨?_, ?_⟩
      (hclock (show s.ticks ≤ s.ticks + 1 + s.limiter.children.keys.length by omega))
    · exact h.refills.globalBucket.congr (TokenBucket.refillLocked_burst _ _)
        (TokenBucket.refillLocked_ratePerSecond _ _)
    · intro name c hc
      simp only [snapshotRefill, Table.get?_modify, Option.map_eq_some_iff] at hc
      obtain ⟨old, hold, rfl⟩ := hc
      exact (h.refills.children name old hold).congr
        ⟨TokenBucket.refillLocked_burst _ _, TokenBucket.refillLocked_ratePerSecond _ _, rfl, rfl⟩

theorem provisioned_run (hclock : Monotone clock) (config : LimiterConfig)
    (hlimit : config.RefillsWithin limit) {events : List AcquireEvent}
    (hrun : (machine clock).run (create config.globalRate config.children clock) events = some s) :
    Provisioned limit (oneSecondBurst config.globalRate) (config.globalRate / 60) clock s :=
  Machine.run_invariant (M := machine clock)
    (P := Provisioned limit (oneSecondBurst config.globalRate) (config.globalRate / 60) clock)
    (fun _ _ _ h hstep => provisioned_step hclock h hstep)
    (provisioned_create hclock config hlimit) hrun

/-- Every wait is a time between none and `limit`. -/
def WaitsWithin (limit : ℚ) (clock : ℕ → ℚ) (s : AcquireState) : Prop :=
  ∀ e T seconds, s.trial clock e = some T → 0 < T.caller.n → T.pass.verdict = .wait seconds →
    0 ≤ seconds ∧ seconds ≤ limit

/-- From some time on a call for the child is granted. -/
def Recovers (s : AcquireState) (child : String) : Prop :=
  ∃ t, ∀ clock, Monotone clock → t ≤ clock s.ticks → ∃ w pass,
    s.callPass clock child 1 none = some (w, pass) ∧ pass.verdict = .granted false

theorem Provisioned.waitsWithin (hclock : Monotone clock)
    (h : Provisioned limit burst rate clock s) :
    WaitsWithin limit clock s := by
  intro e T seconds hT hn hwait
  obtain ⟨hget, hr, hrefills, haccounted, -⟩ := trial_start hclock h hT
  exact hrefills.pass_wait_le haccounted hr hget hn.le hwait

/-- Past the deadline of its penalty, and with time for a token in both buckets. -/
theorem Provisioned.recovers (h : Provisioned limit burst rate clock s) {child : String}
    {c : ChildState}
    (hget : s.limiter.children.get? child = some c) : s.Recovers child := by
  have hwf := h.capped.accounted.wf
  obtain ⟨d, hd⟩ : ∃ d : ℚ, c.bucket.penaltyDeadline ≤ d := by
    cases c.bucket.penaltyDeadline with
    | bot => exact ⟨0, bot_le⟩
    | coe d => exact ⟨d, le_rfl⟩
  let own := clock s.ticks + 1 / c.bucket.ratePerSecond
  let shared := clock s.ticks + 1 / s.limiter.globalBucket.ratePerSecond
  refine ⟨max d (max own shared), fun clock' hclock' hlate => ?_⟩
  have hlater : ∀ k, max d (max own shared) ≤ clock' (s.ticks + k) :=
    fun k => hlate.trans (hclock' (Nat.le_add_right _ _))
  have hunpenalized : ∀ k, ¬c.bucket.isPenalized (clock' (s.ticks + k)) := fun k =>
    not_lt_of_ge (hd.trans (WithBot.coe_le_coe.mpr ((le_max_left _ _).trans (hlater k))))
  have hown : ∀ k, (c.bucket.refillLocked (clock' (s.ticks + k))).Holds 1 := fun k =>
    (h.refills.children child c hget).bucket.holds_one (hwf.children child c hget)
      (((le_max_left _ _).trans (le_max_right _ _)).trans (hlater k))
  have hshared : ∀ k, (s.limiter.globalBucket.refillLocked (clock' (s.ticks + k))).Holds 1 :=
    fun k => h.refills.globalBucket.holds_one hwf.globalBucket
      (((le_max_right _ _).trans (le_max_right _ _)).trans (hlater k))
  have hpass := callPass_eq_trial clock' s child 1 none
  simp only [trial, hget, Option.map_some] at hpass
  refine ⟨_, _, hpass, ?_⟩
  rw [Trial.pass, acquirePass_reserved_iff]
  exact tryTakeLocked_granted (fun k => hunpenalized _) hwf.global_unpenalized (hown _) (hshared _)

end AcquireState

end RerollSync.RateLimit
