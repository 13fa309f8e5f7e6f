import RerollSync.Support.Meter
import Mathlib.Algebra.Order.Ring.Rat
import Mathlib.Order.WithBot

/-!
# Token bucket

The lazily refilled bucket of `ratelimit.py` over exact rational time.  A method
of the source that reads the clock takes the readings it makes as arguments, in
the order it makes them.  A penalty deadline of `⊥` is the source's
`float("-inf")`.
-/

namespace RerollSync.RateLimit

open RerollSync.Support

/-- The fields of `TokenBucket`. -/
structure TokenBucket where
  ratePerSecond : ℚ
  burst : ℚ
  tokens : ℚ
  lastRefill : ℚ
  penaltyDeadline : WithBot ℚ

/-- The token-bucket burst for a configured rate: one second's worth, floored at one. -/
def oneSecondBurst (ratePerMinute : ℚ) : ℚ :=
  max 1 (ratePerMinute / 60)

namespace TokenBucket

/-- `TokenBucket.__init__`: a full bucket that is not penalised. -/
def create (ratePerMinute burst now : ℚ) : TokenBucket where
  ratePerSecond := ratePerMinute / 60
  burst := burst
  tokens := burst
  lastRefill := now
  penaltyDeadline := ⊥

def refillLocked (b : TokenBucket) (now : ℚ) : TokenBucket :=
  let elapsed := now - b.lastRefill
  if 0 < elapsed then
    { b with
      tokens := min b.burst (b.tokens + elapsed * b.ratePerSecond)
      lastRefill := now }
  else
    b

def isPenalized (b : TokenBucket) (now : ℚ) : Prop :=
  (now : WithBot ℚ) < b.penaltyDeadline

instance (b : TokenBucket) (now : ℚ) : Decidable (b.isPenalized now) :=
  inferInstanceAs (Decidable ((now : WithBot ℚ) < b.penaltyDeadline))

/-- `_try_take_locked`: the penalty is checked at `now`, the refill reads `refillNow`. -/
def tryTakeLocked (b : TokenBucket) (now refillNow n : ℚ) : Bool × TokenBucket :=
  if b.isPenalized now then (false, b)
  else
    let b := b.refillLocked refillNow
    if n > b.burst ∨ b.tokens < n then (false, b)
    else (true, { b with tokens := b.tokens - n })

def returnTokens (b : TokenBucket) (n : ℚ) : TokenBucket :=
  { b with tokens := min b.burst (b.tokens + n) }

/-- A penalty only ever extends the deadline. -/
def penalize (b : TokenBucket) (now seconds : ℚ) : TokenBucket :=
  let deadline : WithBot ℚ := (now + seconds : ℚ)
  if b.penaltyDeadline < deadline then { b with penaltyDeadline := deadline } else b

/-- `max(0.0, self._penalty_deadline - self._now())`. -/
def waitForPenalty (b : TokenBucket) (now : ℚ) : ℚ :=
  match b.penaltyDeadline with
  | none => 0
  | some deadline => max 0 (deadline - now)

/-- `_time_until_available_locked`, with the bucket its refill leaves. -/
def timeUntilAvailableLocked (b : TokenBucket) (now refillNow n : ℚ) :
    Option ℚ × TokenBucket :=
  if n > b.burst then (none, b)
  else
    let penalty := b.waitForPenalty now
    let b := b.refillLocked refillNow
    let deficit := n - b.tokens
    if deficit ≤ 0 then (some penalty, b)
    else if b.ratePerSecond ≤ 0 then (none, b)
    else (some (max penalty (deficit / b.ratePerSecond)), b)

/-! ## What each method leaves unchanged -/

@[simp] theorem refillLocked_ratePerSecond (b : TokenBucket) (now : ℚ) :
    (b.refillLocked now).ratePerSecond = b.ratePerSecond := by
  simp only [refillLocked]
  split <;> rfl

@[simp] theorem refillLocked_burst (b : TokenBucket) (now : ℚ) :
    (b.refillLocked now).burst = b.burst := by
  simp only [refillLocked]
  split <;> rfl

@[simp] theorem refillLocked_penaltyDeadline (b : TokenBucket) (now : ℚ) :
    (b.refillLocked now).penaltyDeadline = b.penaltyDeadline := by
  simp only [refillLocked]
  split <;> rfl

theorem refillLocked_lastRefill {b : TokenBucket} {now : ℚ} (h : b.lastRefill ≤ now) :
    (b.refillLocked now).lastRefill = now := by
  simp only [refillLocked]
  split
  next => rfl
  next hlt => linarith

/-- When the clock has not gone back, the refill adds the elapsed time's tokens
up to the burst. -/
theorem refillLocked_tokens {b : TokenBucket} {now : ℚ} (h : b.lastRefill ≤ now)
    (hle : b.tokens ≤ b.burst) :
    (b.refillLocked now).tokens =
      min b.burst (b.tokens + (now - b.lastRefill) * b.ratePerSecond) := by
  simp only [refillLocked]
  split
  next => rfl
  next hlt =>
    have hzero : now - b.lastRefill = 0 := by linarith
    simp [hzero, hle]

/-- A second refill at the same reading does nothing. -/
theorem refillLocked_idem {b : TokenBucket} {now : ℚ} (h : b.lastRefill = now) :
    b.refillLocked now = b := by
  simp [refillLocked, h]

/-! ## Well-formed buckets -/

/-- What every bucket of a limiter satisfies at a clock reading `now`. -/
structure Wf (b : TokenBucket) (now : ℚ) : Prop where
  rate_nonneg : 0 ≤ b.ratePerSecond
  burst_pos : 0 < b.burst
  tokens_nonneg : 0 ≤ b.tokens
  tokens_le : b.tokens ≤ b.burst
  lastRefill_le : b.lastRefill ≤ now

namespace Wf

variable {b : TokenBucket} {now : ℚ}

theorem mono (h : b.Wf now) {later : ℚ} (hle : now ≤ later) : b.Wf later :=
  { h with lastRefill_le := le_trans h.lastRefill_le hle }

theorem create {rate now : ℚ} (hrate : 0 ≤ rate) :
    (TokenBucket.create rate (oneSecondBurst rate) now).Wf now where
  rate_nonneg := by
    simp only [TokenBucket.create]
    positivity
  burst_pos := lt_of_lt_of_le one_pos (le_max_left _ _)
  tokens_nonneg := le_trans zero_le_one (le_max_left _ _)
  tokens_le := le_refl _
  lastRefill_le := le_refl _

theorem refillLocked (h : b.Wf now) : (b.refillLocked now).Wf now where
  rate_nonneg := by simpa using h.rate_nonneg
  burst_pos := by simpa using h.burst_pos
  tokens_nonneg := by
    rw [refillLocked_tokens h.lastRefill_le h.tokens_le]
    have hgain : 0 ≤ (now - b.lastRefill) * b.ratePerSecond :=
      mul_nonneg (sub_nonneg.mpr h.lastRefill_le) h.rate_nonneg
    exact le_min h.burst_pos.le (add_nonneg h.tokens_nonneg hgain)
  tokens_le := by
    rw [refillLocked_tokens h.lastRefill_le h.tokens_le, refillLocked_burst]
    exact min_le_left _ _
  lastRefill_le := le_of_eq (refillLocked_lastRefill h.lastRefill_le)

theorem penalize (h : b.Wf now) (seconds : ℚ) : (b.penalize now seconds).Wf now := by
  simp only [TokenBucket.penalize]
  split
  · exact { h with }
  · exact h

theorem returnTokens (h : b.Wf now) {n : ℚ} (hn : 0 ≤ n) : (b.returnTokens n).Wf now :=
  { h with
    tokens_nonneg := le_min h.burst_pos.le (add_nonneg h.tokens_nonneg hn)
    tokens_le := min_le_left _ _ }

end Wf

/-! ## One lemma per method -/

/-- Everything one take attempt can do: it is refused by the penalty, refused
for lack of tokens after a refill, or it withdraws `n`. -/
theorem tryTakeLocked_cases (b : TokenBucket) (now refillNow n : ℚ) :
    (b.isPenalized now ∧ b.tryTakeLocked now refillNow n = (false, b)) ∨
    (¬b.isPenalized now ∧ (b.burst < n ∨ (b.refillLocked refillNow).tokens < n) ∧
      b.tryTakeLocked now refillNow n = (false, b.refillLocked refillNow)) ∨
    (¬b.isPenalized now ∧ n ≤ b.burst ∧ n ≤ (b.refillLocked refillNow).tokens ∧
      b.tryTakeLocked now refillNow n =
        (true, { b.refillLocked refillNow with
          tokens := (b.refillLocked refillNow).tokens - n })) := by
  by_cases hpen : b.isPenalized now
  · exact Or.inl ⟨hpen, by simp [tryTakeLocked, hpen]⟩
  · by_cases hlack : b.burst < n ∨ (b.refillLocked refillNow).tokens < n
    · refine Or.inr (Or.inl ⟨hpen, hlack, ?_⟩)
      simp [tryTakeLocked, hpen, hlack]
    · have henough := hlack
      rw [not_or, not_lt, not_lt] at henough
      refine Or.inr (Or.inr ⟨hpen, henough.1, henough.2, ?_⟩)
      simp [tryTakeLocked, hpen, hlack]

theorem Wf.tryTakeLocked {b : TokenBucket} {now refillNow n : ℚ} (h : b.Wf refillNow)
    (hn : 0 ≤ n) : (b.tryTakeLocked now refillNow n).2.Wf refillNow := by
  rcases tryTakeLocked_cases b now refillNow n with ⟨-, heq⟩ | ⟨-, -, heq⟩ | ⟨-, -, htok, heq⟩
  · rw [heq]
    exact h
  · rw [heq]
    exact h.refillLocked
  · rw [heq]
    have hfull := h.refillLocked
    exact { hfull with
      tokens_nonneg := sub_nonneg.mpr htok
      tokens_le := le_trans (sub_le_self _ hn) hfull.tokens_le }

/-- The bucket a waiting-time computation leaves is untouched or refilled. -/
theorem timeUntilAvailableLocked_snd (b : TokenBucket) (now refillNow n : ℚ) :
    (b.timeUntilAvailableLocked now refillNow n).2 = b ∨
      (b.timeUntilAvailableLocked now refillNow n).2 = b.refillLocked refillNow := by
  simp only [timeUntilAvailableLocked]
  split
  · exact Or.inl rfl
  · split
    · exact Or.inr rfl
    · split
      · exact Or.inr rfl
      · exact Or.inr rfl

theorem Wf.timeUntilAvailableLocked {b : TokenBucket} {now refillNow n : ℚ}
    (h : b.Wf refillNow) : (b.timeUntilAvailableLocked now refillNow n).2.Wf refillNow := by
  rcases timeUntilAvailableLocked_snd b now refillNow n with heq | heq
  · rw [heq]
    exact h
  · rw [heq]
    exact h.refillLocked

theorem waitForPenalty_nonneg (b : TokenBucket) (now : ℚ) : 0 ≤ b.waitForPenalty now := by
  simp only [waitForPenalty]
  split
  · exact le_refl 0
  · exact le_max_left _ _

theorem waitForPenalty_pos_iff {b : TokenBucket} {now : ℚ} :
    0 < b.waitForPenalty now ↔ b.isPenalized now := by
  cases hd : b.penaltyDeadline with
  | bot =>
      have hzero : b.waitForPenalty now = 0 := by
        rw [waitForPenalty, hd]
      simp [isPenalized, hd, hzero]
  | coe deadline =>
      have hwait : b.waitForPenalty now = max 0 (deadline - now) := by
        rw [waitForPenalty, hd]
      rw [hwait, lt_max_iff, isPenalized, hd, WithBot.coe_lt_coe, sub_pos]
      simp

end TokenBucket

end RerollSync.RateLimit
