import RerollSync.Client.HttpDate
import RerollSync.RateLimit.Waits

/-!
# The delay a server asks for

`Retry-After` is a number of seconds or a date.  What it parses to travels in one of two
outcomes to the limiter, as a penalty of the host that sent it.  The literal of an infinite
float becomes an infinite delay, and a date with numbers too large for the types behind
`datetime` is an `OverflowError` that nobody expects; any other header leaves every host
with a time from which it is served again.
-/

namespace RerollSync.Client

open RerollSync.Support RerollSync.RateLimit

/-! ## Parsing -/

/-- `max(0.0, x)`. -/
def maxZero : PyFloat → PyFloat
  | .inf false => .inf false
  | .inf true | .nan => .finite 0
  | .finite q => .finite (max 0 q)

/-- The microseconds before 1970. -/
def epochMicros : ℕ := 719162 * dayMicros

/-- `datetime.timestamp`, with UTC for the zone of a time that has none. -/
def timestamp (d : DateTime) (zone : Option ℤ) : ℚ :=
  ((d.micros : ℚ) - epochMicros) / 1000000 - zone.getD 0

/-- `_parse_retry_after`, at the time `now`; the exception is one it does not catch. -/
def parseRetryAfter (u : UnicodeData) (value : Option (List Char)) (now : ℚ) :
    Except DateError (Option PyFloat) :=
  match value with
  | none | some [] => .ok none
  | some value =>
      match pyFloat u value with
      | some x => .ok (some (maxZero x))
      | none =>
          match parsedateToDatetime u value with
          | .error .valueError => .ok none
          | .error .overflowError => .error .overflowError
          | .ok (d, zone) => .ok (some (.finite (max 0 (timestamp d zone - now))))

/-- It returns, but for a date with numbers too large. -/
theorem parseRetryAfter_ok_iff {u : UnicodeData} {value : Option (List Char)} {now : ℚ} :
    (∃ r, parseRetryAfter u value now = .ok r) ↔ ∀ cs, value = some cs → cs ≠ [] →
      pyFloat u cs = none → ¬DateOverflows u cs := by
  rcases value with - | (- | ⟨c, cs⟩)
  · exact iff_of_true ⟨_, rfl⟩ nofun
  · exact iff_of_true ⟨_, rfl⟩ fun cs hcs hne => absurd (Option.some.inj hcs).symm hne
  · simp only [parseRetryAfter, Option.some.injEq, forall_eq', ne_eq, reduceCtorEq, not_false_iff,
      forall_const, ← parsedateToDatetime_eq_overflowError_iff]
    cases pyFloat u (c :: cs) with
    | some x => simp
    | none =>
        cases parsedateToDatetime u (c :: cs) with
        | ok date => simp
        | error e => cases e <;> simp

/-! ## Outcomes -/

/-- `RateLimited`, and `SyncRateLimited`. -/
structure RateLimited where
  child : String
  seconds : PyFloat

/-- `FetchRateLimited`. -/
structure FetchRateLimited where
  child : String
  retryAfter : Option PyFloat

/-- The outcome of `sync_project` for a `PyPIRateLimited`. -/
def syncRateLimited (child : String) (retryAfter : Option PyFloat) : RateLimited where
  child := child
  seconds := match retryAfter with
    | none => .finite 0
    | some x => if x.truthy then x else .finite 0

/-- `adapt_fetch_outcome`. -/
def adaptFetchOutcome (outcome : FetchRateLimited) : RateLimited where
  child := outcome.child
  seconds := (outcome.retryAfter.filter PyFloat.truthy).getD (.finite 0)

/-- What the limiter is told, by either stage. -/
def outcomes (child : String) (retryAfter : Option PyFloat) : List RateLimited :=
  [syncRateLimited child retryAfter, adaptFetchOutcome ⟨child, retryAfter⟩]

/-! ## The limiter -/

/-- Nobody is shut out: a call for any child is granted from some time on, and no caller
waits longer than the limiter's own refills take. -/
structure Serves (config : LimiterConfig) (clock : ℕ → ℚ) (s : AcquireState) : Prop where
  recovers : ∀ child c, s.limiter.children.get? child = some c → s.Recovers child
  waitsWithin : ∀ limit, config.RefillsWithin limit → s.WaitsWithin limit clock

/-- A limiter that is told so, whatever happened to it before, serves from then on. -/
def Admits (outcome : RateLimited) : Prop :=
  ∃ seconds, outcome.seconds = .finite seconds ∧ 0 ≤ seconds ∧
    ∀ (config : LimiterConfig) (clock : ℕ → ℚ), Monotone clock → ∀ events s c,
      (AcquireState.machine clock).run
          (AcquireState.create config.globalRate config.children clock) events = some s →
      s.limiter.children.get? outcome.child = some c →
      ∃ s' c', AcquireState.step clock s (.penalize outcome.child seconds) = some s' ∧
        s'.limiter.children.get? outcome.child = some c' ∧
        ∀ later t, (AcquireState.machine clock).run s' later = some t → Serves config clock t

/-- A header that parses to no delay or to a finite one, with which no host is disabled. -/
def Harmless (u : UnicodeData) (value : Option (List Char)) (now : ℚ) : Prop :=
  ∃ r, parseRetryAfter u value now = .ok r ∧ (∀ x ∈ r, ∃ q, x = .finite q ∧ 0 ≤ q) ∧
    ∀ child, ∀ outcome ∈ outcomes child r, Admits outcome

theorem serves_of_run {config : LimiterConfig} {clock : ℕ → ℚ} (hclock : Monotone clock)
    {events : List AcquireEvent} {s : AcquireState}
    (hrun : (AcquireState.machine clock).run
      (AcquireState.create config.globalRate config.children clock) events = some s) :
    Serves config clock s where
  recovers child c hget := by
    obtain ⟨limit, hlimit⟩ := config.exists_refillsWithin
    exact (AcquireState.provisioned_run hclock config hlimit hrun).recovers hget
  waitsWithin limit hlimit :=
    (AcquireState.provisioned_run hclock config hlimit hrun).waitsWithin hclock

/-- Every finite delay admits. -/
theorem admits_of_finite {outcome : RateLimited} {seconds : ℚ}
    (hseconds : outcome.seconds = .finite seconds) (hnonneg : 0 ≤ seconds) : Admits outcome := by
  refine ⟨seconds, hseconds, hnonneg, fun config clock hclock events s c hrun hget => ?_⟩
  have hstep : AcquireState.step clock s (.penalize outcome.child seconds) =
      some { s with
        limiter := s.limiter.setBucket outcome.child
          (c.bucket.penalize (s.readings clock 0) seconds)
        ticks := s.ticks + 1 } := by
    simp only [AcquireState.step, HierarchicalLimiter.penalize, hget]
  refine ⟨_, _, hstep, by simp [HierarchicalLimiter.get?_setBucket, hget]; rfl, ?_⟩
  intro later t hlater
  have hrun' : (AcquireState.machine clock).run
      (AcquireState.create config.globalRate config.children clock)
      (events ++ .penalize outcome.child seconds :: later) = some t := by
    rw [Machine.run_append_eq_some]
    exact ⟨s, hrun, Machine.run_cons_eq_some.mpr ⟨_, hstep, hlater⟩⟩
  exact serves_of_run hclock hrun'

/-- A delay that is finite reaches the limiter as a finite one. -/
theorem exists_seconds_of_mem_outcomes {child : String} {r : Option PyFloat}
    (hr : ∀ x ∈ r, ∃ q, x = .finite q ∧ 0 ≤ q) {outcome : RateLimited}
    (houtcome : outcome ∈ outcomes child r) :
    ∃ q, outcome.seconds = .finite q ∧ 0 ≤ q := by
  cases r with
  | none =>
      simp only [outcomes, List.mem_cons, List.not_mem_nil, or_false] at houtcome
      rcases houtcome with rfl | rfl
      · exact ⟨0, rfl, le_rfl⟩
      · exact ⟨0, rfl, le_rfl⟩
  | some x =>
      obtain ⟨q, rfl, hq⟩ := hr x rfl
      simp only [outcomes, List.mem_cons, List.not_mem_nil, or_false] at houtcome
      by_cases hzero : q = 0
      · rcases houtcome with rfl | rfl
        · exact ⟨0, by simp [syncRateLimited, PyFloat.truthy, hzero], le_rfl⟩
        · exact ⟨0, by simp [adaptFetchOutcome, PyFloat.truthy, hzero, Option.filter], le_rfl⟩
      · rcases houtcome with rfl | rfl
        · exact ⟨q, by simp [syncRateLimited, PyFloat.truthy, hzero], hq⟩
        · exact ⟨q, by simp [adaptFetchOutcome, PyFloat.truthy, hzero, Option.filter], hq⟩

/-! ## Harmless headers -/

theorem harmless_iff_of_ok {u : UnicodeData} {value : Option (List Char)} {now : ℚ}
    {r : Option PyFloat} (hparse : parseRetryAfter u value now = .ok r) :
    Harmless u value now ↔ ∀ x ∈ r, ∃ q, x = .finite q ∧ 0 ≤ q := by
  constructor
  · rintro ⟨r', hparse', hfinite, -⟩
    obtain rfl := Except.ok.inj (hparse.symm.trans hparse')
    exact hfinite
  · intro hfinite
    refine ⟨r, hparse, hfinite, fun child outcome houtcome => ?_⟩
    obtain ⟨q, hq, hnonneg⟩ := exists_seconds_of_mem_outcomes hfinite houtcome
    exact admits_of_finite hq hnonneg

theorem maxZero_finite_iff {x : PyFloat} :
    (∃ q, maxZero x = .finite q ∧ 0 ≤ q) ↔ x ≠ .inf false := by
  cases x with
  | nan => exact ⟨fun _ => nofun, fun _ => ⟨0, rfl, le_rfl⟩⟩
  | inf negative =>
      cases negative with
      | true => exact ⟨fun _ => nofun, fun _ => ⟨0, rfl, le_rfl⟩⟩
      | false => exact ⟨nofun, fun h => absurd rfl h⟩
  | finite q => exact ⟨fun _ => nofun, fun _ => ⟨max 0 q, rfl, le_max_left _ _⟩⟩

theorem harmless_inf : ¬Harmless .ascii7 (some "inf".toList) 0 := by
  have hparse : parseRetryAfter .ascii7 (some "inf".toList) 0 = .ok (some (.inf false)) := rfl
  rw [harmless_iff_of_ok hparse]
  intro h
  obtain ⟨q, hq, -⟩ := h _ rfl
  cases hq

/-- A header is harmless unless it is the literal of an infinite float, or no literal of a
float but a date with numbers too large. -/
theorem harmless_iff (u : UnicodeData) (value : Option (List Char)) (now : ℚ) :
    Harmless u value now ↔ ∀ cs, value = some cs → cs ≠ [] →
      ¬ReadsInfinity u cs ∧ (pyFloat u cs = none → ¬DateOverflows u cs) := by
  have hnone : parseRetryAfter u value now = .ok none → Harmless u value now := by
    intro hparse
    rw [harmless_iff_of_ok hparse]
    exact nofun
  rcases value with - | (- | ⟨c, cs⟩)
  · exact iff_of_true (hnone rfl) nofun
  · refine iff_of_true (hnone rfl) fun cs hcs hne => absurd (Option.some.inj hcs).symm hne
  · simp only [Option.some.injEq, forall_eq', ne_eq, reduceCtorEq, not_false_iff, forall_const,
      ← pyFloat_eq_inf_iff, ← parsedateToDatetime_eq_overflowError_iff]
    cases hfloat : pyFloat u (c :: cs) with
    | some x =>
        have hparse : parseRetryAfter u (some (c :: cs)) now = .ok (some (maxZero x)) := by
          simp only [parseRetryAfter, hfloat]
        rw [harmless_iff_of_ok hparse]
        simp [maxZero_finite_iff]
    | none =>
        cases hdate : parsedateToDatetime u (c :: cs) with
        | ok date =>
            have hparse : parseRetryAfter u (some (c :: cs)) now =
                .ok (some (.finite (max 0 (timestamp date.1 date.2 - now)))) := by
              simp only [parseRetryAfter, hfloat, hdate]
            rw [harmless_iff_of_ok hparse]
            simp
        | error e =>
            cases e with
            | valueError =>
                refine iff_of_true (hnone ?_) ⟨nofun, fun _ => nofun⟩
                simp only [parseRetryAfter, hfloat, hdate]
            | overflowError =>
                refine iff_of_false ?_ fun h => h.2 rfl rfl
                rintro ⟨r, hparse, -⟩
                simp only [parseRetryAfter, hfloat, hdate, reduceCtorEq] at hparse

end RerollSync.Client
