import Mathlib.Algebra.Order.Ring.Rat

/-!
# Circuit breaker

The breaker of `circuit_breaker.py` over exact rational time.  A method that
reads the clock takes the reading as an argument.  The lock makes every method
one step.
-/

namespace RerollSync.Breaker

/-- `CircuitState`. -/
inductive CircuitState
  | closed
  | opened
  | halfOpen
deriving DecidableEq, Repr

/-- The fields of `CircuitBreaker`.  An open breaker has a time at which it opened,
as `_recovery_due_locked` asserts, and only a half-open one has a trial. -/
structure CircuitBreaker where
  failureThreshold : ℤ
  recoveryTimeout : ℚ
  state : CircuitState
  consecutiveFailures : ℕ
  openedAt : Option ℚ
  halfOpenTrialInFlight : Bool
  openedAt_isSome : state = .opened → openedAt.isSome = true
  halfOpen_of_trial : halfOpenTrialInFlight = true → state = .halfOpen
deriving DecidableEq

namespace CircuitBreaker

/-- `CircuitBreaker.__init__`. -/
def create (failureThreshold : ℤ) (recoveryTimeout : ℚ) : CircuitBreaker where
  failureThreshold := failureThreshold
  recoveryTimeout := recoveryTimeout
  state := .closed
  consecutiveFailures := 0
  openedAt := none
  halfOpenTrialInFlight := false
  openedAt_isSome h := by cases h
  halfOpen_of_trial h := by cases h

/-- `_recovery_due_locked`. -/
def recoveryDueLocked (b : CircuitBreaker) (h : b.state = .opened) (now : ℚ) : Bool :=
  b.recoveryTimeout ≤ now - b.openedAt.get (b.openedAt_isSome h)

/-- A breaker that has just granted its half-open trial. -/
def grantTrial (b : CircuitBreaker) : CircuitBreaker :=
  { b with
    state := .halfOpen
    halfOpenTrialInFlight := true
    openedAt_isSome := fun h => by cases h
    halfOpen_of_trial := fun _ => rfl }

/-- `allow`. -/
def allow (b : CircuitBreaker) (now : ℚ) : Bool × CircuitBreaker :=
  match h : b.state with
  | .closed => (true, b)
  | .opened => if b.recoveryDueLocked h now then (true, b.grantTrial) else (false, b)
  | .halfOpen => if b.halfOpenTrialInFlight then (false, b) else (true, b.grantTrial)

/-- `record_success`. -/
def recordSuccess (b : CircuitBreaker) : CircuitBreaker :=
  create b.failureThreshold b.recoveryTimeout

/-- `record_failure`. -/
def recordFailure (b : CircuitBreaker) (now : ℚ) : CircuitBreaker :=
  if b.state = .halfOpen ∨ b.failureThreshold ≤ b.consecutiveFailures + 1 then
    { b with
      consecutiveFailures := b.consecutiveFailures + 1
      state := .opened
      openedAt := some now
      halfOpenTrialInFlight := false
      openedAt_isSome := fun _ => rfl
      halfOpen_of_trial := fun h => by cases h }
  else
    { b with consecutiveFailures := b.consecutiveFailures + 1 }

/-- `_release_trial`: outside `HALF_OPEN` no trial is in flight. -/
def releaseTrial (b : CircuitBreaker) : CircuitBreaker :=
  { b with
    halfOpenTrialInFlight := false
    halfOpen_of_trial := fun h => by cases h }

/-- How an admitted call ends: the caller records a result, or `call` lets an
exempt exception through. -/
inductive Report
  | success
  | failure (now : ℚ)
  | exempt
deriving DecidableEq

def report (b : CircuitBreaker) : Report → CircuitBreaker
  | .success => b.recordSuccess
  | .failure now => b.recordFailure now
  | .exempt => b.releaseTrial

/-! ## What the methods do to the trial -/

theorem allow_of_trial {b : CircuitBreaker} (h : b.halfOpenTrialInFlight = true) (now : ℚ) :
    b.allow now = (false, b) := by
  have hstate := b.halfOpen_of_trial h
  unfold allow
  split
  · next hclosed => simp [hclosed] at hstate
  · next hopened => simp [hopened] at hstate
  · rw [if_pos h]

/-- A call is refused and nothing changes, or it is admitted while the breaker is
closed, or it is admitted as the trial. -/
theorem allow_cases (b : CircuitBreaker) (now : ℚ) :
    b.allow now = (false, b) ∨ (b.state = .closed ∧ b.allow now = (true, b)) ∨
      (b.halfOpenTrialInFlight = false ∧ b.allow now = (true, b.grantTrial)) := by
  by_cases htrial : b.halfOpenTrialInFlight = true
  · exact Or.inl (allow_of_trial htrial now)
  · have htrial : b.halfOpenTrialInFlight = false := by simpa using htrial
    unfold allow
    split
    · next hclosed => exact Or.inr (Or.inl ⟨hclosed, rfl⟩)
    · split
      · exact Or.inr (Or.inr ⟨htrial, rfl⟩)
      · exact Or.inl rfl
    · rw [if_neg (by simp [htrial])]
      exact Or.inr (Or.inr ⟨htrial, rfl⟩)

theorem trial_recordSuccess (b : CircuitBreaker) :
    b.recordSuccess.halfOpenTrialInFlight = false := rfl

theorem trial_recordFailure (b : CircuitBreaker) (now : ℚ) :
    (b.recordFailure now).halfOpenTrialInFlight = false := by
  unfold recordFailure
  split
  · rfl
  · next hnot =>
      by_contra htrial
      exact hnot (Or.inl (b.halfOpen_of_trial (by simpa using htrial)))

/-- Every report, whoever makes it, frees the trial's slot. -/
theorem trial_report (b : CircuitBreaker) (r : Report) :
    (b.report r).halfOpenTrialInFlight = false := by
  cases r with
  | success => exact b.trial_recordSuccess
  | failure now => exact b.trial_recordFailure now
  | exempt => rfl

end CircuitBreaker

end RerollSync.Breaker
