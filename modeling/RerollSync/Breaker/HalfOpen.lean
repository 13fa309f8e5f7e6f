import RerollSync.Breaker.CircuitBreaker
import RerollSync.Support.Machine

/-!
# The half-open trial

Any number of callers share a breaker.  A call is admitted by `allow` and reports
once at most, at any later time; a report carries no identity, so the breaker
cannot tell the trial's report from that of a call admitted before it opened.
-/

namespace RerollSync.Breaker

open RerollSync.Support

/-- A breaker and its callers: the admitted calls that have not reported, and the
one of them that was admitted as the half-open trial. -/
structure Callers where
  breaker : CircuitBreaker
  calls : ℕ
  outstanding : List ℕ
  trial : Option ℕ
deriving DecidableEq

inductive CallerEvent
  | allow (now : ℚ)
  | report (call : ℕ) (r : CircuitBreaker.Report)
deriving DecidableEq

namespace Callers

/-- A new breaker without callers. -/
def create (failureThreshold : ℤ) (recoveryTimeout : ℚ) : Callers :=
  ⟨.create failureThreshold recoveryTimeout, 0, [], none⟩

/-- The call that `allow` admits. -/
def grant (s : Callers) (b : CircuitBreaker) : Callers where
  breaker := b
  calls := s.calls + 1
  outstanding := s.calls :: s.outstanding
  trial := if b.state = .halfOpen then some s.calls else s.trial

/-- The call reports. -/
def settle (s : Callers) (call : ℕ) (r : CircuitBreaker.Report) : Callers where
  breaker := s.breaker.report r
  calls := s.calls
  outstanding := s.outstanding.erase call
  trial := if s.trial = some call then none else s.trial

/-- A new caller calls `allow`. -/
def ask (s : Callers) (now : ℚ) : Callers :=
  if (s.breaker.allow now).1 then s.grant (s.breaker.allow now).2
  else { s with breaker := (s.breaker.allow now).2 }

def step (s : Callers) : CallerEvent → Option Callers
  | .allow now => some (s.ask now)
  | .report call r => if call ∈ s.outstanding then some (s.settle call r) else none

def machine : Machine Callers CallerEvent := ⟨step⟩

/-- While a trial has not reported, no other call is admitted, and the report of
another call leaves the trial its slot. -/
def OneTrial (s : Callers) : CallerEvent → Prop
  | .allow now => s.trial.isSome → (s.breaker.allow now).1 = false
  | .report call r =>
      s.trial.isSome → s.trial ≠ some call → (s.breaker.report r).halfOpenTrialInFlight = true

/-- While a trial has not reported, no other call reports. -/
def TrialReportsFirst (s : Callers) : CallerEvent → Prop
  | .allow _ => True
  | .report call _ => s.trial.isSome → s.trial = some call

instance (s : Callers) (e : CallerEvent) : Decidable (OneTrial s e) :=
  match e with
  | .allow now => inferInstanceAs (Decidable (s.trial.isSome → (s.breaker.allow now).1 = false))
  | .report call r => inferInstanceAs (Decidable (s.trial.isSome → s.trial ≠ some call →
      (s.breaker.report r).halfOpenTrialInFlight = true))

instance (s : Callers) (e : CallerEvent) : Decidable (TrialReportsFirst s e) :=
  match e with
  | .allow _ => isTrue trivial
  | .report call _ => inferInstanceAs (Decidable (s.trial.isSome → s.trial = some call))

/-- A trial that has not reported has its slot. -/
def SlotHeld (s : Callers) : Prop := s.trial.isSome → s.breaker.halfOpenTrialInFlight = true

variable {s s' : Callers} {e : CallerEvent}

theorem SlotHeld.step (h : s.SlotHeld) (hfirst : s.TrialReportsFirst e)
    (hstep : s.step e = some s') : s'.SlotHeld := by
  cases e with
  | allow now =>
      have hask : s' = s.ask now := (Option.some.inj hstep).symm
      rw [hask, ask]
      rcases s.breaker.allow_cases now with hrefused | ⟨hclosed, hadmitted⟩ | ⟨-, hadmitted⟩
      · rw [hrefused]
        exact h
      · rw [hadmitted]
        intro htrial
        have hnot : s.breaker.state ≠ .halfOpen := by simp [hclosed]
        exact h (by simpa [grant, hnot] using htrial)
      · rw [hadmitted]
        intro _
        rfl
  | report call r =>
      obtain ⟨-, hsettle⟩ := Option.ite_none_right_eq_some.mp hstep
      obtain rfl := Option.some.inj hsettle
      intro htrial
      have hnone : (s.settle call r).trial = none := by
        by_cases hsome : s.trial.isSome
        · exact if_pos (hfirst hsome)
        · have htrial : s.trial = none := by simpa using hsome
          simp [settle, htrial]
      simp [hnone] at htrial

theorem SlotHeld.oneTrial_iff (h : s.SlotHeld) : s.OneTrial e ↔ s.TrialReportsFirst e := by
  cases e with
  | allow now =>
      refine iff_of_true (fun htrial => ?_) trivial
      rw [CircuitBreaker.allow_of_trial (h htrial)]
  | report call r =>
      refine forall_congr' fun htrial => ?_
      rw [CircuitBreaker.trial_report]
      simp

/-- In every run of a breaker and its callers, there is one half-open trial at a time
exactly when no call reports while the trial of another has not. -/
theorem oneTrial_throughout_iff (failureThreshold : ℤ) (recoveryTimeout : ℚ) {t : Callers}
    {l : List CallerEvent}
    (hrun : machine.run (create failureThreshold recoveryTimeout) l = some t) :
    machine.Along OneTrial (create failureThreshold recoveryTimeout) l ↔
      machine.Along TrialReportsFirst (create failureThreshold recoveryTimeout) l := by
  refine Machine.along_iff_of_invariant (P := SlotHeld) ?_ (fun s e _ hs _ => hs.oneTrial_iff)
    (fun h => by simp [create] at h) hrun
  intro s e s' hs hone hstep
  exact hs.step (hs.oneTrial_iff.mp hone) hstep

/-- A failure opens a breaker with threshold one, and the trial that follows closes it. -/
def recovery : List CallerEvent :=
  [.allow 0, .report 0 (.failure 0), .allow 60, .allow 61, .report 1 .success]

theorem oneTrial_recovery :
    (machine.run (create 1 60) recovery).map (fun t => t.breaker.state) = some .closed ∧
      machine.Along OneTrial (create 1 60) recovery := by
  have hcompute : (machine.run (create 1 60) recovery).map (fun t => t.breaker.state) =
      some .closed := by decide +kernel
  obtain ⟨t, hrun, -⟩ := Option.map_eq_some_iff.mp hcompute
  exact ⟨hcompute, (oneTrial_throughout_iff 1 60 hrun).mpr (by decide +kernel)⟩

/-- Two calls are admitted and the first one's failure opens the breaker.  The second
one fails late, under the trial: the breaker opens again and admits another trial
before the first has reported. -/
theorem late_failure_grants_second_trial :
    (machine.run (create 1 60)
        [.allow 0, .allow 0, .report 0 (.failure 0), .allow 60, .report 1 (.failure 61),
          .allow 121]).map (fun t => (t.trial, t.outstanding)) = some (some 3, [3, 2]) ∧
      ¬machine.Along OneTrial (create 1 60)
        [.allow 0, .allow 0, .report 0 (.failure 0), .allow 60, .report 1 (.failure 61),
          .allow 121] := by
  decide +kernel

end Callers

end RerollSync.Breaker
