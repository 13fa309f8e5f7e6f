import RerollSync.Breaker.CircuitBreaker
import Mathlib.Data.List.Basic
import Mathlib.Order.Monotone.Basic
import Mathlib.Tactic.Linarith
import Mathlib.Tactic.NormNum

/-!
# The breaker as a function of its calls

Calls of `CircuitBreaker.call` that do not overlap, and what their history says: how
many failures there have been since the last success, and when the last one was.  The
breaker lets a call through exactly when the history does, so its state, its counter,
its opening time and its trial flag say no more than the history.
-/

namespace RerollSync.Breaker

/-- One call of `CircuitBreaker.call`: when it asks, and how the function ends if the
breaker lets it run.  A failure comes with the time at which it is recorded. -/
structure Invocation where
  asked : ℚ
  ends : CircuitBreaker.Report
deriving DecidableEq

/-- The last reading of the clock that a call may make. -/
def Invocation.until (c : Invocation) : ℚ :=
  match c.ends with
  | .failure now => now
  | _ => c.asked

/-- The calls come one after the other, from reading `now` on, and the clock does not go
back. -/
def InOrder : ℚ → List Invocation → Prop
  | _, [] => True
  | now, c :: calls => now ≤ c.asked ∧ c.asked ≤ c.until ∧ InOrder c.until calls

/-- The last reading made by calls that begin at reading `now`. -/
def lastReading (now : ℚ) (calls : List Invocation) : ℚ :=
  calls.foldl (fun _ c => c.until) now

/-! ## What a history says

A history is the results of the calls that were let through, newest first. -/

/-- The failures since the last success. -/
def streak : List CircuitBreaker.Report → ℕ
  | [] => 0
  | .success :: _ => 0
  | .failure _ :: history => streak history + 1
  | .exempt :: history => streak history

/-- The time of the last failure since the last success. -/
def lastFailure : List CircuitBreaker.Report → Option ℚ
  | [] => none
  | .success :: _ => none
  | .failure now :: _ => some now
  | .exempt :: history => lastFailure history

/-- The history lets a call through: there are too few failures, or the last one is long
enough ago. -/
def Lets (failureThreshold : ℤ) (recoveryTimeout : ℚ) (history : List CircuitBreaker.Report)
    (now : ℚ) : Prop :=
  streak history < failureThreshold ∨ ∃ t ∈ lastFailure history, t + recoveryTimeout ≤ now

instance (failureThreshold : ℤ) (recoveryTimeout : ℚ) (history : List CircuitBreaker.Report)
    (now : ℚ) : Decidable (Lets failureThreshold recoveryTimeout history now) :=
  inferInstanceAs (Decidable (_ ∨ _))

/-- Whether each call is let through, and the history after them. -/
def judged (failureThreshold : ℤ) (recoveryTimeout : ℚ) :
    List CircuitBreaker.Report → List Invocation → List Bool × List CircuitBreaker.Report
  | history, [] => ([], history)
  | history, c :: calls =>
      if Lets failureThreshold recoveryTimeout history c.asked then
        let rest := judged failureThreshold recoveryTimeout (c.ends :: history) calls
        (true :: rest.1, rest.2)
      else
        let rest := judged failureThreshold recoveryTimeout history calls
        (false :: rest.1, rest.2)

namespace CircuitBreaker

/-- `call`: whether the function ran, and the breaker its end leaves. -/
def call (b : CircuitBreaker) (c : Invocation) : Bool × CircuitBreaker :=
  match b.allow c.asked with
  | (false, b) => (false, b)
  | (true, b) => (true, b.report c.ends)

/-- Calls one after the other. -/
def calls : CircuitBreaker → List Invocation → List Bool × CircuitBreaker
  | b, [] => ([], b)
  | b, c :: rest =>
      let (ran, b) := b.call c
      let (answers, b) := b.calls rest
      (ran :: answers, b)

/-- What a call at reading `now` finds when it is let through as a trial. -/
structure Trial (b : CircuitBreaker) (now : ℚ) : Prop where
  runs : (b.allow now).1 = true
  inFlight : (b.allow now).2.halfOpenTrialInFlight = true
  /-- A success closes the breaker. -/
  success : (b.call ⟨now, .success⟩).2.state = .closed
  /-- A failure opens it anew, and the recovery is counted from it. -/
  failure : ∀ ended, now ≤ ended → ∀ later, ended ≤ later →
    ((b.call ⟨now, .failure ended⟩).2.allow later).1 = decide (ended + b.recoveryTimeout ≤ later)
  /-- After an exempt exception the next call is let through. -/
  exempt : ∀ later, now ≤ later → ((b.call ⟨now, .exempt⟩).2.allow later).1 = true

/-- What the history says of the breaker from reading `now` on. -/
structure Explained (b : CircuitBreaker) (history : List Report) (now : ℚ) : Prop where
  failures : b.consecutiveFailures = streak history
  closed_iff : b.state = .closed ↔ streak history < b.failureThreshold
  lets : ∀ later, now ≤ later →
    ((b.allow later).1 = true ↔ Lets b.failureThreshold b.recoveryTimeout history later)
  /-- With as many failures as the threshold, a call is refused until the recovery
  timeout has passed since the last of them, and is a trial from then on. -/
  recovery : b.failureThreshold ≤ streak history → ∃ t, lastFailure history = some t ∧
    ∀ later, now ≤ later → (later < t + b.recoveryTimeout → (b.allow later).1 = false) ∧
      (t + b.recoveryTimeout ≤ later → b.Trial later)
  admits : ∃ later, now ≤ later ∧ (b.allow later).1 = true

/-! ## What every call keeps -/

/-- A breaker between calls, with what its history says of each of its fields.  After a
trial that ended in an exempt exception it is half-open without a trial, later than the
recovery of the last failure. -/
structure Agrees (b : CircuitBreaker) (history : List Report) (now : ℚ) : Prop where
  threshold_pos : 1 ≤ b.failureThreshold
  failures : b.consecutiveFailures = streak history
  trial : b.halfOpenTrialInFlight = false
  closed_iff : b.state = .closed ↔ streak history < b.failureThreshold
  opened : b.state ≠ .closed → ∃ t, b.openedAt = some t ∧ lastFailure history = some t
  halfOpen : b.state = .halfOpen → ∀ t ∈ lastFailure history, t + b.recoveryTimeout ≤ now

theorem agrees_create {failureThreshold : ℤ} (h : 1 ≤ failureThreshold) (recoveryTimeout now : ℚ) :
    (create failureThreshold recoveryTimeout).Agrees [] now where
  threshold_pos := h
  failures := rfl
  trial := rfl
  closed_iff := by
    simp only [create, streak, true_iff]
    omega
  opened hstate := (hstate rfl).elim
  halfOpen hstate := by cases hstate

namespace Agrees

variable {b : CircuitBreaker} {history : List Report} {now : ℚ}

theorem mono (h : b.Agrees history now) {later : ℚ} (hle : now ≤ later) :
    b.Agrees history later where
  threshold_pos := h.threshold_pos
  failures := h.failures
  trial := h.trial
  closed_iff := h.closed_iff
  opened := h.opened
  halfOpen hstate t ht := le_trans (h.halfOpen hstate t ht) hle

/-- A breaker that is not closed lets a call through exactly from the recovery of the
last failure on, as a trial. -/
theorem allow_of_not_closed (h : b.Agrees history now) (hstate : b.state ≠ .closed) {t : ℚ}
    (ht : lastFailure history = some t) {later : ℚ} (hlater : now ≤ later) :
    (t + b.recoveryTimeout ≤ later ∧ b.allow later = (true, b.grantTrial)) ∨
      (later < t + b.recoveryTimeout ∧ b.allow later = (false, b)) := by
  obtain ⟨t', hopened, ht'⟩ := h.opened hstate
  obtain rfl : t' = t := Option.some.inj (ht'.symm.trans ht)
  unfold allow
  split
  next hclosed => exact (hstate hclosed).elim
  next hopen =>
    have hdue : b.recoveryDueLocked hopen later = decide (b.recoveryTimeout ≤ later - t') := by
      simp only [recoveryDueLocked, hopened, Option.get_some]
    rw [hdue]
    by_cases hle : b.recoveryTimeout ≤ later - t'
    · exact Or.inl ⟨by linarith, if_pos (decide_eq_true hle)⟩
    · exact Or.inr ⟨by linarith, if_neg (by simpa using hle)⟩
  next hhalf =>
    have hrecovered := h.halfOpen hhalf t' ht
    exact Or.inl ⟨hrecovered.trans hlater, if_neg (by simp [h.trial])⟩

/-- The breaker lets a call through exactly when the history does: it is closed, or the
call is the trial. -/
theorem allow_cases (h : b.Agrees history now) {later : ℚ} (hlater : now ≤ later) :
    (Lets b.failureThreshold b.recoveryTimeout history later ∧
      (b.state = .closed ∧ b.allow later = (true, b) ∨
        b.state ≠ .closed ∧ b.allow later = (true, b.grantTrial))) ∨
      (¬Lets b.failureThreshold b.recoveryTimeout history later ∧
        b.allow later = (false, b)) := by
  by_cases hstate : b.state = .closed
  · refine Or.inl ⟨Or.inl (h.closed_iff.mp hstate), Or.inl ⟨hstate, ?_⟩⟩
    rcases b.allow_cases later with hrefused | ⟨-, hallow⟩ | ⟨-, hallow⟩
    · unfold allow at hrefused
      split at hrefused
      · cases hrefused
      · simp_all
      · simp_all
    · exact hallow
    · unfold allow at hallow ⊢
      split
      · rfl
      · simp_all
      · simp_all
  · obtain ⟨t, -, ht⟩ := h.opened hstate
    rcases h.allow_of_not_closed hstate ht hlater with ⟨hdue, hallow⟩ | ⟨hearly, hallow⟩
    · exact Or.inl ⟨Or.inr ⟨t, ht, hdue⟩, Or.inr ⟨hstate, hallow⟩⟩
    · refine Or.inr ⟨?_, hallow⟩
      rintro (hfew | ⟨t', ht', hdue⟩)
      · exact hstate (h.closed_iff.mpr hfew)
      · obtain rfl : t' = t := Option.some.inj (ht'.symm.trans ht)
        exact absurd hdue (not_le.mpr hearly)

/-- A success leaves a new breaker. -/
theorem recordSuccess (h : b.Agrees history now) (later : ℚ) :
    b.recordSuccess.Agrees (.success :: history) later :=
  { agrees_create h.threshold_pos b.recoveryTimeout later with
    opened := fun hstate => (hstate rfl).elim }

/-- The end of a call that the breaker had let through while it was closed. -/
theorem report_of_closed (h : b.Agrees history now) (hstate : b.state = .closed) {ends : Report}
    {later : ℚ} : (b.report ends).Agrees (ends :: history) later := by
  have hfew := h.closed_iff.mp hstate
  cases ends with
  | success => exact h.recordSuccess later
  | failure ended =>
      rw [report, recordFailure]
      split
      next hopens =>
        have hmany : b.failureThreshold ≤ b.consecutiveFailures + 1 := by
          simpa [hstate] using hopens
        refine ⟨h.threshold_pos, by simp [streak, h.failures], rfl, ?_, fun _ => ⟨ended, rfl, rfl⟩,
          fun hhalf => by cases hhalf⟩
        rw [h.failures] at hmany
        simp only [reduceCtorEq, false_iff, streak]
        omega
      next hstays =>
        rw [not_or, not_le] at hstays
        refine ⟨h.threshold_pos, by simp [streak, h.failures], h.trial, ?_,
          fun hopen => (hopen hstate).elim, fun hhalf => by simp [hstate] at hhalf⟩
        have hfew' := hstays.2
        rw [h.failures] at hfew'
        simp only [hstate, true_iff, streak]
        omega
  | exempt =>
      exact ⟨h.threshold_pos, h.failures, rfl, h.closed_iff, fun hopen => (hopen hstate).elim,
        fun hhalf => by simp [report, releaseTrial, hstate] at hhalf⟩

/-- The end of a trial. -/
theorem report_of_trial (h : b.Agrees history now) (hstate : b.state ≠ .closed) {t later : ℚ}
    (ht : lastFailure history = some t) (hdue : t + b.recoveryTimeout ≤ later) {ends : Report} :
    (b.grantTrial.report ends).Agrees (ends :: history) later := by
  have hmany : ¬(streak history : ℤ) < b.failureThreshold := fun hfew =>
    hstate (h.closed_iff.mpr hfew)
  cases ends with
  | success => exact h.recordSuccess later
  | failure ended =>
      rw [report, CircuitBreaker.recordFailure]
      split
      next =>
        refine ⟨h.threshold_pos, by simp [streak, grantTrial, h.failures], rfl, ?_,
          fun _ => ⟨ended, rfl, rfl⟩, fun hhalf => by cases hhalf⟩
        simp only [reduceCtorEq, false_iff, streak, grantTrial]
        omega
      next hstays => exact (hstays (Or.inl rfl)).elim
  | exempt =>
      obtain ⟨t', hopened, ht'⟩ := h.opened hstate
      refine ⟨h.threshold_pos, h.failures, rfl, ?_, fun _ => ⟨t', hopened, ht'⟩,
        fun _ t'' ht'' => ?_⟩
      · simpa [report, releaseTrial, grantTrial, streak] using hmany
      · obtain rfl : t'' = t := Option.some.inj (Eq.trans (Eq.symm ht'') ht)
        exact hdue

/-- A call that is let through is added to the history, and one that is refused changes
nothing. -/
theorem call (h : b.Agrees history now) {c : Invocation} (hasked : now ≤ c.asked)
    (huntil : c.asked ≤ c.until) :
    (Lets b.failureThreshold b.recoveryTimeout history c.asked ∧ (b.call c).1 = true ∧
      (b.call c).2.Agrees (c.ends :: history) c.until) ∨
    (¬Lets b.failureThreshold b.recoveryTimeout history c.asked ∧ b.call c = (false, b)) := by
  rcases h.allow_cases hasked with ⟨hlets, ⟨hstate, hallow⟩ | ⟨hstate, hallow⟩⟩ | ⟨hnot, hallow⟩
  · refine Or.inl ⟨hlets, by simp [CircuitBreaker.call, hallow], ?_⟩
    simpa [CircuitBreaker.call, hallow] using h.report_of_closed hstate
  · refine Or.inl ⟨hlets, by simp [CircuitBreaker.call, hallow], ?_⟩
    obtain ⟨t, -, ht⟩ := h.opened hstate
    have hdue : t + b.recoveryTimeout ≤ c.asked := by
      rcases h.allow_of_not_closed hstate ht hasked with ⟨hdue, -⟩ | ⟨-, hrefused⟩
      · exact hdue
      · simp [hallow] at hrefused
    simpa [CircuitBreaker.call, hallow] using h.report_of_trial hstate ht (hdue.trans huntil)
  · exact Or.inr ⟨hnot, by simp [CircuitBreaker.call, hallow]⟩

end Agrees

/-! ## Any number of calls -/

theorem settings_report (b : CircuitBreaker) (r : Report) :
    (b.report r).failureThreshold = b.failureThreshold ∧
      (b.report r).recoveryTimeout = b.recoveryTimeout := by
  cases r with
  | success => exact ⟨rfl, rfl⟩
  | failure now =>
      rw [report, recordFailure]
      split <;> exact ⟨rfl, rfl⟩
  | exempt => exact ⟨rfl, rfl⟩

theorem settings_call (b : CircuitBreaker) (c : Invocation) :
    (b.call c).2.failureThreshold = b.failureThreshold ∧
      (b.call c).2.recoveryTimeout = b.recoveryTimeout := by
  rcases b.allow_cases c.asked with hallow | ⟨-, hallow⟩ | ⟨-, hallow⟩
  · rw [CircuitBreaker.call, hallow]
    exact ⟨rfl, rfl⟩
  · rw [CircuitBreaker.call, hallow]
    exact b.settings_report c.ends
  · rw [CircuitBreaker.call, hallow]
    exact b.grantTrial.settings_report c.ends

/-- After a trial that has not closed the breaker, the next call is a trial once the last
failure is long enough ago. -/
theorem Agrees.allow_after_trial {b : CircuitBreaker} {history : List Report} {now t t' later : ℚ}
    (h : b.Agrees history now) (hstate : b.state ≠ .closed) (ht : lastFailure history = some t)
    (hdue : t + b.recoveryTimeout ≤ later) {ends : Report} (hends : ends ≠ .success)
    (ht' : lastFailure (ends :: history) = some t') {again : ℚ} (hagain : later ≤ again) :
    ((b.grantTrial.report ends).allow again).1 = decide (t' + b.recoveryTimeout ≤ again) := by
  have hafter : (b.grantTrial.report ends).Agrees (ends :: history) later :=
    h.report_of_trial hstate ht hdue
  obtain ⟨hthreshold, htimeout⟩ := b.grantTrial.settings_report ends
  have hstate' : (b.grantTrial.report ends).state ≠ .closed := by
    rw [Ne, hafter.closed_iff, hthreshold]
    have hmany := mt h.closed_iff.mpr hstate
    cases ends with
    | success => exact (hends rfl).elim
    | failure ended =>
        simp only [streak, grantTrial]
        omega
    | exempt => exact hmany
  rcases hafter.allow_of_not_closed hstate' ht' hagain with ⟨hdue', hallow⟩ | ⟨hearly, hallow⟩
  · rw [htimeout] at hdue'
    rw [hallow]
    exact (decide_eq_true hdue').symm
  · rw [htimeout] at hearly
    rw [hallow]
    exact (decide_eq_false (not_le.mpr hearly)).symm

/-- The calls are let through as the history says, and the breaker they leave agrees with
the history they leave. -/
theorem Agrees.calls {b : CircuitBreaker} {history : List Report} {now : ℚ}
    (h : b.Agrees history now) {cs : List Invocation} (horder : InOrder now cs) :
    (b.calls cs).1 = (judged b.failureThreshold b.recoveryTimeout history cs).1 ∧
      (b.calls cs).2.Agrees (judged b.failureThreshold b.recoveryTimeout history cs).2
        (lastReading now cs) ∧
      (b.calls cs).2.failureThreshold = b.failureThreshold ∧
      (b.calls cs).2.recoveryTimeout = b.recoveryTimeout := by
  induction cs generalizing b history now with
  | nil => exact ⟨rfl, h, rfl, rfl⟩
  | cons c cs ih =>
      obtain ⟨hasked, huntil, horder⟩ := horder
      obtain ⟨hthreshold, htimeout⟩ := b.settings_call c
      rcases h.call hasked huntil with ⟨hlets, hran, hagrees⟩ | ⟨hnot, hcall⟩
      · obtain ⟨hanswers, hlast, hsettings⟩ := ih hagrees horder
        rw [hthreshold, htimeout] at hanswers hlast hsettings
        simp only [CircuitBreaker.calls, judged, if_pos hlets, hran, hanswers, true_and]
        exact ⟨hlast, hsettings⟩
      · have hstill := h.mono (hasked.trans huntil)
        obtain ⟨hanswers, hlast, hsettings⟩ := ih hstill horder
        simp only [CircuitBreaker.calls, judged, if_neg hnot, hcall, hanswers, true_and]
        exact ⟨hlast, hsettings⟩

/-- A breaker that agrees with its history is explained by it. -/
theorem Agrees.explained {b : CircuitBreaker} {history : List Report} {now : ℚ}
    (h : b.Agrees history now) : b.Explained history now where
  failures := h.failures
  closed_iff := h.closed_iff
  lets later hlater := by
    rcases h.allow_cases hlater with ⟨hlets, ⟨-, hallow⟩ | ⟨-, hallow⟩⟩ | ⟨hnot, hallow⟩
    · simp [hallow, hlets]
    · simp [hallow, hlets]
    · simp [hallow, hnot]
  recovery hmany := by
    have hstate : b.state ≠ .closed := fun hclosed => absurd (h.closed_iff.mp hclosed) (by omega)
    obtain ⟨t, -, ht⟩ := h.opened hstate
    refine ⟨t, ht, fun later hlater => ?_⟩
    rcases h.allow_of_not_closed hstate ht hlater with ⟨hdue, hallow⟩ | ⟨hearly, hallow⟩
    · refine ⟨fun hearly => absurd hdue (not_le.mpr hearly), fun _ => ?_⟩
      exact
        { runs := by rw [hallow]
          inFlight := by rw [hallow]; rfl
          success := by
            rw [CircuitBreaker.call, hallow]
            rfl
          failure := fun ended hended again hagain => by
            rw [CircuitBreaker.call, hallow]
            have hends : Report.failure ended ≠ .success := by simp
            exact h.allow_after_trial hstate ht (hdue.trans hended) hends rfl hagain
          exempt := fun again hagain => by
            rw [CircuitBreaker.call, hallow]
            have hends : Report.exempt ≠ .success := by simp
            have hsame : lastFailure (.exempt :: history) = some t := ht
            rw [h.allow_after_trial hstate ht hdue hends hsame hagain]
            exact decide_eq_true (hdue.trans hagain) }
    · exact ⟨fun _ => by rw [hallow], fun hdue => absurd hdue (not_le.mpr hearly)⟩
  admits := by
    by_cases hfew : (streak history : ℤ) < b.failureThreshold
    · refine ⟨now, le_refl now, ?_⟩
      rcases h.allow_cases (le_refl now) with ⟨-, ⟨-, hallow⟩ | ⟨-, hallow⟩⟩ | ⟨hnot, -⟩
      · rw [hallow]
      · rw [hallow]
      · exact (hnot (Or.inl hfew)).elim
    · have hstate := mt h.closed_iff.mp hfew
      obtain ⟨t, -, ht⟩ := h.opened hstate
      refine ⟨max now (t + b.recoveryTimeout), le_max_left _ _, ?_⟩
      rcases h.allow_of_not_closed hstate ht (le_max_left now (t + b.recoveryTimeout)) with
        ⟨-, hallow⟩ | ⟨hearly, -⟩
      · rw [hallow]
      · exact absurd (le_max_right _ _) (not_le.mpr hearly)

/-- The breaker is a function of its calls: calls that come one after the other are let
through as their history says, and at the end the history says what state the breaker
is in and which calls it lets through. -/
theorem explained_calls {failureThreshold : ℤ} (hthreshold : 1 ≤ failureThreshold)
    (recoveryTimeout : ℚ) {now : ℚ} {cs : List Invocation} (horder : InOrder now cs) :
    ((create failureThreshold recoveryTimeout).calls cs).1 =
        (judged failureThreshold recoveryTimeout [] cs).1 ∧
      ((create failureThreshold recoveryTimeout).calls cs).2.failureThreshold =
        failureThreshold ∧
      ((create failureThreshold recoveryTimeout).calls cs).2.recoveryTimeout =
        recoveryTimeout ∧
      ((create failureThreshold recoveryTimeout).calls cs).2.Explained
        (judged failureThreshold recoveryTimeout [] cs).2 (lastReading now cs) := by
  obtain ⟨hanswers, hagrees, hsettings⟩ :=
    (agrees_create hthreshold recoveryTimeout now).calls horder
  exact ⟨hanswers, hsettings.1, hsettings.2, hagrees.explained⟩

/-- Two failures open the breaker, a trial ends in an exempt exception, and the next call
closes it. -/
def retriedTrial : List Invocation :=
  [⟨0, .failure 1⟩, ⟨2, .failure 3⟩, ⟨5, .success⟩, ⟨13, .exempt⟩, ⟨14, .success⟩]

theorem explained_retriedTrial : ((create 2 10).calls retriedTrial).1 =
      [true, true, false, true, true] ∧
    ((create 2 10).calls retriedTrial).2.Explained (judged 2 10 [] retriedTrial).2 14 :=
  have horder : InOrder 0 retriedTrial := by norm_num [InOrder, retriedTrial, Invocation.until]
  ⟨by decide +kernel, (explained_calls (by decide) 10 horder).2.2.2⟩

end CircuitBreaker

end RerollSync.Breaker
