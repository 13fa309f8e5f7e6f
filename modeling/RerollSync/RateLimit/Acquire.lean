import RerollSync.Support.Machine
import RerollSync.RateLimit.Hierarchical

/-!
# Callers of a hierarchical limiter

`HierarchicalLimiter.acquire` as a state machine over the limiter and the
callers blocked inside it.  The lock makes every pass of the loop atomic, so an
event is one pass: the first pass of a new call, or a later pass of a blocked
caller whose `Condition.wait` returned.  `penalize` and `snapshot` run between
passes.  The clock is any sequence of readings; `ticks` counts those used.
-/

namespace RerollSync.RateLimit

open RerollSync.Support

/-- How one pass of the `acquire` loop ends. -/
inductive Verdict
  | granted (borrowed : Bool)
  | denied
  | wait (seconds : ℚ)
deriving DecidableEq

/-- One pass of the loop: its verdict, whether it notified the other waiters,
and the limiter it leaves. -/
structure Pass where
  verdict : Verdict
  notified : Bool
  limiter : HierarchicalLimiter

namespace HierarchicalLimiter

def countAcquired (L : HierarchicalLimiter) (childName : String) : HierarchicalLimiter :=
  L.updateChild childName fun c => { c with acquired := c.acquired + 1 }

def countDenied (L : HierarchicalLimiter) (childName : String) : HierarchicalLimiter :=
  L.updateChild childName fun c => { c with denied := c.denied + 1 }

/-- `self._last_attempt[child_name] = self._now()`. -/
def recordAttempt (L : HierarchicalLimiter) (childName : String) (now : ℚ) :
    HierarchicalLimiter :=
  L.updateChild childName fun c => { c with lastAttempt := some now }

/-- One pass of the loop in `acquire`.  Readings `0` to `5` belong to
`_try_take_locked`, `6` to `10` to `_time_until_locked`, and `11` to the
remaining time before the deadline. -/
def acquirePass (clock : ℕ → ℚ) (L : HierarchicalLimiter) (childName : String)
    (child : ChildState) (n : ℚ) (deadline : Option ℚ) : Pass :=
  match L.tryTakeLocked clock childName child n with
  | (.granted borrowed, L) => ⟨.granted borrowed, false, L.countAcquired childName⟩
  | (.refused returned, L) =>
      let child := (L.children.get? childName).getD child
      match L.timeUntilLocked (fun k => clock (6 + k)) childName child n with
      | (none, L) => ⟨.denied, returned, L.countDenied childName⟩
      | (some waitFor, L) =>
          match deadline with
          | none => ⟨.wait waitFor, returned, L⟩
          | some deadline =>
              let remaining := deadline - clock 11
              if remaining ≤ 0 then ⟨.denied, returned, L.countDenied childName⟩
              else ⟨.wait (min waitFor remaining), returned, L⟩

/-- How a pass ends: with the grant of its attempt, or, after a refused attempt,
denied because no time is worth waiting for or the deadline has passed, or with
a wait no longer than the remaining time. -/
theorem acquirePass_cases (clock : ℕ → ℚ) (L : HierarchicalLimiter) (childName : String)
    (child : ChildState) (n : ℚ) (deadline : Option ℚ) :
    (∃ borrowed L₁, L.tryTakeLocked clock childName child n = (.granted borrowed, L₁) ∧
      L.acquirePass clock childName child n deadline =
        ⟨.granted borrowed, false, L₁.countAcquired childName⟩) ∨
    ∃ returned L₁ waitFor L₂,
      L.tryTakeLocked clock childName child n = (.refused returned, L₁) ∧
      L₁.timeUntilLocked (fun k => clock (6 + k)) childName
        ((L₁.children.get? childName).getD child) n = (waitFor, L₂) ∧
      ((L.acquirePass clock childName child n deadline =
          ⟨.denied, returned, L₂.countDenied childName⟩ ∧
        (waitFor = none ∨ ∃ d, deadline = some d ∧ d ≤ clock 11)) ∨
      ∃ seconds, waitFor = some seconds ∧
        ((deadline = none ∧ L.acquirePass clock childName child n deadline =
          ⟨.wait seconds, returned, L₂⟩) ∨
        ∃ d, deadline = some d ∧ clock 11 < d ∧
          L.acquirePass clock childName child n deadline =
            ⟨.wait (min seconds (d - clock 11)), returned, L₂⟩)) := by
  rcases htake : L.tryTakeLocked clock childName child n with ⟨result, L₁⟩
  cases result with
  | granted borrowed => exact Or.inl ⟨borrowed, L₁, rfl, by simp [acquirePass, htake]⟩
  | refused returned =>
      right
      rcases htime : L₁.timeUntilLocked (fun k => clock (6 + k)) childName
        ((L₁.children.get? childName).getD child) n with ⟨waitFor, L₂⟩
      refine ⟨returned, L₁, waitFor, L₂, rfl, htime, ?_⟩
      cases waitFor with
      | none => exact Or.inl ⟨by simp [acquirePass, htake, htime], Or.inl rfl⟩
      | some seconds =>
          cases deadline with
          | none => exact Or.inr ⟨seconds, rfl, Or.inl ⟨rfl, by
              simp [acquirePass, htake, htime]⟩⟩
          | some d =>
              by_cases hd : d ≤ clock 11
              · exact Or.inl ⟨by simp [acquirePass, htake, htime, hd], Or.inr ⟨d, rfl, hd⟩⟩
              · exact Or.inr ⟨seconds, rfl, Or.inr ⟨d, rfl, not_le.mp hd, by
                  simp [acquirePass, htake, htime, hd]⟩⟩

end HierarchicalLimiter

/-- A caller blocked in `Condition.wait`: what it asked for, when its timed wait
runs out, and whether it has been notified since it began to wait. -/
structure Waiter where
  child : String
  n : ℚ
  deadline : Option ℚ
  wakeAt : ℚ
  notified : Bool

/-- The waiter of a caller that goes to wait at reading `now`. -/
def Waiter.sleep (w : Waiter) (now seconds : ℚ) : Waiter :=
  { w with wakeAt := now + seconds, notified := false }

/-- A grant, with the reading at which the global bucket was refilled for it. -/
structure Grant where
  time : ℚ
  child : String
  n : ℚ
  borrowed : Bool

/-- A limiter, the callers blocked in `acquire`, the number of clock readings
made so far, and every grant made so far (newest first). -/
structure AcquireState where
  limiter : HierarchicalLimiter
  waiters : List Waiter
  ticks : ℕ
  grants : List Grant

inductive AcquireEvent
  | call (child : String) (n : ℚ) (timeout : Option ℚ)
  | wake (i : ℕ)
  | penalize (child : String) (seconds : ℚ)
  | snapshot

namespace AcquireState

/-- The limiter as constructed, with nobody waiting. -/
def create (globalRatePerMinute : ℚ) (children : Table String ℚ) (clock : ℕ → ℚ) :
    AcquireState where
  limiter := HierarchicalLimiter.create globalRatePerMinute children clock
  waiters := []
  ticks := 1 + children.keys.length
  grants := []

/-- The readings still to come. -/
def readings (clock : ℕ → ℚ) (s : AcquireState) : ℕ → ℚ := fun k => clock (s.ticks + k)

/-- `Condition.notify_all`, when a pass returned tokens. -/
def notifyAll (notified : Bool) (waiters : List Waiter) : List Waiter :=
  if notified then waiters.map fun w => { w with notified := true } else waiters

/-- The grant a pass logs, if it granted.  Reading `5` of a pass is the global
bucket's refill. -/
def passGrants (r : ℕ → ℚ) (w : Waiter) : Verdict → List Grant
  | .granted borrowed => [⟨r 5, w.child, w.n, borrowed⟩]
  | _ => []

/-- The first pass of a new call of `acquire`, with the caller it runs for.
Reading `0` fixes the deadline, reading `1` is the recorded attempt, and the
readings of the pass follow. -/
def callPass (clock : ℕ → ℚ) (s : AcquireState) (childName : String) (n : ℚ)
    (timeout : Option ℚ) : Option (Waiter × Pass) :=
  let r := s.readings clock
  match s.limiter.children.get? childName with
  | none => none
  | some child =>
      let w : Waiter := ⟨childName, n, timeout.map (r 0 + ·), r 0, false⟩
      let child := { child with lastAttempt := some (r 1) }
      let L := s.limiter.recordAttempt childName (r 1)
      some (w, L.acquirePass (fun k => r (2 + k)) childName child n w.deadline)

/-- A further pass of the loop, run by the waiter at position `i`. -/
def wakePass (clock : ℕ → ℚ) (s : AcquireState) (i : ℕ) : Option (Waiter × Pass) :=
  match s.waiters[i]? with
  | none => none
  | some w =>
      match s.limiter.children.get? w.child with
      | none => none
      | some child =>
          some (w, s.limiter.acquirePass (s.readings clock) w.child child w.n w.deadline)

/-- `acquire` up to and including the first pass of its loop. -/
def call (clock : ℕ → ℚ) (s : AcquireState) (childName : String) (n : ℚ)
    (timeout : Option ℚ) : Option AcquireState :=
  let r := fun k => s.readings clock (2 + k)
  match s.callPass clock childName n timeout with
  | none => none
  | some (w, pass) =>
      let waiters := notifyAll pass.notified s.waiters
      some
        { limiter := pass.limiter
          waiters :=
            match pass.verdict with
            | .wait seconds => waiters ++ [w.sleep (r 11) seconds]
            | _ => waiters
          ticks := s.ticks + 16
          grants := passGrants r w pass.verdict ++ s.grants }

/-- The waiter at position `i` returns from its wait and runs the loop again. -/
def wake (clock : ℕ → ℚ) (s : AcquireState) (i : ℕ) : Option AcquireState :=
  let r := s.readings clock
  match s.wakePass clock i with
  | none => none
  | some (w, pass) =>
      let waiters := notifyAll pass.notified s.waiters
      some
        { limiter := pass.limiter
          waiters :=
            match pass.verdict with
            | .wait seconds => waiters.set i (w.sleep (r 11) seconds)
            | _ => waiters.eraseIdx i
          ticks := s.ticks + 16
          grants := passGrants r w pass.verdict ++ s.grants }

/-- One event.  A caller asks for a positive number of tokens. -/
def step (clock : ℕ → ℚ) (s : AcquireState) : AcquireEvent → Option AcquireState
  | .call child n timeout => if 0 < n then s.call clock child n timeout else none
  | .wake i => s.wake clock i
  | .penalize child seconds =>
      match s.limiter.penalize (s.readings clock) child seconds with
      | none => none
      | some L => some { s with limiter := L, ticks := s.ticks + 1 }
  | .snapshot =>
      some
        { s with
          limiter := (s.limiter.snapshot (s.readings clock)).2
          ticks := s.ticks + 1 + s.limiter.children.keys.length }

/-- The machine of a limiter whose clock gives the readings `clock`. -/
def machine (clock : ℕ → ℚ) : Machine AcquireState AcquireEvent := ⟨step clock⟩

/-! ## Blocked callers ask for a positive number of tokens -/

section WaitingPos

variable {clock : ℕ → ℚ} {s s' : AcquireState} (h : ∀ w ∈ s.waiters, 0 < w.n)
include h

theorem waiting_pos_notifyAll (notified : Bool) : ∀ w ∈ notifyAll notified s.waiters, 0 < w.n := by
  intro w hw
  unfold notifyAll at hw
  split at hw
  · obtain ⟨w', hw', rfl⟩ := List.mem_map.mp hw
    exact h w' hw'
  · exact h w hw

theorem waiting_pos_call {childName : String} {n : ℚ} {timeout : Option ℚ} (hn : 0 < n)
    (hcall : s.call clock childName n timeout = some s') : ∀ w ∈ s'.waiters, 0 < w.n := by
  cases hget : s.limiter.children.get? childName with
  | none => simp [call, callPass, hget] at hcall
  | some child =>
      simp only [call, callPass, hget, Option.some.injEq] at hcall
      subst hcall
      intro w hw
      dsimp only at hw
      split at hw
      · rcases List.mem_append.mp hw with hmem | hmem
        · exact waiting_pos_notifyAll h _ w hmem
        · obtain rfl := List.mem_singleton.mp hmem
          exact hn
      · exact waiting_pos_notifyAll h _ w hw

theorem waiting_pos_wake {i : ℕ} (hwake : s.wake clock i = some s') :
    ∀ w ∈ s'.waiters, 0 < w.n := by
  cases hpass : s.wakePass clock i with
  | none => simp [wake, hpass] at hwake
  | some p =>
      obtain ⟨w₀, pass⟩ := p
      have hn : 0 < w₀.n := by
        unfold wakePass at hpass
        split at hpass
        next => cases hpass
        next w hw =>
          split at hpass
          next => cases hpass
          next =>
            obtain rfl : w = w₀ := by simpa using congrArg (Option.map Prod.fst) hpass
            exact h w (List.mem_of_getElem? hw)
      simp only [wake, hpass, Option.some.injEq] at hwake
      subst hwake
      intro w hw
      dsimp only at hw
      split at hw
      · rcases List.mem_or_eq_of_mem_set hw with hmem | rfl
        · exact waiting_pos_notifyAll h _ w hmem
        · exact hn
      · exact waiting_pos_notifyAll h _ w (List.mem_of_mem_eraseIdx hw)

theorem waiting_pos_step {e : AcquireEvent} (hstep : step clock s e = some s') :
    ∀ w ∈ s'.waiters, 0 < w.n := by
  cases e with
  | call child n timeout =>
      simp only [step] at hstep
      split at hstep
      next hn => exact waiting_pos_call h hn hstep
      next => cases hstep
  | wake i => exact waiting_pos_wake h hstep
  | penalize child seconds =>
      simp only [step] at hstep
      split at hstep
      next => cases hstep
      next =>
        obtain rfl := Option.some.inj hstep
        exact h
  | snapshot =>
      obtain rfl := Option.some.inj hstep
      exact h

end WaitingPos

end AcquireState

end RerollSync.RateLimit
