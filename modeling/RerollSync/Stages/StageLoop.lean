import RerollSync.Support.Pacing

/-!
# The supervised loop of a stage

`StageLoop.run_forever` runs a stage's `iterate` on the schedule of a trigger.  Its thread
takes one step after the other, and between any two of them other threads pause and resume
the loop or set the shutdown event, and the clocks go on.
-/

namespace RerollSync.Stages

open RerollSync.Support

/-! ## Triggers -/

/-- `IntervalTrigger` and `PollTrigger`. -/
inductive Trigger
  | interval (interval : ℚ) (lastRunAt : Option ℚ)
  | poll (idleInterval : ℚ) (busy : Bool)
deriving DecidableEq

namespace Trigger

/-- `due`. -/
def due (now : ℚ) : Trigger → Bool
  | .interval _ none => true
  | .interval every (some lastRunAt) => now - lastRunAt ≥ every
  | .poll _ _ => true

/-- `wait_seconds`. -/
def waitSeconds (now : ℚ) : Trigger → ℚ
  | .interval _ none => 0
  | .interval every (some lastRunAt) => max 0 (every - (now - lastRunAt))
  | .poll idleInterval busy => if busy then 0 else idleInterval

/-- `mark_run`. -/
def markRun (now : ℚ) (didWork : Bool) : Trigger → Trigger
  | .interval every _ => .interval every (some now)
  | .poll idleInterval _ => .poll idleInterval didWork

end Trigger

/-! ## The loop and its thread -/

/-- The fields of a `StageLoop` that change. -/
structure StageLoop where
  trigger : Trigger
  paused : Bool := false
  lastRunAt : Option ℚ := none
  lastSuccessAt : Option ℚ := none
  consecutiveFailures : ℕ := 0
deriving DecidableEq

/-- What a call of `iterate` comes to: it returns, raises an `Exception`, or raises one of
`fatal_exceptions`. -/
inductive IterateResult
  | returned (didWork : Bool)
  | raised
  | fatal
deriving DecidableEq

/-- What the thread of `run_forever` does next. -/
inductive LoopPhase
  | checking
  | triggering
  | entering
  | calling
  | iterating
  | succeeding (didWork : Bool)
  | failing
  | marking (didWork : Bool)
  | timing
  | waiting (since timeout : ℚ)
  | stopped
  | died
deriving DecidableEq

/-- A step of the thread, or one of another thread.  `enter` is the block under the lock
that begins `run_once`, and `succeed` and `fail` are those that count its result. -/
inductive LoopAct
  | isSet
  | due
  | enter
  | call
  | ends (result : IterateResult)
  | succeed
  | fail
  | markRun
  | waitSeconds
  | wake
  | pause
  | resume
  | shutdown
deriving DecidableEq

/-- Whether a step is one of the thread's own. -/
def LoopAct.isOwn : LoopAct → Bool
  | .pause | .resume | .shutdown => false
  | _ => true

/-- A step with the readings of the loop's clock and of the one that waits go by. -/
structure LoopEvent where
  now : ℚ
  monotonic : ℚ
  act : LoopAct
deriving DecidableEq

/-- The loop, its thread and the shutdown event, with the clocks at the last step. -/
structure LoopState where
  loop : StageLoop
  phase : LoopPhase
  shutdown : Bool
  now : ℚ
  monotonic : ℚ
deriving DecidableEq

namespace LoopState

/-- What a step makes of the state, unless the thread is somewhere else. -/
def act (s : LoopState) (now monotonic : ℚ) : LoopAct → Option LoopState
  | .isSet =>
      match s.phase with
      | .checking => some { s with phase := if s.shutdown then .stopped else .triggering }
      | _ => none
  | .due =>
      match s.phase with
      | .triggering =>
          some { s with phase := if s.loop.trigger.due now then .entering else .timing }
      | _ => none
  | .enter =>
      match s.phase with
      | .entering =>
          some
            { s with
              loop := { s.loop with lastRunAt := some now }
              phase := if s.loop.paused then .marking false else .calling }
      | _ => none
  | .call =>
      match s.phase with
      | .calling => some { s with phase := .iterating }
      | _ => none
  | .ends result =>
      match s.phase, result with
      | .iterating, .returned didWork => some { s with phase := .succeeding didWork }
      | .iterating, .raised => some { s with phase := .failing }
      | .iterating, .fatal => some { s with phase := .died }
      | _, _ => none
  | .succeed =>
      match s.phase with
      | .succeeding didWork =>
          some
            { s with
              loop := { s.loop with lastSuccessAt := some now, consecutiveFailures := 0 }
              phase := .marking didWork }
      | _ => none
  | .fail =>
      match s.phase with
      | .failing =>
          some
            { s with
              loop := { s.loop with consecutiveFailures := s.loop.consecutiveFailures + 1 }
              phase := .marking false }
      | _ => none
  | .markRun =>
      match s.phase with
      | .marking didWork =>
          some
            { s with
              loop := { s.loop with trigger := s.loop.trigger.markRun now didWork }
              phase := .timing }
      | _ => none
  | .waitSeconds =>
      match s.phase with
      | .timing => some { s with phase := .waiting monotonic (s.loop.trigger.waitSeconds now) }
      | _ => none
  | .wake =>
      match s.phase with
      | .waiting since timeout =>
          if s.shutdown then some { s with phase := .stopped }
          else if since + timeout ≤ monotonic then some { s with phase := .checking }
          else none
      | _ => none
  | .pause => some { s with loop := { s.loop with paused := true } }
  | .resume => some { s with loop := { s.loop with paused := false } }
  | .shutdown => some { s with shutdown := true }

/-- A loop whose thread has just been started. -/
def start (trigger : Trigger) (now monotonic : ℚ) : LoopState :=
  ⟨{ trigger := trigger }, .checking, false, now, monotonic⟩

end LoopState

/-- The loop among the other threads; the clock that waits go by is not set back. -/
def loopMachine : Machine LoopState LoopEvent where
  step s e :=
    if e.monotonic < s.monotonic then none
    else (s.act e.now e.monotonic e.act).map fun s' =>
      { s' with now := e.now, monotonic := e.monotonic }

theorem loopMachine_step_iff {s s' : LoopState} {e : LoopEvent} :
    loopMachine.step s e = some s' ↔ s.monotonic ≤ e.monotonic ∧
      ∃ m, s.act e.now e.monotonic e.act = some m ∧
        s' = { m with now := e.now, monotonic := e.monotonic } := by
  by_cases hback : e.monotonic < s.monotonic
  · simp [loopMachine, hback]
  · simp [loopMachine, hback, not_lt.mp hback, eq_comm]

end RerollSync.Stages
