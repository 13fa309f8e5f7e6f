import RerollSync.Stages.StageLoop
import Mathlib.Data.List.DropRight

/-!
# Runs of the supervised loop

What holds of a loop in every run, whatever `iterate` comes to and whenever other threads
step in: how far apart its runs are, what its counters count, and that a set shutdown event
ends it without another turn.
-/

namespace RerollSync.Stages

open RerollSync.Support

namespace LoopState

/-- The steps of the loop, one case for each place where it can be taken. -/
inductive Acts (s : LoopState) (now monotonic : ℚ) : LoopAct → LoopState → Prop
  | isSet (hphase : s.phase = .checking) :
      Acts s now monotonic .isSet
        { s with phase := if s.shutdown then .stopped else .triggering }
  | due (hphase : s.phase = .triggering) :
      Acts s now monotonic .due
        { s with phase := if s.loop.trigger.due now then .entering else .timing }
  | enter (hphase : s.phase = .entering) :
      Acts s now monotonic .enter
        { s with
          loop := { s.loop with lastRunAt := some now }
          phase := if s.loop.paused then .marking false else .calling }
  | call (hphase : s.phase = .calling) :
      Acts s now monotonic .call { s with phase := .iterating }
  | returned (didWork : Bool) (hphase : s.phase = .iterating) :
      Acts s now monotonic (.ends (.returned didWork)) { s with phase := .succeeding didWork }
  | raised (hphase : s.phase = .iterating) :
      Acts s now monotonic (.ends .raised) { s with phase := .failing }
  | fatal (hphase : s.phase = .iterating) :
      Acts s now monotonic (.ends .fatal) { s with phase := .died }
  | succeed (didWork : Bool) (hphase : s.phase = .succeeding didWork) :
      Acts s now monotonic .succeed
        { s with
          loop := { s.loop with lastSuccessAt := some now, consecutiveFailures := 0 }
          phase := .marking didWork }
  | fail (hphase : s.phase = .failing) :
      Acts s now monotonic .fail
        { s with
          loop := { s.loop with consecutiveFailures := s.loop.consecutiveFailures + 1 }
          phase := .marking false }
  | markRun (didWork : Bool) (hphase : s.phase = .marking didWork) :
      Acts s now monotonic .markRun
        { s with
          loop := { s.loop with trigger := s.loop.trigger.markRun now didWork }
          phase := .timing }
  | waitSeconds (hphase : s.phase = .timing) :
      Acts s now monotonic .waitSeconds
        { s with phase := .waiting monotonic (s.loop.trigger.waitSeconds now) }
  | stop (since timeout : ℚ) (hphase : s.phase = .waiting since timeout)
      (hshutdown : s.shutdown = true) :
      Acts s now monotonic .wake { s with phase := .stopped }
  | wake (since timeout : ℚ) (hphase : s.phase = .waiting since timeout)
      (hshutdown : s.shutdown = false) (hover : since + timeout ≤ monotonic) :
      Acts s now monotonic .wake { s with phase := .checking }
  | pause : Acts s now monotonic .pause { s with loop := { s.loop with paused := true } }
  | resume : Acts s now monotonic .resume { s with loop := { s.loop with paused := false } }
  | shutdown : Acts s now monotonic .shutdown { s with shutdown := true }

theorem acts_of_act_eq_some {s s' : LoopState} {now monotonic : ℚ} {a : LoopAct}
    (h : s.act now monotonic a = some s') : Acts s now monotonic a s' := by
  cases a with
  | isSet =>
      simp only [act] at h
      split at h
      · next hphase =>
          cases h
          exact .isSet hphase
      · cases h
  | due =>
      simp only [act] at h
      split at h
      · next hphase =>
          cases h
          exact .due hphase
      · cases h
  | enter =>
      simp only [act] at h
      split at h
      · next hphase =>
          cases h
          exact .enter hphase
      · cases h
  | call =>
      simp only [act] at h
      split at h
      · next hphase =>
          cases h
          exact .call hphase
      · cases h
  | ends result =>
      simp only [act] at h
      split at h
      · next didWork hphase =>
          cases h
          exact .returned didWork hphase
      · next hphase =>
          cases h
          exact .raised hphase
      · next hphase =>
          cases h
          exact .fatal hphase
      · cases h
  | succeed =>
      simp only [act] at h
      split at h
      · next didWork hphase =>
          cases h
          exact .succeed didWork hphase
      · cases h
  | fail =>
      simp only [act] at h
      split at h
      · next hphase =>
          cases h
          exact .fail hphase
      · cases h
  | markRun =>
      simp only [act] at h
      split at h
      · next didWork hphase =>
          cases h
          exact .markRun didWork hphase
      · cases h
  | waitSeconds =>
      simp only [act] at h
      split at h
      · next hphase =>
          cases h
          exact .waitSeconds hphase
      · cases h
  | wake =>
      simp only [act] at h
      split at h
      · next since timeout hphase =>
          split at h
          · next hshutdown =>
              cases h
              exact .stop since timeout hphase hshutdown
          · next hshutdown =>
              split at h
              · next hover =>
                  cases h
                  exact .wake since timeout hphase (Bool.eq_false_iff.mpr hshutdown) hover
              · cases h
      · cases h
  | pause =>
      cases h
      exact .pause
  | resume =>
      cases h
      exact .resume
  | shutdown =>
      cases h
      exact .shutdown

/-- A step of the machine: the clock that waits go by is not set back, and the thread or
another one takes its step. -/
theorem exists_acts {s s' : LoopState} {e : LoopEvent} (h : loopMachine.step s e = some s') :
    s.monotonic ≤ e.monotonic ∧ ∃ m, Acts s e.now e.monotonic e.act m ∧
      s' = { m with now := e.now, monotonic := e.monotonic } := by
  obtain ⟨hmono, m, hact, rfl⟩ := loopMachine_step_iff.mp h
  exact ⟨hmono, m, acts_of_act_eq_some hact, rfl⟩

/-! ## How far apart runs are -/

/-- The last run began at `t` or later; it can be seen from where the thread is. -/
def SinceRun (every t : ℚ) (s : LoopState) : Prop :=
  (∃ lastRunAt, s.loop.trigger = .interval every lastRunAt) ∧
    match s.phase with
    | .entering => t + every ≤ s.now
    | .calling | .iterating | .succeeding _ | .failing | .marking _ => t ≤ s.now
    | .timing | .waiting _ _ | .checking | .triggering =>
        ∃ lastRunAt, s.loop.trigger = .interval every (some lastRunAt) ∧ t ≤ lastRunAt
    | .stopped | .died => True

/-- The last run began at `t` or later, and has found no work. -/
def SinceIdle (idle t : ℚ) (s : LoopState) : Prop :=
  (∃ busy, s.loop.trigger = .poll idle busy) ∧
    match s.phase with
    | .checking | .triggering | .entering => t + idle ≤ s.monotonic
    | .calling | .iterating | .failing => t ≤ s.monotonic
    | .succeeding didWork | .marking didWork => didWork = false ∧ t ≤ s.monotonic
    | .timing => s.loop.trigger = .poll idle false ∧ t ≤ s.monotonic
    | .waiting since timeout => t ≤ since ∧ timeout = idle
    | .stopped | .died => True

theorem SinceRun.later {every t : ℚ} {s s' : LoopState} (h : SinceRun every t s)
    (htrigger : s'.loop.trigger = s.loop.trigger) (hphase : s'.phase = s.phase)
    (hnow : s.now ≤ s'.now) : SinceRun every t s' := by
  rw [SinceRun, htrigger, hphase]
  refine ⟨h.1, ?_⟩
  have hlast := h.2
  cases hp : s.phase with
  | entering | calling | iterating | succeeding | failing | marking =>
      rw [hp] at hlast
      exact le_trans hlast hnow
  | timing | waiting | checking | triggering =>
      rw [hp] at hlast
      exact hlast
  | stopped | died => trivial

theorem SinceIdle.later {idle t : ℚ} {s s' : LoopState} (h : SinceIdle idle t s)
    (htrigger : s'.loop.trigger = s.loop.trigger) (hphase : s'.phase = s.phase)
    (hmono : s.monotonic ≤ s'.monotonic) : SinceIdle idle t s' := by
  rw [SinceIdle, htrigger, hphase]
  refine ⟨h.1, ?_⟩
  have hlast := h.2
  cases hp : s.phase with
  | checking | triggering | entering | calling | iterating | failing =>
      rw [hp] at hlast
      exact le_trans hlast hmono
  | succeeding | marking | timing =>
      rw [hp] at hlast
      exact ⟨hlast.1, le_trans hlast.2 hmono⟩
  | waiting =>
      rw [hp] at hlast
      exact hlast
  | stopped | died => trivial

/-- A step that begins a run. -/
def isStart (e : LoopEvent) : Bool := e.act = .enter

/-- The loop's clock is not set back. -/
def Forward (s : LoopState) (e : LoopEvent) : Prop := s.now ≤ e.now

instance (s : LoopState) (e : LoopEvent) : Decidable (Forward s e) :=
  inferInstanceAs (Decidable (_ ≤ _))

/-- No iteration finds work. -/
def Workless (_ : LoopState) (e : LoopEvent) : Prop := e.act ≠ .ends (.returned true)

theorem paced_interval (every : ℚ) :
    loopMachine.Paced Forward isStart LoopEvent.now every (SinceRun every) where
  keeps s e s' t hs hforward hstart hstep := by
    obtain ⟨-, m, hacts, rfl⟩ := exists_acts hstep
    obtain ⟨now, monotonic, a⟩ := e
    have hnow : s.now ≤ now := hforward
    have ⟨htrigger, hlast⟩ := hs
    cases hacts with
    | isSet hphase =>
        rw [hphase] at hlast
        refine ⟨htrigger, ?_⟩
        cases s.shutdown with
        | false => exact hlast
        | true => trivial
    | due hphase =>
        rw [hphase] at hlast
        obtain ⟨lastRunAt, hinterval, hle⟩ := hlast
        refine ⟨htrigger, ?_⟩
        cases hdue : s.loop.trigger.due now with
        | false => exact ⟨lastRunAt, hinterval, hle⟩
        | true =>
            have hgap : every ≤ now - lastRunAt := by
              simpa [hinterval, Trigger.due] using hdue
            simp only [if_true]
            linarith
    | enter hphase => simp [isStart] at hstart
    | call hphase | returned _ hphase | raised hphase | succeed _ hphase | fail hphase =>
        rw [hphase] at hlast
        exact ⟨htrigger, le_trans hlast hnow⟩
    | fatal hphase => exact ⟨htrigger, trivial⟩
    | markRun didWork hphase =>
        rw [hphase] at hlast
        obtain ⟨lastRunAt, htrigger⟩ := htrigger
        have hmarked : s.loop.trigger.markRun now didWork = .interval every (some now) := by
          rw [htrigger, Trigger.markRun]
        exact ⟨⟨some now, hmarked⟩, now, hmarked, le_trans hlast hnow⟩
    | waitSeconds hphase | wake _ _ hphase =>
        rw [hphase] at hlast
        exact ⟨htrigger, hlast⟩
    | stop => exact ⟨htrigger, trivial⟩
    | pause | resume | shutdown => exact hs.later rfl rfl hnow
  starts s e s' t hs hforward hstart hstep := by
    obtain ⟨-, m, hacts, rfl⟩ := exists_acts hstep
    obtain ⟨now, monotonic, a⟩ := e
    obtain rfl : a = .enter := by simpa [isStart] using hstart
    obtain ⟨htrigger, hlast⟩ := hs
    have hnow : s.now ≤ now := hforward
    cases hacts with
    | enter hphase =>
        rw [hphase] at hlast
        refine ⟨le_trans hlast hnow, htrigger, ?_⟩
        cases s.loop.paused <;> exact le_rfl

theorem paced_poll (idle : ℚ) :
    loopMachine.Paced Workless isStart LoopEvent.monotonic idle (SinceIdle idle) where
  keeps s e s' t hs hworkless hstart hstep := by
    obtain ⟨hmono, m, hacts, rfl⟩ := exists_acts hstep
    obtain ⟨now, monotonic, a⟩ := e
    have ⟨htrigger, hlast⟩ := hs
    cases hacts with
    | isSet hphase =>
        rw [hphase] at hlast
        refine ⟨htrigger, ?_⟩
        cases s.shutdown with
        | false => exact le_trans hlast hmono
        | true => trivial
    | due hphase =>
        rw [hphase] at hlast
        refine ⟨htrigger, ?_⟩
        obtain ⟨busy, htrigger⟩ := htrigger
        have hdue : s.loop.trigger.due now = true := by rw [htrigger, Trigger.due]
        rw [if_pos hdue]
        exact le_trans hlast hmono
    | enter hphase => simp [isStart] at hstart
    | call hphase | raised hphase =>
        rw [hphase] at hlast
        exact ⟨htrigger, le_trans hlast hmono⟩
    | returned didWork hphase =>
        rw [hphase] at hlast
        have hidle : didWork = false := by simpa [Workless] using hworkless
        exact ⟨htrigger, hidle, le_trans hlast hmono⟩
    | fatal hphase => exact ⟨htrigger, trivial⟩
    | succeed didWork hphase =>
        rw [hphase] at hlast
        exact ⟨htrigger, hlast.1, le_trans hlast.2 hmono⟩
    | fail hphase =>
        rw [hphase] at hlast
        exact ⟨htrigger, rfl, le_trans hlast hmono⟩
    | markRun didWork hphase =>
        rw [hphase] at hlast
        obtain ⟨busy, htrigger⟩ := htrigger
        obtain ⟨rfl, hle⟩ := hlast
        have hmarked : s.loop.trigger.markRun now false = .poll idle false := by
          rw [htrigger, Trigger.markRun]
        exact ⟨⟨false, hmarked⟩, hmarked, le_trans hle hmono⟩
    | waitSeconds hphase =>
        rw [hphase] at hlast
        have hwait : s.loop.trigger.waitSeconds now = idle := by
          rw [hlast.1, Trigger.waitSeconds, if_neg Bool.false_ne_true]
        exact ⟨htrigger, le_trans hlast.2 hmono, hwait⟩
    | stop => exact ⟨htrigger, trivial⟩
    | wake since timeout hphase _ hover =>
        rw [hphase] at hlast
        obtain ⟨hle, rfl⟩ := hlast
        exact ⟨htrigger, le_trans (by linarith) hover⟩
    | pause | resume | shutdown => exact hs.later rfl rfl hmono
  starts s e s' t hs _ hstart hstep := by
    obtain ⟨hmono, m, hacts, rfl⟩ := exists_acts hstep
    obtain ⟨now, monotonic, a⟩ := e
    obtain rfl : a = .enter := by simpa [isStart] using hstart
    obtain ⟨htrigger, hlast⟩ := hs
    cases hacts with
    | enter hphase =>
        rw [hphase] at hlast
        refine ⟨le_trans hlast hmono, htrigger, ?_⟩
        cases s.loop.paused with
        | false => exact le_rfl
        | true => exact ⟨rfl, le_rfl⟩

/-- The trigger as it was built. -/
def fresh : Trigger → Trigger
  | .interval every _ => .interval every none
  | .poll idle _ => .poll idle true

theorem fresh_run {trigger : Trigger} {now monotonic : ℚ} {l : List LoopEvent} {s : LoopState}
    (hrun : loopMachine.run (start trigger now monotonic) l = some s) :
    fresh s.loop.trigger = fresh trigger := by
  refine Machine.run_invariant (P := fun s : LoopState => fresh s.loop.trigger = fresh trigger)
    (fun s e s' hs hstep => ?_) rfl hrun
  obtain ⟨-, m, hacts, rfl⟩ := exists_acts hstep
  obtain ⟨now, monotonic, a⟩ := e
  cases hacts with
  | markRun didWork hphase =>
      rw [← hs]
      cases s.loop.trigger <;> rfl
  | _ => exact hs

/-- However long `iterate` takes, whatever it comes to and whoever pauses the loop between,
a timed stage makes one run in an interval, and a polled one without work makes one in an
idle interval. -/
theorem starts_paced {trigger : Trigger} {now monotonic : ℚ} {l l' : List LoopEvent}
    {e e' : LoopEvent} {s : LoopState}
    (hrun : loopMachine.run (start trigger now monotonic) (l ++ e :: (l' ++ [e'])) = some s)
    (he : e.act = .enter) (he' : e'.act = .enter) :
    (∀ every lastRunAt, trigger = .interval every lastRunAt →
      loopMachine.Along Forward (start trigger now monotonic) (l ++ e :: (l' ++ [e'])) →
        e.now + (l'.countP isStart + 1) * every ≤ e'.now) ∧
    (∀ idle busy, trigger = .poll idle busy →
      (∀ x ∈ l', x.act ≠ .ends (.returned true)) →
        e.monotonic + (l'.countP isStart + 1) * idle ≤ e'.monotonic) := by
  obtain ⟨m, hm, hrest⟩ := Machine.run_append_eq_some.mp hrun
  obtain ⟨m', hstep, hrest⟩ := Machine.run_cons_eq_some.mp hrest
  have hfresh := fresh_run hm
  have hstart' : isStart e' = true := by simp [isStart, he']
  obtain ⟨-, n, hacts, rfl⟩ := exists_acts hstep
  rw [he] at hacts
  cases hacts with
  | enter hphase =>
      constructor
      · rintro every lastRunAt rfl hforward
        obtain ⟨-, hforward⟩ := (Machine.along_append hm).mp hforward
        obtain ⟨-, hforward⟩ := (Machine.along_cons hstep).mp hforward
        refine (paced_interval every).between ⟨?_, ?_⟩ hforward hstart' hrest
        · cases htrigger : m.loop.trigger with
          | interval every' last =>
              rw [htrigger] at hfresh
              cases hfresh
              exact ⟨last, rfl⟩
          | poll =>
              rw [htrigger] at hfresh
              cases hfresh
        · cases m.loop.paused <;> exact le_rfl
      · rintro idle busy rfl hidle
        have hworkless : ∀ x ∈ l' ++ [e'], ∀ s, Workless s x := by
          intro x hx s
          rcases List.mem_append.mp hx with hx | hx
          · exact hidle x hx
          · obtain rfl := List.mem_singleton.mp hx
            simp [Workless, he']
        refine (paced_poll idle).between ⟨?_, ?_⟩ (Machine.along_of_forall hworkless _) hstart'
          hrest
        · cases htrigger : m.loop.trigger with
          | poll idle' busy' =>
              rw [htrigger] at hfresh
              cases hfresh
              exact ⟨busy', rfl⟩
          | interval =>
              rw [htrigger] at hfresh
              cases hfresh
        · cases m.loop.paused with
          | false => exact le_rfl
          | true => exact ⟨rfl, le_rfl⟩

/-- What happens between a run that fails and one that finds the loop paused. -/
def failedThenPaused : List LoopEvent :=
  [⟨1, 1, .call⟩, ⟨4, 4, .ends .raised⟩, ⟨4, 4, .fail⟩, ⟨5, 5, .markRun⟩, ⟨5, 5, .waitSeconds⟩,
    ⟨8, 8, .pause⟩, ⟨15, 15, .wake⟩, ⟨15, 15, .isSet⟩, ⟨15, 15, .due⟩]

theorem starts_paced_failedThenPaused :
    (1 : ℚ) + (failedThenPaused.countP isStart + 1) * 10 ≤ 16 := by
  have hrun : loopMachine.run (start (.interval 10 none) 0 0)
      ([⟨0, 0, .isSet⟩, ⟨0, 0, .due⟩] ++ ⟨1, 1, .enter⟩ ::
        (failedThenPaused ++ [⟨16, 16, .enter⟩])) =
      some ⟨⟨.interval 10 (some 5), true, some 16, none, 1⟩, .marking false, false, 16, 16⟩ := by
    decide +kernel
  exact (starts_paced hrun rfl rfl).1 10 none rfl (by decide +kernel)

/-! ## Shutting down and pausing -/

/-- A step of the loop's own thread. -/
def isOwn (e : LoopEvent) : Bool := e.act.isOwn

/-- A call of `iterate`. -/
def isCall (e : LoopEvent) : Bool := e.act = .call

/-- How many steps the thread takes at most once the shutdown event is set. -/
def stepsLeft (s : LoopState) : ℕ :=
  match s.phase with
  | .stopped | .died => 0
  | .checking | .waiting _ _ => 1
  | .timing => 2
  | .marking _ => 3
  | .succeeding _ | .failing => 4
  | .iterating => 5
  | .calling => 6
  | .entering => 7
  | .triggering => 8

/-- How many calls it still makes then. -/
def callsLeft (s : LoopState) : ℕ :=
  match s.phase with
  | .triggering | .entering | .calling => 1
  | _ => 0

/-- How many calls a paused loop still makes. -/
def callsWhenPaused (s : LoopState) : ℕ := if s.phase = .calling then 1 else 0

theorem shutdown_step {s s' : LoopState} {e : LoopEvent} (hs : s.shutdown = true)
    (hstep : loopMachine.step s e = some s') : s'.shutdown = true := by
  obtain ⟨-, m, hacts, rfl⟩ := exists_acts hstep
  obtain ⟨now, monotonic, a⟩ := e
  cases hacts with
  | shutdown => rfl
  | _ => exact hs

theorem stepsLeft_step {s s' : LoopState} {e : LoopEvent} (hs : s.shutdown = true)
    (hstep : loopMachine.step s e = some s') :
    (if isOwn e then 1 else 0) + s'.stepsLeft ≤ s.stepsLeft := by
  obtain ⟨-, m, hacts, rfl⟩ := exists_acts hstep
  obtain ⟨now, monotonic, a⟩ := e
  cases hacts with
  | isSet hphase => simp [stepsLeft, isOwn, LoopAct.isOwn, hphase, hs]
  | due hphase =>
      cases s.loop.trigger.due now <;> simp [stepsLeft, isOwn, LoopAct.isOwn, hphase]
  | enter hphase =>
      cases s.loop.paused <;> simp [stepsLeft, isOwn, LoopAct.isOwn, hphase]
  | wake since timeout hphase hshutdown => simp [hs] at hshutdown
  | call hphase | returned _ hphase | raised hphase | fatal hphase | succeed _ hphase
  | fail hphase | markRun _ hphase | waitSeconds hphase | stop _ _ hphase =>
      simp [stepsLeft, isOwn, LoopAct.isOwn, hphase]
  | pause | resume | shutdown => simp [stepsLeft, isOwn, LoopAct.isOwn]

theorem callsLeft_step {s s' : LoopState} {e : LoopEvent} (hs : s.shutdown = true)
    (hstep : loopMachine.step s e = some s') :
    (if isCall e then 1 else 0) + s'.callsLeft ≤ s.callsLeft := by
  obtain ⟨-, m, hacts, rfl⟩ := exists_acts hstep
  obtain ⟨now, monotonic, a⟩ := e
  cases hacts with
  | isSet hphase => simp [callsLeft, isCall, hphase, hs]
  | due hphase =>
      cases s.loop.trigger.due now <;> simp [callsLeft, isCall, hphase]
  | enter hphase =>
      cases s.loop.paused <;> simp [callsLeft, isCall, hphase]
  | wake since timeout hphase hshutdown => simp [hs] at hshutdown
  | call hphase | returned _ hphase | raised hphase | fatal hphase | succeed _ hphase
  | fail hphase | markRun _ hphase | waitSeconds hphase | stop _ _ hphase =>
      simp [callsLeft, isCall, hphase]
  | pause | resume | shutdown => simp [callsLeft, isCall]

theorem callsWhenPaused_step {s s' : LoopState} {e : LoopEvent} (hs : s.loop.paused = true)
    (hact : e.act ≠ .resume) (hstep : loopMachine.step s e = some s') :
    s'.loop.paused = true ∧
      (if isCall e then 1 else 0) + s'.callsWhenPaused ≤ s.callsWhenPaused := by
  obtain ⟨-, m, hacts, rfl⟩ := exists_acts hstep
  obtain ⟨now, monotonic, a⟩ := e
  cases hacts with
  | isSet hphase =>
      refine ⟨hs, ?_⟩
      cases s.shutdown <;> simp [callsWhenPaused, isCall, hphase]
  | due hphase =>
      refine ⟨hs, ?_⟩
      cases s.loop.trigger.due now <;> simp [callsWhenPaused, isCall, hphase]
  | enter hphase => exact ⟨hs, by simp [callsWhenPaused, isCall, hphase, hs]⟩
  | call hphase | returned _ hphase | raised hphase | fatal hphase | succeed _ hphase
  | fail hphase | markRun _ hphase | waitSeconds hphase | stop _ _ hphase | wake _ _ hphase =>
      exact ⟨hs, by simp [callsWhenPaused, isCall, hphase]⟩
  | pause => exact ⟨rfl, by simp [callsWhenPaused, isCall]⟩
  | resume => exact absurd rfl hact
  | shutdown => exact ⟨hs, by simp [callsWhenPaused, isCall]⟩

/-- Unless it has ended, the thread has a step that it can take at any time. -/
theorem exists_own_step {s : LoopState} (hs : s.shutdown = true) (hstopped : s.phase ≠ .stopped)
    (hdied : s.phase ≠ .died) : ∃ a, LoopAct.isOwn a = true ∧ ∀ now monotonic,
      s.monotonic ≤ monotonic → (loopMachine.step s ⟨now, monotonic, a⟩).isSome = true := by
  have henabled : ∃ a, LoopAct.isOwn a = true ∧
      ∀ now monotonic, (s.act now monotonic a).isSome = true := by
    cases hphase : s.phase with
    | checking => exact ⟨.isSet, rfl, fun now monotonic => by simp [act, hphase]⟩
    | triggering => exact ⟨.due, rfl, fun now monotonic => by simp [act, hphase]⟩
    | entering => exact ⟨.enter, rfl, fun now monotonic => by simp [act, hphase]⟩
    | calling => exact ⟨.call, rfl, fun now monotonic => by simp [act, hphase]⟩
    | iterating => exact ⟨.ends .raised, rfl, fun now monotonic => by simp [act, hphase]⟩
    | succeeding => exact ⟨.succeed, rfl, fun now monotonic => by simp [act, hphase]⟩
    | failing => exact ⟨.fail, rfl, fun now monotonic => by simp [act, hphase]⟩
    | marking => exact ⟨.markRun, rfl, fun now monotonic => by simp [act, hphase]⟩
    | timing => exact ⟨.waitSeconds, rfl, fun now monotonic => by simp [act, hphase]⟩
    | waiting => exact ⟨.wake, rfl, fun now monotonic => by simp [act, hphase, hs]⟩
    | stopped => exact absurd hphase hstopped
    | died => exact absurd hphase hdied
  obtain ⟨a, hown, hact⟩ := henabled
  refine ⟨a, hown, fun now monotonic hle => ?_⟩
  simp [loopMachine, not_lt.mpr hle, hact]

theorem shutdown_ends {m s : LoopState} {l : List LoopEvent} (hm : m.shutdown = true)
    (hrun : loopMachine.run m l = some s) :
    l.countP isOwn ≤ 8 ∧ l.countP isCall ≤ 1 ∧
      (s.phase ≠ .stopped → s.phase ≠ .died → ∃ a, LoopAct.isOwn a = true ∧
        ∀ now monotonic, s.monotonic ≤ monotonic →
          (loopMachine.step s ⟨now, monotonic, a⟩).isSome = true) := by
  have halong : loopMachine.Along (fun _ _ => True) m l :=
    Machine.along_of_forall (fun _ _ _ => trivial) m
  have hkeep : ∀ s e s', s.shutdown = true → True → loopMachine.step s e = some s' →
      s'.shutdown = true := fun s e s' hs _ hstep => shutdown_step hs hstep
  have hsteps : l.countP isOwn + s.stepsLeft ≤ m.stepsLeft := Machine.countP_add_le hkeep
    (fun s e s' hs _ hstep => stepsLeft_step hs hstep) hm halong hrun
  have hcalls : l.countP isCall + s.callsLeft ≤ m.callsLeft := Machine.countP_add_le hkeep
    (fun s e s' hs _ hstep => callsLeft_step hs hstep) hm halong hrun
  have height : m.stepsLeft ≤ 8 := by
    rw [stepsLeft]
    split <;> omega
  have hone : m.callsLeft ≤ 1 := by
    rw [callsLeft]
    split <;> omega
  exact ⟨by omega, by omega, exists_own_step
    (Machine.run_invariant (fun s e s' hs hstep => shutdown_step hs hstep) hm hrun)⟩

theorem countP_isCall_le_of_paused {m s : LoopState} {l : List LoopEvent}
    (hm : m.loop.paused = true) (hpaused : ∀ x ∈ l, x.act ≠ .resume)
    (hrun : loopMachine.run m l = some s) : l.countP isCall ≤ m.callsWhenPaused := by
  have halong : loopMachine.Along (fun _ x => x.act ≠ .resume) m l :=
    Machine.along_of_forall (fun x hx _ => hpaused x hx) m
  have hcalls : l.countP isCall + s.callsWhenPaused ≤ m.callsWhenPaused :=
    Machine.countP_add_le (P := fun s => s.loop.paused = true)
      (fun s e s' hs hact hstep => (callsWhenPaused_step hs hact hstep).1)
      (fun s e s' hs hact hstep => (callsWhenPaused_step hs hact hstep).2) hm halong hrun
  omega

/-- What other threads ask of the loop takes hold.  When the shutdown event is set, the thread
ends in at most eight steps of its own, at most one of them a call of `iterate`, and no wait
keeps it from taking one; once the loop is paused, and until it is resumed, no call begins
but the one that was about to. -/
theorem requests_hold {m s : LoopState} {l : List LoopEvent} {e : LoopEvent}
    (hrun : loopMachine.run m (e :: l) = some s) :
    (e.act = .shutdown → l.countP isOwn ≤ 8 ∧ l.countP isCall ≤ 1 ∧
      (s.phase ≠ .stopped → s.phase ≠ .died → ∃ a, LoopAct.isOwn a = true ∧
        ∀ now monotonic, s.monotonic ≤ monotonic →
          (loopMachine.step s ⟨now, monotonic, a⟩).isSome = true)) ∧
    (e.act = .pause → (∀ x ∈ l, x.act ≠ .resume) →
      l.countP isCall ≤ if m.phase = .calling then 1 else 0) := by
  obtain ⟨m', hstep, hrest⟩ := Machine.run_cons_eq_some.mp hrun
  obtain ⟨-, n, hacts, rfl⟩ := exists_acts hstep
  obtain ⟨now, monotonic, a⟩ := e
  refine ⟨?_, ?_⟩
  · rintro rfl
    cases hacts with
    | shutdown => exact shutdown_ends rfl hrest
  · rintro rfl hpaused
    cases hacts with
    | pause =>
        have hcalls := countP_isCall_le_of_paused rfl hpaused hrest
        exact hcalls

/-- A loop that is paused while it waits, and shut down while it is. -/
theorem requests_hold_waiting :
    let m : LoopState := ⟨{ trigger := .poll 1 false }, .waiting 0 1, false, 0, 0⟩
    let l : List LoopEvent := [⟨0, 0, .shutdown⟩, ⟨0, 0, .wake⟩]
    l.countP isCall ≤ if m.phase = .calling then 1 else 0 := by
  intro m l
  have hrun : loopMachine.run m (⟨0, 0, .pause⟩ :: l) = some
      ⟨{ trigger := .poll 1 false, paused := true }, .stopped, true, 0, 0⟩ := by
    decide
  exact (requests_hold hrun).2 rfl (by decide)

/-! ## The counters -/

/-- The results of the calls that have ended and were not fatal: `true` for those that
returned. -/
def results (l : List LoopEvent) : List Bool :=
  l.filterMap fun e =>
    match e.act with
    | .ends (.returned _) => some true
    | .ends .raised => some false
    | _ => none

/-- The results that have been counted. -/
def counted (l : List LoopEvent) : List Bool :=
  l.filterMap fun e =>
    match e.act with
    | .succeed => some true
    | .fail => some false
    | _ => none

/-- The result that is about to be counted. -/
def uncounted (s : LoopState) : List Bool :=
  match s.phase with
  | .succeeding _ => [true]
  | .failing => [false]
  | _ => []

/-- When the last step of a kind was. -/
def lastTime (l : List LoopEvent) (p : LoopEvent → Bool) : Option ℚ :=
  ((l.filter p).getLast?).map LoopEvent.now

/-- The value of the last pause or resume. -/
def lastPause (l : List LoopEvent) : Bool :=
  ((l.filterMap fun e =>
    match e.act with
    | .pause => some true
    | .resume => some false
    | _ => none).getLast?).getD false

def isSuccess (e : LoopEvent) : Bool := e.act = .succeed

def isEnd (e : LoopEvent) : Bool :=
  match e.act with
  | .ends _ => true
  | _ => false

/-- What `stats` shows after a run: the time of the last one, that of the last success, how
many calls have failed since, and whether the loop is paused. -/
structure Stats (l : List LoopEvent) (s : LoopState) : Prop where
  lastRunAt : s.loop.lastRunAt = lastTime l isStart
  lastSuccessAt : s.loop.lastSuccessAt = lastTime l isSuccess
  consecutiveFailures : s.loop.consecutiveFailures = ((counted l).rtakeWhile (!·)).length
  paused : s.loop.paused = lastPause l
  allCounted : results l = counted l ++ s.uncounted
  calls : l.countP isCall = l.countP isEnd + if s.phase = .iterating then 1 else 0

theorem lastTime_snoc (l : List LoopEvent) (p : LoopEvent → Bool) (e : LoopEvent) :
    lastTime (l ++ [e]) p = if p e then some e.now else lastTime l p := by
  rw [lastTime, List.filter_append, List.filter_singleton]
  cases p e with
  | false => simp [lastTime]
  | true => simp

theorem counted_snoc (l : List LoopEvent) (e : LoopEvent) :
    counted (l ++ [e]) = counted l ++ counted [e] := List.filterMap_append

theorem results_snoc (l : List LoopEvent) (e : LoopEvent) :
    results (l ++ [e]) = results l ++ results [e] := List.filterMap_append

theorem lastPause_snoc (l : List LoopEvent) (e : LoopEvent) :
    lastPause (l ++ [e]) =
      match e.act with
      | .pause => true
      | .resume => false
      | _ => lastPause l := by
  cases hact : e.act <;> simp [lastPause, hact]

theorem Stats.snoc {l : List LoopEvent} {s s' : LoopState} {e : LoopEvent} (h : Stats l s)
    (hstep : loopMachine.step s e = some s') : Stats (l ++ [e]) s' := by
  obtain ⟨hrun, hsuccess, hfailures, hpaused, hresults, hcalls⟩ := h
  obtain ⟨-, m, hacts, rfl⟩ := exists_acts hstep
  obtain ⟨now, monotonic, a⟩ := e
  refine ⟨?_, ?_, ?_, ?_, ?_, ?_⟩
  · rw [lastTime_snoc]
    cases hacts with
    | enter => rfl
    | _ => exact hrun
  · rw [lastTime_snoc]
    cases hacts with
    | succeed => rfl
    | _ => exact hsuccess
  · rw [counted_snoc]
    cases hacts with
    | succeed => simp [counted]
    | fail => simp [counted, hfailures]
    | _ => simpa [counted] using hfailures
  · rw [lastPause_snoc]
    cases hacts with
    | pause | resume => rfl
    | _ => exact hpaused
  · rw [counted_snoc, results_snoc, hresults]
    cases hacts with
    | isSet hphase => cases s.shutdown <;> simp [counted, results, uncounted, hphase]
    | due hphase =>
        cases s.loop.trigger.due now <;> simp [counted, results, uncounted, hphase]
    | enter hphase => cases s.loop.paused <;> simp [counted, results, uncounted, hphase]
    | call hphase | returned _ hphase | raised hphase | fatal hphase | succeed _ hphase
    | fail hphase | markRun _ hphase | waitSeconds hphase | stop _ _ hphase | wake _ _ hphase =>
        simp [counted, results, uncounted, hphase]
    | pause | resume | shutdown => simp [counted, results, uncounted]
  · rw [List.countP_append, List.countP_append, hcalls]
    cases hacts with
    | isSet hphase => cases s.shutdown <;> simp [isCall, isEnd, hphase]
    | due hphase => cases s.loop.trigger.due now <;> simp [isCall, isEnd, hphase]
    | enter hphase => cases s.loop.paused <;> simp [isCall, isEnd, hphase]
    | call hphase | returned _ hphase | raised hphase | fatal hphase | succeed _ hphase
    | fail hphase | markRun _ hphase | waitSeconds hphase | stop _ _ hphase | wake _ _ hphase =>
        simp [isCall, isEnd, hphase]
    | pause | resume | shutdown => simp [isCall, isEnd]

/-- After every run, at any point of an iteration, the counters are those of the calls that
have been counted, and all that have ended have been, but for the last one at most. -/
theorem stats_exact {trigger : Trigger} {now monotonic : ℚ} {l : List LoopEvent} {s : LoopState}
    (hrun : loopMachine.run (start trigger now monotonic) l = some s) : Stats l s := by
  induction l using List.reverseRecOn generalizing s with
  | nil =>
      obtain rfl : start trigger now monotonic = s := by simpa using hrun
      exact ⟨rfl, rfl, rfl, rfl, rfl, rfl⟩
  | append_singleton l e ih =>
      obtain ⟨m, hm, hstep⟩ := Machine.run_snoc_eq_some.mp hrun
      exact (ih hm).snoc hstep

/-- A call that fails before the loop is paused. -/
theorem stats_failedThenPaused : Stats
    ([⟨0, 0, .isSet⟩, ⟨0, 0, .due⟩] ++ ⟨1, 1, .enter⟩ :: (failedThenPaused ++ [⟨16, 16, .enter⟩]))
    ⟨⟨.interval 10 (some 5), true, some 16, none, 1⟩, .marking false, false, 16, 16⟩ := by
  have hrun : loopMachine.run (start (.interval 10 none) 0 0)
      ([⟨0, 0, .isSet⟩, ⟨0, 0, .due⟩] ++ ⟨1, 1, .enter⟩ ::
        (failedThenPaused ++ [⟨16, 16, .enter⟩])) =
      some ⟨⟨.interval 10 (some 5), true, some 16, none, 1⟩, .marking false, false, 16, 16⟩ := by
    decide +kernel
  exact stats_exact hrun

end LoopState

end RerollSync.Stages
