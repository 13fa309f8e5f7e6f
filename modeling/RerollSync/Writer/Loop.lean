import Mathlib.Algebra.Order.Ring.Rat
import RerollSync.Support.Machine
import RerollSync.Writer.Batch

/-!
# The writer and its callers

`Writer.submit`, `submit_and_wait`, `stop`, `_run`, `_fail_fatally` and
`_discard_pending` as a state machine.  A caller takes `_lifecycle_lock`, tests
`_stopped`, puts its op while still holding the lock, and then waits for its
event; the writer thread runs its loop.  One event is one step of one thread
between two accesses to what the threads share: the lock, the flags and the
queue.  A step of the writer takes the clock readings it makes and the number of
the sqlite statement that raises in it, if any.

An accepted op is known by its ticket, its position in the order of acceptance.
-/

namespace RerollSync.Writer

open RerollSync.Support

structure Config where
  batchSize : ℕ
  batchInterval : ℚ
  checkpointInterval : ℚ
  vacuumInterval : ℚ
  queueMaxsize : ℕ

/-- What a caller's thread is about to do. -/
inductive Caller (σ ε β : Type)
  | submitting (op : WriteOp σ ε β) (waits : Bool)
  | putting (op : WriteOp σ ε β) (waits : Bool)
  | waiting (ticket : ℕ)
  | stopping (drain : Bool)
  | signalling
  | joining
  | returned
  | refused
  | answered (outcome : Outcome ε β)

/-- Where the writer's thread is.  `ended` is the end of `_run`; `died` is an
exception that left it. -/
inductive Pc
  | get
  | decide
  | commit
  | refresh
  | housekeep
  | resolve
  | stopCheck
  | discard
  | finish
  | fatalLock
  | fatalResolve
  | ended
  | died
deriving DecidableEq

/-- The writer, its callers, and the history of what was accepted, committed and
resolved. -/
structure State (σ ε β : Type) where
  queue : List (WriteOp σ ε β × ℕ)
  lock : Option ℕ
  stopped : Bool
  drainOnStop : Bool
  stopRequested : Bool
  callers : List (Caller σ ε β)
  pc : Pc
  batch : List (WriteOp σ ε β × ℕ)
  batchDeadline : Option ℚ
  lastCheckpointCheck : ℚ
  lastVacuumCheck : ℚ
  sawStop : Bool
  flushed : List (ℕ × Outcome ε β)
  conn : Connection σ
  accepted : List (WriteOp σ ε β)
  committed : List (ℕ × Outcome ε β)
  resolved : List (ℕ × Outcome ε β)

/-- What the world adds to a step of the writer's thread. -/
structure Input where
  now : ℕ → ℚ
  failAt : Option ℕ

inductive Event (σ ε β : Type)
  | submit (op : WriteOp σ ε β)
  | submitAndWait (op : WriteOp σ ε β)
  | stop (drain : Bool)
  | caller (i : ℕ)
  | writer (input : Input)

variable {σ ε β : Type}

namespace State

/-- A started writer over `db`, at the top of its loop. -/
def create (db : σ) (now : ℚ) : State σ ε β where
  queue := []
  lock := none
  stopped := false
  drainOnStop := true
  stopRequested := false
  callers := []
  pc := .get
  batch := []
  batchDeadline := none
  lastCheckpointCheck := now
  lastVacuumCheck := now
  sawStop := false
  flushed := []
  conn := .idle db
  accepted := []
  committed := []
  resolved := []

/-- `queue.Queue.full`; a queue of size zero is unbounded. -/
def full (cfg : Config) (s : State σ ε β) : Prop :=
  0 < cfg.queueMaxsize ∧ cfg.queueMaxsize ≤ s.queue.length

instance (cfg : Config) (s : State σ ε β) : Decidable (s.full cfg) :=
  inferInstanceAs (Decidable (_ ∧ _))

/-- Resolve the listed ops with one exception. -/
def failAll (e : Raised ε) (ops : List (WriteOp σ ε β × ℕ)) : List (ℕ × Outcome ε β) :=
  ops.map fun op => (op.2, .exception e)

/-- One step of the caller at position `i`; `none` means blocked or finished. -/
def callerStep (cfg : Config) (s : State σ ε β) (i : ℕ) : Option (State σ ε β) :=
  match s.callers[i]? with
  | none => none
  | some (.submitting op waits) =>
      if s.lock ≠ none then none
      else if s.stopped then some { s with callers := s.callers.set i .refused }
      else some { s with lock := some i, callers := s.callers.set i (.putting op waits) }
  | some (.putting op waits) =>
      if s.full cfg then none
      else
        let ticket := s.accepted.length
        some
          { s with
            queue := s.queue ++ [(op, ticket)]
            accepted := s.accepted ++ [op]
            lock := none
            callers := s.callers.set i (if waits then .waiting ticket else .returned) }
  | some (.waiting ticket) =>
      match s.resolved.find? fun r => r.1 = ticket with
      | none => none
      | some r => some { s with callers := s.callers.set i (.answered r.2) }
  | some (.stopping drain) =>
      if s.lock ≠ none then none
      else if s.stopped then some { s with callers := s.callers.set i .returned }
      else
        some
          { s with
            drainOnStop := drain
            stopped := true
            callers := s.callers.set i .signalling }
  | some .signalling =>
      some { s with stopRequested := true, callers := s.callers.set i .joining }
  | some .joining =>
      if s.pc = .ended ∨ s.pc = .died then some { s with callers := s.callers.set i .returned }
      else none
  | some .returned => none
  | some .refused => none
  | some (.answered _) => none

/-- The number of `PRAGMA` statements a pass of the loop executes between the
batch and its resolution: two for a checkpoint and two for a vacuum, when due. -/
def pragmasDue (cfg : Config) (s : State σ ε β) (now : ℕ → ℚ) : ℕ :=
  if s.batch = [] then
    (if cfg.checkpointInterval ≤ now 0 - s.lastCheckpointCheck then 2 else 0) +
      (if cfg.vacuumInterval ≤ now 2 - s.lastVacuumCheck then 2 else 0)
  else 0

/-- One of the first `n` statements of the step raises. -/
def raisesWithin (input : Input) (n : ℕ) : Prop := ∃ k, input.failAt = some k ∧ k < n

instance (input : Input) (n : ℕ) : Decidable (raisesWithin input n) :=
  match h : input.failAt with
  | none => isFalse (by simp [raisesWithin, h])
  | some k => decidable_of_iff (k < n) (by simp [raisesWithin, h])

/-- Whether the pass of the loop commits its batch. -/
def flushes (cfg : Config) (s : State σ ε β) (now : ℚ) : Bool :=
  let sizeReached := decide (cfg.batchSize ≤ s.batch.length)
  let intervalElapsed :=
    match s.batchDeadline with
    | none => false
    | some deadline => decide (deadline ≤ now)
  let drainFlush := s.stopRequested && s.drainOnStop && !s.batch.isEmpty && s.queue.isEmpty
  !s.batch.isEmpty && (sizeReached || intervalElapsed || drainFlush)

/-- One step of the writer's thread; `none` means blocked or ended. -/
def writerStep (cfg : Config) (s : State σ ε β) (input : Input) : Option (State σ ε β) :=
  match s.pc with
  | .get =>
      match s.queue with
      | [] => some { s with pc := .decide }
      | op :: queue =>
          some
            { s with
              queue := queue
              batch := s.batch ++ [op]
              batchDeadline := some (s.batchDeadline.getD (input.now 0 + cfg.batchInterval))
              pc := .decide }
  | .decide =>
      some
        { s with
          sawStop := s.stopRequested
          pc := if s.flushes cfg (input.now 0) then .commit else .housekeep }
  | .commit =>
      match commitBatch input.failAt (s.batch.map Prod.fst) ⟨s.conn, 0⟩ with
      | .error _ x => some { s with conn := x.conn, pc := .fatalLock }
      | .ok outcomes x =>
          let told := (s.batch.map Prod.snd).zip outcomes
          some
            { s with
              conn := x.conn
              committed := s.committed ++ told
              flushed := told
              batch := []
              batchDeadline := none
              pc := .refresh }
  | .refresh =>
      if raisesWithin input 1 then some { s with pc := .died }
      else some { s with pc := .housekeep }
  | .housekeep =>
      if raisesWithin input (s.pragmasDue cfg input.now) then some { s with pc := .died }
      else
        some
          { s with
            lastCheckpointCheck :=
              if s.batch = [] ∧ cfg.checkpointInterval ≤ input.now 0 - s.lastCheckpointCheck
              then input.now 1 else s.lastCheckpointCheck
            lastVacuumCheck :=
              if s.batch = [] ∧ cfg.vacuumInterval ≤ input.now 2 - s.lastVacuumCheck
              then input.now 3 else s.lastVacuumCheck
            pc := .resolve }
  | .resolve =>
      some { s with resolved := s.resolved ++ s.flushed, flushed := [], pc := .stopCheck }
  | .stopCheck =>
      if s.sawStop then
        if s.drainOnStop then
          if s.queue = [] ∧ s.batch = [] then some { s with pc := .finish }
          else some { s with pc := .get }
        else some { s with pc := .discard }
      else some { s with pc := .get }
  | .discard =>
      some
        { s with
          resolved := s.resolved ++ failAll .stopped (s.batch ++ s.queue)
          batch := []
          queue := []
          pc := .finish }
  | .finish =>
      -- The last checkpoint may raise; closing an idle connection changes nothing.
      some { s with pc := .ended }
  | .fatalLock =>
      if s.lock ≠ none then none
      else some { s with stopped := true, stopRequested := true, pc := .fatalResolve }
  | .fatalResolve =>
      some
        { s with
          resolved := s.resolved ++ (failAll .sqlite s.batch ++ failAll .stopped s.queue)
          batch := []
          queue := []
          conn := s.conn.close
          pc := .ended }
  | .ended => none
  | .died => none

def step (cfg : Config) (s : State σ ε β) : Event σ ε β → Option (State σ ε β)
  | .submit op => some { s with callers := s.callers ++ [.submitting op false] }
  | .submitAndWait op => some { s with callers := s.callers ++ [.submitting op true] }
  | .stop drain => some { s with callers := s.callers ++ [.stopping drain] }
  | .caller i => s.callerStep cfg i
  | .writer input => s.writerStep cfg input

/-- The writer configured by `cfg` with its callers. -/
def machine (σ ε β : Type) (cfg : Config) : Machine (State σ ε β) (Event σ ε β) := ⟨step cfg⟩

/-! ## What a step can do -/

/-- Everything one step of a caller can do. -/
inductive CallerMove (cfg : Config) (s : State σ ε β) (i : ℕ) : State σ ε β → Prop
  | refuse {op waits} (hc : s.callers[i]? = some (.submitting op waits)) (hlock : s.lock = none)
      (hstop : s.stopped = true) :
      CallerMove cfg s i { s with callers := s.callers.set i .refused }
  | enter {op waits} (hc : s.callers[i]? = some (.submitting op waits)) (hlock : s.lock = none)
      (hstop : s.stopped = false) :
      CallerMove cfg s i
        { s with lock := some i, callers := s.callers.set i (.putting op waits) }
  | put {op waits} (hc : s.callers[i]? = some (.putting op waits)) (hroom : ¬s.full cfg) :
      CallerMove cfg s i
        { s with
          queue := s.queue ++ [(op, s.accepted.length)]
          accepted := s.accepted ++ [op]
          lock := none
          callers := s.callers.set i (if waits then .waiting s.accepted.length else .returned) }
  | answer {ticket r} (hc : s.callers[i]? = some (.waiting ticket)) (hr : r ∈ s.resolved)
      (hticket : r.1 = ticket) :
      CallerMove cfg s i { s with callers := s.callers.set i (.answered r.2) }
  | alreadyStopped {drain} (hc : s.callers[i]? = some (.stopping drain)) (hlock : s.lock = none)
      (hstop : s.stopped = true) :
      CallerMove cfg s i { s with callers := s.callers.set i .returned }
  | markStopped {drain} (hc : s.callers[i]? = some (.stopping drain)) (hlock : s.lock = none)
      (hstop : s.stopped = false) :
      CallerMove cfg s i
        { s with
          drainOnStop := drain
          stopped := true
          callers := s.callers.set i .signalling }
  | signal (hc : s.callers[i]? = some .signalling) :
      CallerMove cfg s i { s with stopRequested := true, callers := s.callers.set i .joining }
  | join (hc : s.callers[i]? = some .joining) (hend : s.pc = .ended ∨ s.pc = .died) :
      CallerMove cfg s i { s with callers := s.callers.set i .returned }

theorem callerStep_move {cfg : Config} {s s' : State σ ε β} {i : ℕ}
    (h : s.callerStep cfg i = some s') : CallerMove cfg s i s' := by
  unfold callerStep at h
  split at h
  next => cases h
  next op waits hc =>
    split at h
    next => cases h
    next hlock =>
      rw [not_not] at hlock
      split at h
      next hstop =>
        obtain rfl := Option.some.inj h
        exact .refuse hc hlock hstop
      next hstop =>
        obtain rfl := Option.some.inj h
        exact .enter hc hlock (by simpa using hstop)
  next op waits hc =>
    split at h
    next => cases h
    next hroom =>
      obtain rfl := Option.some.inj h
      exact .put hc hroom
  next ticket hc =>
    split at h
    next => cases h
    next r hr =>
      obtain rfl := Option.some.inj h
      exact .answer hc (List.mem_of_find?_eq_some hr) (by simpa using List.find?_some hr)
  next drain hc =>
    split at h
    next => cases h
    next hlock =>
      rw [not_not] at hlock
      split at h
      next hstop =>
        obtain rfl := Option.some.inj h
        exact .alreadyStopped hc hlock hstop
      next hstop =>
        obtain rfl := Option.some.inj h
        exact .markStopped hc hlock (by simpa using hstop)
  next hc =>
    obtain rfl := Option.some.inj h
    exact .signal hc
  next hc =>
    split at h
    next hend =>
      obtain rfl := Option.some.inj h
      exact .join hc hend
    next => cases h
  next => cases h
  next => cases h
  next => cases h

/-- Everything one step of the writer's thread can do. -/
inductive WriterMove (cfg : Config) (s : State σ ε β) (input : Input) : State σ ε β → Prop
  | timesOut (hpc : s.pc = .get) (hqueue : s.queue = []) :
      WriterMove cfg s input { s with pc := .decide }
  | takes {op queue} (hpc : s.pc = .get) (hqueue : s.queue = op :: queue) :
      WriterMove cfg s input
        { s with
          queue := queue
          batch := s.batch ++ [op]
          batchDeadline := some (s.batchDeadline.getD (input.now 0 + cfg.batchInterval))
          pc := .decide }
  | decides (hpc : s.pc = .decide) :
      WriterMove cfg s input
        { s with
          sawStop := s.stopRequested
          pc := if s.flushes cfg (input.now 0) then .commit else .housekeep }
  | commitRaises {x} (hpc : s.pc = .commit)
      (hbatch : commitBatch input.failAt (s.batch.map Prod.fst) ⟨s.conn, 0⟩ = .error () x) :
      WriterMove cfg s input { s with conn := x.conn, pc := .fatalLock }
  | commits {outcomes x} (hpc : s.pc = .commit)
      (hbatch : commitBatch input.failAt (s.batch.map Prod.fst) ⟨s.conn, 0⟩ = .ok outcomes x) :
      WriterMove cfg s input
        { s with
          conn := x.conn
          committed := s.committed ++ (s.batch.map Prod.snd).zip outcomes
          flushed := (s.batch.map Prod.snd).zip outcomes
          batch := []
          batchDeadline := none
          pc := .refresh }
  | refreshRaises (hpc : s.pc = .refresh) (hraise : raisesWithin input 1) :
      WriterMove cfg s input { s with pc := .died }
  | refreshes (hpc : s.pc = .refresh) :
      WriterMove cfg s input { s with pc := .housekeep }
  | housekeepRaises (hpc : s.pc = .housekeep)
      (hraise : raisesWithin input (s.pragmasDue cfg input.now)) :
      WriterMove cfg s input { s with pc := .died }
  | housekeeps {lastCheckpointCheck lastVacuumCheck} (hpc : s.pc = .housekeep) :
      WriterMove cfg s input
        { s with
          lastCheckpointCheck := lastCheckpointCheck
          lastVacuumCheck := lastVacuumCheck
          pc := .resolve }
  | resolves (hpc : s.pc = .resolve) :
      WriterMove cfg s input
        { s with resolved := s.resolved ++ s.flushed, flushed := [], pc := .stopCheck }
  | continues (hpc : s.pc = .stopCheck) : WriterMove cfg s input { s with pc := .get }
  | drained (hpc : s.pc = .stopCheck) (hsaw : s.sawStop = true) (hqueue : s.queue = [])
      (hbatch : s.batch = []) : WriterMove cfg s input { s with pc := .finish }
  | givesUp (hpc : s.pc = .stopCheck) (hsaw : s.sawStop = true) (hdrain : s.drainOnStop = false) :
      WriterMove cfg s input { s with pc := .discard }
  | discards (hpc : s.pc = .discard) :
      WriterMove cfg s input
        { s with
          resolved := s.resolved ++ failAll .stopped (s.batch ++ s.queue)
          batch := []
          queue := []
          pc := .finish }
  | finishes (hpc : s.pc = .finish) : WriterMove cfg s input { s with pc := .ended }
  | locks (hpc : s.pc = .fatalLock) (hlock : s.lock = none) :
      WriterMove cfg s input
        { s with stopped := true, stopRequested := true, pc := .fatalResolve }
  | failsAll (hpc : s.pc = .fatalResolve) :
      WriterMove cfg s input
        { s with
          resolved := s.resolved ++ (failAll .sqlite s.batch ++ failAll .stopped s.queue)
          batch := []
          queue := []
          conn := s.conn.close
          pc := .ended }

theorem writerStep_move {cfg : Config} {s s' : State σ ε β} {input : Input}
    (h : s.writerStep cfg input = some s') : WriterMove cfg s input s' := by
  unfold writerStep at h
  split at h
  next hpc =>
    split at h
    next hqueue =>
      obtain rfl := Option.some.inj h
      exact .timesOut hpc hqueue
    next op queue hqueue =>
      obtain rfl := Option.some.inj h
      exact .takes hpc hqueue
  next hpc =>
    obtain rfl := Option.some.inj h
    exact .decides hpc
  next hpc =>
    split at h
    next x hbatch =>
      obtain rfl := Option.some.inj h
      exact .commitRaises hpc hbatch
    next outcomes x hbatch =>
      obtain rfl := Option.some.inj h
      exact .commits hpc hbatch
  next hpc =>
    split at h
    next hraise =>
      obtain rfl := Option.some.inj h
      exact .refreshRaises hpc hraise
    next =>
      obtain rfl := Option.some.inj h
      exact .refreshes hpc
  next hpc =>
    split at h
    next hraise =>
      obtain rfl := Option.some.inj h
      exact .housekeepRaises hpc hraise
    next =>
      obtain rfl := Option.some.inj h
      exact .housekeeps hpc
  next hpc =>
    obtain rfl := Option.some.inj h
    exact .resolves hpc
  next hpc =>
    split at h
    next hsaw =>
      split at h
      next =>
        split at h
        next hempty =>
          obtain rfl := Option.some.inj h
          exact .drained hpc hsaw hempty.1 hempty.2
        next =>
          obtain rfl := Option.some.inj h
          exact .continues hpc
      next hdrain =>
        obtain rfl := Option.some.inj h
        exact .givesUp hpc hsaw (by simpa using hdrain)
    next =>
      obtain rfl := Option.some.inj h
      exact .continues hpc
  next hpc =>
    obtain rfl := Option.some.inj h
    exact .discards hpc
  next hpc =>
    obtain rfl := Option.some.inj h
    exact .finishes hpc
  next hpc =>
    split at h
    next => cases h
    next hlock =>
      obtain rfl := Option.some.inj h
      exact .locks hpc (not_not.mp hlock)
  next hpc =>
    obtain rfl := Option.some.inj h
    exact .failsAll hpc
  next => cases h
  next => cases h

end State

end RerollSync.Writer
