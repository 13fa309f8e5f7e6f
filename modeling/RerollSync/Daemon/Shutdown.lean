import RerollSync.Daemon.HandoffDrain
import RerollSync.Stages.StageLoop
import RerollSync.Support.Table

/-!
# The daemon's threads and their shutdown

`Daemon.shutdown` runs its sequence among the loops of the stages, the archive thread, the
fetch stage's calls of `put` and the commands of the control socket.
-/

namespace RerollSync.Daemon

open RerollSync.Support RerollSync.Fetch RerollSync.Stages

variable {α : Type}

/-- A thread that `shutdown` joins. -/
inductive ServiceThread
  | stage (name : String)
  | archive
deriving DecidableEq

/-- The statements of `shutdown`, in which `release` closes the client, the pools, the segment
file and the connections. -/
inductive ShutdownAction
  | restrict
  | setEvent
  | setDeadline
  | join (thread : ServiceThread)
  | closeQueue
  | stopWriter
  | stopControl
  | stopMetrics
  | release
  | setStopped
deriving DecidableEq

/-- Who submits to the writer: a stage inside `iterate`, the archive thread inside
`process_one`, or a command of the control socket. -/
inductive Submitter
  | stage (name : String)
  | archive
  | command
deriving DecidableEq

/-- The daemon once it has started.  `todo` is what a `shutdown` that has begun has still to
do, `waiting` is when the join it is in gives up, and `gaveUp` is whether one has. -/
structure Service (α : Type) where
  loops : Table String LoopState
  handoff : Handoff α
  commands : ℕ := 0
  restricted : Bool := false
  eventSet : Bool := false
  writerStopped : Bool := false
  deadline : ℚ := 0
  todo : Option (List ShutdownAction) := none
  done : List ShutdownAction := []
  waiting : Option ℚ := none
  gaveUp : Bool := false
  refused : List Submitter := []

inductive ServiceEvent (α : Type)
  | loop (name : String) (e : LoopEvent)
  | handoff (e : HandoffEvent α)
  | submit (who : Submitter)
  | command
  | commandEnds
  | callShutdown
  | shutdownStep (now monotonic : ℚ)
deriving DecidableEq

/-- `SHUTDOWN_GRACE_SECONDS`. -/
def shutdownGraceSeconds : ℚ := 30

/-- The sequence of `shutdown`, for the stages that have threads. -/
def shutdownSequence (names : List String) : List ShutdownAction :=
  [.restrict, .setEvent, .setDeadline, .join (.stage "fetch"), .closeQueue] ++
  (names.filter (· ≠ "fetch")).map (fun name => .join (.stage name)) ++
  [.join .archive, .stopWriter, .stopControl, .stopMetrics, .release, .setStopped]

/-- The thread of the fetch stage among the users of the handoff queue. -/
def fetchThread : ℕ := 1

namespace Service

/-- The loop of a stage has a thread that has not ended. -/
def loopEnded (s : LoopState) : Bool := s.phase = .stopped ∨ s.phase = .died

def iterating (s : Service α) (name : String) : Bool :=
  match s.loops.get? name with
  | none => false
  | some loop => loop.phase = .iterating

def hasArchive (s : Service α) : Bool := (s.loops.get? "fetch").isSome

/-- The archive thread has come to its end. -/
def pointEnded : ArchivePoint α → Bool
  | .stopped | .crashed => true
  | _ => false

/-- A thread has ended, or there is none. -/
def ended (s : Service α) : ServiceThread → Bool
  | .stage name => (s.loops.get? name).all loopEnded
  | .archive => !s.hasArchive || pointEnded s.handoff.point

/-- Whether a step of the users of the handoff queue can be taken now.  Only `fetch` calls
`put`, inside of `iterate`, and only `shutdown` calls `close`. -/
def allows (s : Service α) : HandoffEvent α → Bool
  | .put thread _ _ => thread = fetchThread ∧ s.iterating "fetch"
  | .resume thread => thread = fetchThread
  | .wake _ => true
  | .close => false
  | .readPaused _ shutdown => s.hasArchive ∧ shutdown = s.eventSet
  | _ => s.hasArchive

/-- A call of `put` is under way. -/
def putting (s : Service α) : Bool := (s.handoff.traffic.calls fetchThread).isSome

def submits (s : Service α) : Submitter → Bool
  | .stage name => s.iterating name
  | .archive =>
      match s.handoff.point with
      | .processing _ => s.hasArchive
      | _ => false
  | .command => 0 < s.commands

/-- What is left to do once the first of it is done. -/
def advance (s : Service α) (action : ShutdownAction) (rest : List ShutdownAction) : Service α :=
  { s with todo := some rest, done := s.done ++ [action] }

/-- `Daemon.shutdown`, from one statement to the next. -/
def shutdownStep (s : Service α) (now monotonic : ℚ) : Option (Service α) :=
  match s.todo with
  | none => none
  | some [] => none
  | some (action :: rest) =>
      match action with
      | .restrict => some { s.advance action rest with restricted := true }
      | .setEvent =>
          some
            { s.advance action rest with
              eventSet := true
              loops := s.loops.modify fun _ loop => { loop with shutdown := true } }
      | .setDeadline => some { s.advance action rest with deadline := now + shutdownGraceSeconds }
      | .join thread =>
          match s.waiting with
          | none => some { s with waiting := some (monotonic + max 0 (s.deadline - now)) }
          | some limit =>
              if s.ended thread then some { s.advance action rest with waiting := none }
              else if limit ≤ monotonic then
                some { s.advance action rest with waiting := none, gaveUp := true }
              else none
      | .closeQueue =>
          some { s.advance action rest with
            handoff := { s.handoff with traffic := s.handoff.traffic.close } }
      | .stopWriter => some { s.advance action rest with writerStopped := true }
      | .stopControl => if s.commands = 0 then some (s.advance action rest) else none
      | .stopMetrics => some (s.advance action rest)
      | .release => some (s.advance action rest)
      | .setStopped => some (s.advance action rest)

def step (s : Service α) : ServiceEvent α → Option (Service α)
  | .loop name e =>
      if e.act = .shutdown then none
      else
        match s.loops.get? name with
        | none => none
        | some loop =>
            -- an `iterate` does not end in the middle of a `put`
            if name = "fetch" ∧ loop.phase = .iterating ∧ e.act.isOwn ∧ s.putting then none
            else
              (loopMachine.step loop e).map fun loop => { s with loops := s.loops.set name loop }
  | .handoff e =>
      if s.allows e then (s.handoff.step e).map fun handoff => { s with handoff := handoff }
      else none
  | .submit who =>
      if s.submits who then
        some (if s.writerStopped then { s with refused := s.refused ++ [who] } else s)
      else none
  | .command => if s.restricted then none else some { s with commands := s.commands + 1 }
  | .commandEnds => if 0 < s.commands then some { s with commands := s.commands - 1 } else none
  | .callShutdown =>
      match s.todo with
      | some _ => some s
      | none => some { s with todo := some (shutdownSequence s.loops.keys) }
  | .shutdownStep now monotonic => s.shutdownStep now monotonic

def machine : Machine (Service α) (ServiceEvent α) := ⟨step⟩

/-- The daemon that `start` leaves, with the stages that could be built. -/
def start (stages : Table String Trigger) (now monotonic : ℚ) (queue : ByteBudgetedQueue α) :
    Service α where
  loops := stages.modify fun _ trigger => .start trigger now monotonic
  handoff := .start queue

end Service

end RerollSync.Daemon
