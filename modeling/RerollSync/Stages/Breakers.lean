import RerollSync.Breaker.CircuitBreaker
import RerollSync.Ingest.StaleProjects
import RerollSync.Ingest.IndexPoll
import RerollSync.Stages.FetchStage
import RerollSync.Support.Machine

/-!
# The stages and their breakers

`FetchStage` has a breaker for the files host; `IndexPollStage` and
`ProjectSyncStage` share the one for the index.  An iteration asks its breaker to
begin, and tells it a result at its end or nothing at all.  The stages run on threads
of their own, so the iterations of two stages overlap in any way.
-/

namespace RerollSync.Breaker.CircuitBreaker

/-- Calls are admitted from some time on, and at once in the half-open state. -/
structure Admits (b : CircuitBreaker) : Prop where
  halfOpen : b.state = .halfOpen → ∀ now, (b.allow now).1 = true
  recovers : ∃ t, ∀ now, t ≤ now → (b.allow now).1 = true

theorem admits_iff {b : CircuitBreaker} : b.Admits ↔ b.halfOpenTrialInFlight = false := by
  constructor
  · intro h
    obtain ⟨t, ht⟩ := h.recovers
    by_contra htrial
    have hadmitted := ht t le_rfl
    rw [allow_of_trial (by simpa using htrial)] at hadmitted
    cases hadmitted
  · intro htrial
    refine ⟨fun hstate now => ?_, b.openedAt.getD 0 + b.recoveryTimeout, fun now hnow => ?_⟩
    · unfold allow
      split
      · rfl
      · next hopened => simp [hopened] at hstate
      · rw [if_neg (by simp [htrial])]
    · unfold allow
      split
      · rfl
      · next hopened =>
          have hdue : b.recoveryDueLocked hopened now = true := by
            obtain ⟨opened, hat⟩ := Option.isSome_iff_exists.mp (b.openedAt_isSome hopened)
            rw [hat, Option.getD_some] at hnow
            simpa [recoveryDueLocked, hat, le_sub_iff_add_le'] using hnow
          rw [if_pos hdue]
      · rw [if_neg (by simp [htrial])]

end RerollSync.Breaker.CircuitBreaker

namespace RerollSync.Stages

open RerollSync.Store RerollSync.Support RerollSync.Breaker RerollSync.Ingest

/-- What an iteration tells its breaker. -/
def Verdict.tell (b : CircuitBreaker) (now : ℚ) : Option Verdict → CircuitBreaker
  | none => b
  | some .success => b.recordSuccess
  | some .failure => b.recordFailure now

theorem trial_tell (b : CircuitBreaker) (now : ℚ) (v : Option Verdict) :
    (Verdict.tell b now v).halfOpenTrialInFlight = false ↔
      (b.halfOpenTrialInFlight = true → v.isSome = true) := by
  cases v with
  | none => simp [Verdict.tell]
  | some v =>
      cases v with
      | success => simp [Verdict.tell, b.trial_recordSuccess]
      | failure => simp [Verdict.tell, b.trial_recordFailure]

/-! ## The index stages -/

/-- What `poll_index` returns, or the kind of the exception that it raises. -/
inductive PollAnswer
  | answered (result : PollResult)
  | rateLimited
  | transientError
  | protocolError
  | notFound
  | raised (exception : String)
deriving DecidableEq

/-- What `IndexPollStage.iterate` tells the breaker. -/
def PollAnswer.verdict : PollAnswer → Option Verdict
  | .answered _ => some .success
  | .rateLimited => none
  | .transientError => some .failure
  | .protocolError => some .failure
  | .notFound => some .failure
  | .raised _ => none

/-- The names that `IndexPollStage.iterate` enqueues. -/
def PollAnswer.enqueued : PollAnswer → List String
  | .answered result => if result.notModified then [] else result.staleProjects
  | _ => []

/-- `succeeded_anything`. -/
def succeededAnything (summary : IngestSummary) : Bool :=
  summary.inserted ≠ 0 ∨ summary.updated ≠ 0 ∨ summary.tombstoned ≠ 0 ∨ summary.projectsGone ≠ 0

/-- What `ProjectSyncStage.iterate` tells the breaker. -/
def syncVerdict (summary : IngestSummary) : Option Verdict :=
  if summary.retried ≠ [] ∧ succeededAnything summary = false then some .failure
  else if succeededAnything summary then some .success
  else none

namespace ProjectSyncStage

/-- `enqueue`. -/
def enqueue (pending : List String) (name : String) : List String :=
  if name ∈ pending then pending else pending ++ [name]

/-- `_drain`: the names drained, and those that stay pending. -/
def drain (limit : ℕ) (pending : List String) : List String × List String :=
  (pending.take limit, pending.drop limit)

/-- `_requeue`. -/
def requeue (pending names : List String) : List String := names.foldl enqueue pending

end ProjectSyncStage

/-! ## Iterations -/

/-- The two breakers, the names pending, and the iterations that a breaker has let
begin: a sync has the names it drained. -/
structure StageState where
  files : CircuitBreaker
  pypi : CircuitBreaker
  batchLimit : ℕ
  pending : List String := []
  fetching : Bool := false
  polling : Bool := false
  syncing : Option (List String) := none
deriving DecidableEq

/-- An iteration begins, or ends with what its calls returned; `none` for a sync that
lets an exception through. -/
inductive StageEvent
  | fetch (diskPaused : Bool) (now : ℚ)
  | fetched (turn : FetchTurn) (claimDb rowsDb : Db) (side : FetchSide) (now : ℚ)
  | poll (now : ℚ)
  | polled (answer : PollAnswer) (now : ℚ)
  | sync (now : ℚ)
  | synced (summary : Option IngestSummary) (now : ℚ)

namespace StageState

/-- New breakers, and no iteration begun. -/
def create (files pypi : ℤ × ℚ) (batchLimit : ℕ) : StageState where
  files := .create files.1 files.2
  pypi := .create pypi.1 pypi.2
  batchLimit := batchLimit

/-- `FetchStage.iterate` up to `allow`. -/
def beginFetch (s : StageState) (diskPaused : Bool) (now : ℚ) : StageState :=
  if diskPaused then s
  else { s with files := (s.files.allow now).2, fetching := (s.files.allow now).1 }

/-- `IndexPollStage.iterate` up to `allow`. -/
def beginPoll (s : StageState) (now : ℚ) : StageState :=
  { s with pypi := (s.pypi.allow now).2, polling := (s.pypi.allow now).1 }

/-- `ProjectSyncStage.iterate` up to `allow`. -/
def beginSync (s : StageState) (now : ℚ) : StageState :=
  let drained := ProjectSyncStage.drain s.batchLimit s.pending
  if drained.1 = [] then s
  else if (s.pypi.allow now).1 then
    { s with
      pypi := (s.pypi.allow now).2
      pending := drained.2
      syncing := some drained.1 }
  else
    { s with
      pypi := (s.pypi.allow now).2
      pending := ProjectSyncStage.requeue drained.2 drained.1 }

/-- A stage is one thread: its iterations do not overlap. -/
def step (s : StageState) : StageEvent → Option StageState
  | .fetch diskPaused now => if s.fetching then none else some (s.beginFetch diskPaused now)
  | .fetched turn claimDb rowsDb side now =>
      if s.fetching then
        some { s with
          files := Verdict.tell s.files now
            (FetchStage.claimAndDispatch turn claimDb rowsDb side).verdict
          fetching := false }
      else none
  | .poll now => if s.polling then none else some (s.beginPoll now)
  | .polled answer now =>
      if s.polling then
        some { s with
          pypi := Verdict.tell s.pypi now answer.verdict
          pending := answer.enqueued.foldl ProjectSyncStage.enqueue s.pending
          polling := false }
      else none
  | .sync now => if s.syncing.isSome then none else some (s.beginSync now)
  | .synced summary now =>
      if s.syncing.isSome then
        some { s with
          pypi := Verdict.tell s.pypi now (summary.bind syncVerdict)
          syncing := none }
      else none

def machine : Machine StageState StageEvent := ⟨step⟩

/-- A breaker that no iteration has begun on admits calls. -/
structure Served (s : StageState) : Prop where
  files : s.fetching = false → s.files.Admits
  pypi : s.polling = false → s.syncing = none → s.pypi.Admits

/-- The last iteration to end on a breaker whose half-open trial is in flight has a
result to tell: a download was answered or failed and nothing raised, a poll was
answered or failed and was not rate limited, a sync returned with a project that was
changed, was gone or is to be retried. -/
def TellsOnTrial (s : StageState) : StageEvent → Prop
  | .fetched turn claimDb rowsDb side _ =>
      s.files.halfOpenTrialInFlight = true → FetchStage.TellsBreaker turn claimDb rowsDb side
  | .polled answer _ => s.syncing = none → s.pypi.halfOpenTrialInFlight = true →
      answer ≠ .rateLimited ∧ ∀ exception, answer ≠ .raised exception
  | .synced summary _ => s.polling = false → s.pypi.halfOpenTrialInFlight = true →
      ∃ done, summary = some done ∧ (done.retried ≠ [] ∨ succeededAnything done = true)
  | _ => True

/-! ## What the breakers are told -/

theorem served_iff {s : StageState} : s.Served ↔
    (s.fetching = false → s.files.halfOpenTrialInFlight = false) ∧
      (s.polling = false → s.syncing = none → s.pypi.halfOpenTrialInFlight = false) := by
  simp only [← CircuitBreaker.admits_iff]
  exact ⟨fun h => ⟨h.files, h.pypi⟩, fun h => ⟨h.1, h.2⟩⟩

theorem isSome_verdict_iff {answer : PollAnswer} : answer.verdict.isSome = true ↔
    answer ≠ .rateLimited ∧ ∀ exception, answer ≠ .raised exception := by
  cases answer with
  | answered result => simp [PollAnswer.verdict]
  | rateLimited => simp [PollAnswer.verdict]
  | transientError => simp [PollAnswer.verdict]
  | protocolError => simp [PollAnswer.verdict]
  | notFound => simp [PollAnswer.verdict]
  | raised exception => simp [PollAnswer.verdict]

theorem isSome_bind_syncVerdict_iff {summary : Option IngestSummary} :
    (summary.bind syncVerdict).isSome = true ↔
      ∃ done, summary = some done ∧ (done.retried ≠ [] ∨ succeededAnything done = true) := by
  cases summary with
  | none => simp
  | some done =>
      rw [Option.bind_some, syncVerdict]
      cases hsucceeded : succeededAnything done with
      | true => simp [hsucceeded]
      | false =>
          by_cases hretried : done.retried = []
          · simp [hretried, hsucceeded]
          · simp [hretried]

/-! ## Runs -/

/-- An iteration that begins is refused, and nothing changes, or is admitted. -/
theorem allow_eq_or_admitted (b : CircuitBreaker) (now : ℚ) :
    b.allow now = (false, b) ∨ (b.allow now).1 = true := by
  rcases b.allow_cases now with hrefused | ⟨-, hgranted⟩ | ⟨-, hgranted⟩
  · exact Or.inl hrefused
  · exact Or.inr (by rw [hgranted])
  · exact Or.inr (by rw [hgranted])

variable {s s' t : StageState} {e : StageEvent} {l : List StageEvent}

/-- After a step the breakers serve exactly if the step told what it had to. -/
theorem served_step_iff (h : s.Served) (hstep : s.step e = some s') :
    s'.Served ↔ TellsOnTrial s e := by
  obtain ⟨hfiles, hpypi⟩ := served_iff.mp h
  rw [served_iff]
  cases e with
  | fetch diskPaused now =>
      simp only [step, Option.ite_none_left_eq_some, Option.some.injEq] at hstep
      obtain ⟨hfetching, rfl⟩ := hstep
      refine iff_of_true ⟨fun hidle => ?_, ?_⟩ trivial
      · unfold beginFetch at hidle ⊢
        cases diskPaused with
        | true => exact hfiles hidle
        | false =>
            rcases allow_eq_or_admitted s.files now with hrefused | hadmitted
            · simpa [hrefused] using hfiles (by simpa using hfetching)
            · simp [hadmitted] at hidle
      · unfold beginFetch
        cases diskPaused with
        | true => exact hpypi
        | false => exact hpypi
  | fetched turn claimDb rowsDb side now =>
      simp only [step, Option.ite_none_right_eq_some, Option.some.injEq] at hstep
      obtain ⟨-, rfl⟩ := hstep
      simp only [trial_tell, FetchStage.verdict_claimAndDispatch_iff, TellsOnTrial]
      exact ⟨fun h => h.1 trivial, fun h => ⟨fun _ => h, hpypi⟩⟩
  | poll now =>
      simp only [step, Option.ite_none_left_eq_some, Option.some.injEq] at hstep
      obtain ⟨hpolling, rfl⟩ := hstep
      refine iff_of_true ⟨hfiles, fun hidle hsyncing => ?_⟩ trivial
      unfold beginPoll at hidle hsyncing ⊢
      rcases allow_eq_or_admitted s.pypi now with hrefused | hadmitted
      · simpa [hrefused] using hpypi (by simpa using hpolling) hsyncing
      · simp [hadmitted] at hidle
  | polled answer now =>
      simp only [step, Option.ite_none_right_eq_some, Option.some.injEq] at hstep
      obtain ⟨-, rfl⟩ := hstep
      simp only [trial_tell, isSome_verdict_iff, TellsOnTrial]
      exact ⟨fun h => h.2 trivial, fun h => ⟨hfiles, fun _ => h⟩⟩
  | sync now =>
      simp only [step, Option.ite_none_left_eq_some, Option.some.injEq] at hstep
      obtain ⟨hsyncing, rfl⟩ := hstep
      have hsyncing : s.syncing = none := by simpa using hsyncing
      unfold beginSync
      simp only
      split
      · exact iff_of_true ⟨hfiles, hpypi⟩ trivial
      · rcases allow_eq_or_admitted s.pypi now with hrefused | hadmitted
        · rw [if_neg (by simp [hrefused]), hrefused]
          exact iff_of_true ⟨hfiles, fun hpolling _ => hpypi hpolling hsyncing⟩ trivial
        · rw [if_pos hadmitted]
          exact iff_of_true ⟨hfiles, fun _ hnone => by cases hnone⟩ trivial
  | synced summary now =>
      simp only [step, Option.ite_none_right_eq_some, Option.some.injEq] at hstep
      obtain ⟨-, rfl⟩ := hstep
      simp only [trial_tell, isSome_bind_syncVerdict_iff, TellsOnTrial]
      exact ⟨fun h hpolling => h.2 hpolling trivial,
        fun h => ⟨hfiles, fun hpolling _ => h hpolling⟩⟩

theorem served_create (files pypi : ℤ × ℚ) (batchLimit : ℕ) :
    (create files pypi batchLimit).Served :=
  served_iff.mpr ⟨fun _ => rfl, fun _ _ => rfl⟩

/-- A breaker that no iteration has begun on admits calls throughout a run exactly when
every iteration that ends as the last one of a half-open breaker with its trial in
flight has a result to tell. -/
theorem served_throughout_iff {files pypi : ℤ × ℚ} {batchLimit : ℕ}
    (hrun : machine.run (create files pypi batchLimit) l = some t) :
    machine.Always Served (create files pypi batchLimit) l ↔
      machine.Along TellsOnTrial (create files pypi batchLimit) l :=
  Machine.always_iff_along (Q := fun _ => True) (fun _ _ _ _ _ => trivial)
    (fun _ _ _ _ hserved hstep => served_step_iff hserved hstep) trivial
    (served_create files pypi batchLimit) hrun

/-- A run in which the poll that is the trial is answered. -/
theorem served_throughout_trial :
    machine.Always Served (create (5, 60) (1, 60) 10) [.poll 0, .polled .transientError 0,
      .poll 60, .polled (.answered ⟨true, none, none, []⟩) 60] := by
  have hruns : (machine.run (create (5, 60) (1, 60) 10) [.poll 0, .polled .transientError 0,
      .poll 60, .polled (.answered ⟨true, none, none, []⟩) 60]).isSome = true := by
    decide +kernel
  obtain ⟨t, hrun⟩ := Option.isSome_iff_exists.mp hruns
  refine (served_throughout_iff hrun).mpr (Machine.along_of_forall (fun e he s => ?_) _)
  simp only [List.mem_cons, List.not_mem_nil, or_false] at he
  rcases he with rfl | rfl | rfl | rfl
  · trivial
  · exact fun _ _ => ⟨by simp, by simp⟩
  · trivial
  · exact fun _ _ => ⟨by simp, by simp⟩

/-- The index answers the trial with a rate limit: no iteration is in progress, and no
call is admitted. -/
theorem rate_limited_trial_leaks :
    ∃ t, machine.run (create (5, 60) (1, 60) 10)
        [.poll 0, .polled .transientError 0, .poll 60, .polled .rateLimited 60] = some t ∧
      (t.fetching = false ∧ t.polling = false ∧ t.syncing = none) ∧
      (t.pypi.state = .halfOpen ∧ t.pypi.halfOpenTrialInFlight = true) ∧
      ∀ now, (t.pypi.allow now).1 = false := by
  have hends : (machine.run (create (5, 60) (1, 60) 10)
      [.poll 0, .polled .transientError 0, .poll 60, .polled .rateLimited 60]).any (fun t =>
        decide ((t.fetching = false ∧ t.polling = false ∧ t.syncing = none) ∧
          t.pypi.state = .halfOpen ∧ t.pypi.halfOpenTrialInFlight = true)) = true := by
    decide +kernel
  obtain ⟨t, hrun, hend⟩ := (Option.any_eq_true _ _).mp hends
  obtain ⟨hidle, hstate, htrial⟩ := of_decide_eq_true hend
  refine ⟨t, hrun, hidle, ⟨hstate, htrial⟩, fun now => ?_⟩
  rw [CircuitBreaker.allow_of_trial htrial]

/-! ## A trial that is leaked -/

/-- The trial of a breaker is in flight and no iteration has it. -/
def Leaked (s : StageState) : Prop :=
  (s.fetching = false ∧ s.files.halfOpenTrialInFlight = true) ∨
    (s.polling = false ∧ s.syncing = none ∧ s.pypi.halfOpenTrialInFlight = true)

theorem leaked_iff : s.Leaked ↔ ¬s.Served := by
  rw [served_iff, Leaked]
  cases s.fetching <;> cases s.polling <;> cases s.syncing <;>
    cases s.files.halfOpenTrialInFlight <;> cases s.pypi.halfOpenTrialInFlight <;> simp

theorem leaked_step (h : s.Leaked) (hstep : s.step e = some s') : s'.Leaked := by
  cases e with
  | fetch diskPaused now =>
      simp only [step, Option.ite_none_left_eq_some, Option.some.injEq] at hstep
      obtain ⟨-, rfl⟩ := hstep
      unfold beginFetch
      rcases h with ⟨hfetching, htrial⟩ | hpypi
      · rw [CircuitBreaker.allow_of_trial htrial]
        split
        · exact Or.inl ⟨hfetching, htrial⟩
        · exact Or.inl ⟨rfl, htrial⟩
      · split
        · exact Or.inr hpypi
        · exact Or.inr hpypi
  | fetched turn claimDb rowsDb side now =>
      simp only [step, Option.ite_none_right_eq_some, Option.some.injEq] at hstep
      obtain ⟨hfetching, rfl⟩ := hstep
      rcases h with ⟨hidle, -⟩ | hpypi
      · rw [hfetching] at hidle
        cases hidle
      · exact Or.inr hpypi
  | poll now =>
      simp only [step, Option.ite_none_left_eq_some, Option.some.injEq] at hstep
      obtain ⟨-, rfl⟩ := hstep
      rcases h with hfiles | ⟨-, hsyncing, htrial⟩
      · exact Or.inl hfiles
      · rw [beginPoll, CircuitBreaker.allow_of_trial htrial]
        exact Or.inr ⟨rfl, hsyncing, htrial⟩
  | polled answer now =>
      simp only [step, Option.ite_none_right_eq_some, Option.some.injEq] at hstep
      obtain ⟨hpolling, rfl⟩ := hstep
      rcases h with hfiles | ⟨hidle, -⟩
      · exact Or.inl hfiles
      · rw [hpolling] at hidle
        cases hidle
  | sync now =>
      simp only [step, Option.ite_none_left_eq_some, Option.some.injEq] at hstep
      obtain ⟨-, rfl⟩ := hstep
      unfold beginSync
      simp only
      rcases h with hfiles | ⟨hpolling, hsyncing, htrial⟩
      · split
        · exact Or.inl hfiles
        · split
          · exact Or.inl hfiles
          · exact Or.inl hfiles
      · split
        · exact Or.inr ⟨hpolling, hsyncing, htrial⟩
        · rw [CircuitBreaker.allow_of_trial htrial, if_neg (by simp)]
          exact Or.inr ⟨hpolling, hsyncing, htrial⟩
  | synced summary now =>
      simp only [step, Option.ite_none_right_eq_some, Option.some.injEq] at hstep
      obtain ⟨hsyncing, rfl⟩ := hstep
      rcases h with hfiles | ⟨-, hnone, -⟩
      · exact Or.inl hfiles
      · rw [hnone] at hsyncing
        cases hsyncing

/-- A breaker that stops serving never serves again. -/
theorem not_served_forever (h : ¬s.Served) (hrun : machine.run s l = some t) : ¬t.Served := by
  have hinv : ∀ s e s', Leaked s → machine.step s e = some s' → Leaked s' :=
    fun _ _ _ hleaked hstep => leaked_step hleaked hstep
  exact leaked_iff.mp (Machine.run_invariant hinv (leaked_iff.mpr h) hrun)

end StageState

end RerollSync.Stages
