import RerollSync.Writer.Resolution

/-!
# Deadlock between submitters and the fatal path

A submitter puts its op while it holds `_lifecycle_lock`, and the fatal path
needs that lock before it can empty the queue.  With the queue full the two wait
for each other.  Nothing else blocks everybody: in a run that never brings a
submitter into that position, some thread can always move while a submitter is
still waiting.
-/

namespace RerollSync.Writer

open RerollSync.Support

variable {σ ε β : Type} {cfg : Config} {s s' : State σ ε β} {e : Event σ ε β} {db : σ}

/-- A caller of `submit` or `submit_and_wait` that has not returned. -/
def Caller.IsSubmitter : Caller σ ε β → Prop
  | .submitting _ _ => True
  | .putting _ _ => True
  | .waiting _ => True
  | _ => False

def Caller.IsSubmitting : Caller σ ε β → Prop
  | .submitting _ _ => True
  | _ => False

instance : DecidablePred (Caller.IsSubmitting (σ := σ) (ε := ε) (β := β)) := fun c =>
  match c with
  | .submitting _ _ => isTrue trivial
  | .putting _ _ | .waiting _ | .stopping _ | .signalling | .joining | .returned | .refused
  | .answered _ => isFalse id

namespace State

/-- No thread can move, and a submitter has not returned. -/
structure Deadlocked (cfg : Config) (s : State σ ε β) : Prop where
  waiting : ∃ i, CallerAt Caller.IsSubmitter s.callers i
  callers : ∀ i, s.callerStep cfg i = none
  writer : ∀ input, s.writerStep cfg input = none

/-- The batch about to be committed fails. -/
def commitRaises (s : State σ ε β) (input : Input) : Bool :=
  match commitBatch input.failAt (s.batch.map Prod.fst) ⟨s.conn, 0⟩ with
  | .error _ _ => true
  | .ok _ _ => false

/-- The housekeeping statements of the loop do not raise. -/
def PragmasQuiet (cfg : Config) (s : State σ ε β) : Event σ ε β → Prop
  | .writer input => (s.pc = .refresh → ¬raisesWithin input 1) ∧
      (s.pc = .housekeep → ¬raisesWithin input (s.pragmasDue cfg input.now))
  | _ => True

/-- A batch does not fail while a submitter holds the lock with the queue full, and
no submitter that is not to be refused takes the lock with the queue full while the
fatal path waits for it. -/
def FatalSafe (cfg : Config) (s : State σ ε β) : Event σ ε β → Prop
  | .writer input => s.pc = .commit → s.commitRaises input = true → s.full cfg → s.lock = none
  | .caller i => s.pc = .fatalLock → s.full cfg → s.stopped = false →
      ¬CallerAt Caller.IsSubmitting s.callers i
  | _ => True

instance (cfg : Config) (s : State σ ε β) : DecidablePred (s.PragmasQuiet cfg)
  | .writer input => inferInstanceAs (Decidable ((s.pc = .refresh → ¬raisesWithin input 1) ∧
      (s.pc = .housekeep → ¬raisesWithin input (s.pragmasDue cfg input.now))))
  | .caller _ => isTrue trivial
  | .submit _ => isTrue trivial
  | .submitAndWait _ => isTrue trivial
  | .stop _ => isTrue trivial

instance (cfg : Config) (s : State σ ε β) : DecidablePred (s.FatalSafe cfg)
  | .writer input => inferInstanceAs (Decidable
      (s.pc = .commit → s.commitRaises input = true → s.full cfg → s.lock = none))
  | .caller i => inferInstanceAs (Decidable
      (s.pc = .fatalLock → s.full cfg → s.stopped = false →
        ¬CallerAt Caller.IsSubmitting s.callers i))
  | .submit _ => isTrue trivial
  | .submitAndWait _ => isTrue trivial
  | .stop _ => isTrue trivial

/-- The writer's thread is alive, every waiting caller waits for an accepted op, and
the fatal path never faces a submitter blocked on a full queue. -/
structure Unobstructed (cfg : Config) (s : State σ ε β) : Prop where
  alive : s.pc ≠ .died
  issued : ∀ i t : ℕ, s.callers[i]? = some (Caller.waiting t) → t < s.accepted.length
  room : s.pc = .fatalLock → s.full cfg → s.lock = none

namespace Unobstructed

theorem create (db : σ) (now : ℚ) : (State.create db now : State σ ε β).Unobstructed cfg where
  alive := by simp [State.create]
  issued := by simp [State.create]
  room := by simp [State.create]

/-- Replacing a caller by one that does not wait for a new ticket. -/
theorem issued_set (h : s.Unobstructed cfg) {i : ℕ} {old c : Caller σ ε β}
    (hc : s.callers[i]? = some old) (hnew : ∀ t, c ≠ Caller.waiting t) :
    ∀ j t : ℕ, (s.callers.set i c)[j]? = some (Caller.waiting t) → t < s.accepted.length := by
  intro j t hj
  have hat : CallerAt (· = Caller.waiting t) (s.callers.set i c) j := ⟨_, hj, rfl⟩
  rw [callerAt_set hc] at hat
  split at hat
  · exact (hnew t hat).elim
  · obtain ⟨c', hc', rfl⟩ := hat
    exact h.issued j t hc'

theorem arrive (h : s.Unobstructed cfg) {c : Caller σ ε β} (hnew : ∀ t, c ≠ Caller.waiting t) :
    ({ s with callers := s.callers ++ [c] } : State σ ε β).Unobstructed cfg :=
  { h with
    issued := by
      intro j t hj
      have hat : CallerAt (· = Caller.waiting t) (s.callers ++ [c]) j := ⟨_, hj, rfl⟩
      rcases (callerAt_append j).mp hat with ⟨c', hc', rfl⟩ | ⟨-, heq⟩
      · exact h.issued j t hc'
      · exact (hnew t heq).elim }

theorem callerStep (h : s.Unobstructed cfg) {i : ℕ} (hsafe : s.FatalSafe cfg (.caller i))
    (hstep : s.callerStep cfg i = some s') : s'.Unobstructed cfg := by
  cases callerStep_move hstep with
  | refuse hc => exact { h with issued := h.issued_set hc (by simp) }
  | enter hc hlock hstop => exact { h with
      issued := h.issued_set hc (by simp)
      room := fun hpc hfull => (hsafe hpc hfull hstop ((callerAt_iff hc).mpr trivial)).elim }
  | @put op waits hc =>
      refine { h with issued := ?_, room := fun _ _ => rfl }
      intro j t hj
      dsimp only at hj
      have hat : CallerAt (· = Caller.waiting t) (s.callers.set i
        (if waits then .waiting s.accepted.length else .returned)) j := ⟨_, hj, rfl⟩
      rw [callerAt_set hc] at hat
      rw [List.length_append, List.length_singleton]
      by_cases hji : j = i
      · rw [if_pos hji] at hat
        cases waits
        · simp at hat
        · simp at hat
          omega
      · rw [if_neg hji] at hat
        obtain ⟨c', hc', rfl⟩ := hat
        have := h.issued j t hc'
        omega
  | answer hc => exact { h with issued := h.issued_set hc (by simp) }
  | alreadyStopped hc => exact { h with issued := h.issued_set hc (by simp) }
  | markStopped hc => exact { h with issued := h.issued_set hc (by simp) }
  | signal hc => exact { h with issued := h.issued_set hc (by simp) }
  | join hc => exact { h with issued := h.issued_set hc (by simp) }

theorem writerStep (h : s.Unobstructed cfg) {input : Input}
    (hquiet : s.PragmasQuiet cfg (.writer input)) (hsafe : s.FatalSafe cfg (.writer input))
    (hstep : s.writerStep cfg input = some s') : s'.Unobstructed cfg := by
  cases writerStep_move hstep with
  | commitRaises hpc hbatch => exact { h with
      alive := by simp
      room := fun _ hfull => hsafe hpc (by simp [State.commitRaises, hbatch]) hfull }
  | refreshRaises hpc hraise => exact (hquiet.1 hpc hraise).elim
  | housekeepRaises hpc hraise => exact (hquiet.2 hpc hraise).elim
  | decides => exact { h with
      alive := by
        dsimp only
        split <;> simp
      room := by
        dsimp only
        split <;> simp }
  | _ => exact { h with alive := by simp, room := by simp }

theorem step (h : s.Unobstructed cfg) (hquiet : s.PragmasQuiet cfg e)
    (hsafe : s.FatalSafe cfg e) (hstep : s.step cfg e = some s') : s'.Unobstructed cfg := by
  cases e with
  | submit op =>
      obtain rfl := Option.some.inj hstep
      exact h.arrive (by simp)
  | submitAndWait op =>
      obtain rfl := Option.some.inj hstep
      exact h.arrive (by simp)
  | stop drain =>
      obtain rfl := Option.some.inj hstep
      exact h.arrive (by simp)
  | caller i => exact h.callerStep hsafe hstep
  | writer input => exact h.writerStep hquiet hsafe hstep

end Unobstructed

/-- The writer's thread blocks only before the lock of the fatal path. -/
theorem blocked_writer (h : ∀ input, s.writerStep cfg input = none) :
    s.pc = .fatalLock ∧ s.lock ≠ none ∨ s.pc = .ended ∨ s.pc = .died := by
  have hnow := h ⟨fun _ => 0, none⟩
  cases hpc : s.pc with
  | fatalLock =>
      by_cases hlock : s.lock = none
      · simp [writerStep, hpc, hlock] at hnow
      · exact Or.inl ⟨rfl, hlock⟩
  | ended => exact Or.inr (Or.inl rfl)
  | died => exact Or.inr (Or.inr rfl)
  | get => cases hqueue : s.queue <;> simp [writerStep, hpc, hqueue] at hnow
  | commit =>
      cases hbatch : commitBatch none (s.batch.map Prod.fst) ⟨s.conn, 0⟩ <;>
        simp [writerStep, hpc, hbatch] at hnow
  | stopCheck =>
      simp only [writerStep, hpc] at hnow
      split at hnow
      next =>
        split at hnow
        next => split at hnow <;> cases hnow
        next => cases hnow
      next => cases hnow
  | refresh => simp [writerStep, hpc, raisesWithin] at hnow
  | housekeep => simp [writerStep, hpc, raisesWithin] at hnow
  | decide => simp [writerStep, hpc] at hnow
  | resolve => simp [writerStep, hpc] at hnow
  | discard => simp [writerStep, hpc] at hnow
  | finish => simp [writerStep, hpc] at hnow
  | fatalResolve => simp [writerStep, hpc] at hnow

/-- While a submitter has not returned, it, the holder of the lock or the writer's
thread can move. -/
theorem Unobstructed.not_deadlocked (h : s.Unobstructed cfg) (hg : s.Guarded)
    (hr : s.Recorded db) : ¬s.Deadlocked cfg := by
  intro hdead
  rcases blocked_writer hdead.writer with ⟨hpc, hlock⟩ | hpc | hpc
  · -- the lock is held by a submitter that puts, and there is room for it
    obtain ⟨j, hj⟩ := Option.ne_none_iff_exists'.mp hlock
    obtain ⟨c, hc, hputting⟩ := (hg.holder j).mp hj
    have hroom : ¬s.full cfg := fun hfull => hlock (h.room hpc hfull)
    have hblocked := hdead.callers j
    cases c with
    | putting op waits => simp [State.callerStep, hc, hroom] at hblocked
    | _ => exact hputting.elim
  · -- the thread has ended: the lock is free and everything is resolved
    have hstop := hg.closing (Or.inr (Or.inr (Or.inr hpc)))
    have hfree : s.lock = none := by
      by_contra hne
      simp [hg.running hne] at hstop
    obtain ⟨i, c, hc, hsubmitter⟩ := hdead.waiting
    have hblocked := hdead.callers i
    cases c with
    | submitting op waits => simp [State.callerStep, hc, hfree, hstop] at hblocked
    | putting op waits =>
        have := (hg.holder i).mpr ⟨_, hc, trivial⟩
        simp [hfree] at this
    | waiting t =>
        have honce := hr.resolvedOnce (hr.length_resolved_of_ended hg hpc)
        have hmem : t ∈ s.resolved.map Prod.fst := by
          rw [honce.once]
          exact List.mem_range.mpr (h.issued i t hc)
        obtain ⟨r, hrmem, hticket⟩ := List.mem_map.mp hmem
        cases hfind : s.resolved.find? fun r => r.1 = t with
        | none => simpa [hticket] using List.find?_eq_none.mp hfind r hrmem
        | some r' => simp [State.callerStep, hc, hfind] at hblocked
    | _ => exact hsubmitter.elim
  · exact h.alive hpc

/-- No deadlock in any state of any run in which no batch fails while a submitter
holds the lock with the queue full, and no submitter of a writer that is not stopped
takes the lock with the queue full while the fatal path waits for it. -/
theorem not_deadlocked_of_fatalSafe {now : ℚ} {events : List (Event σ ε β)}
    (hquiet : (machine σ ε β cfg).Along (PragmasQuiet cfg) (create db now) events)
    (hsafe : (machine σ ε β cfg).Along (FatalSafe cfg) (create db now) events)
    (hrun : (machine σ ε β cfg).run (create db now) events = some s) : ¬s.Deadlocked cfg := by
  obtain ⟨hg, hr⟩ := invariant_run hrun
  have h := Machine.run_invariant_along (M := machine σ ε β cfg)
    (C := fun s e => s.PragmasQuiet cfg e ∧ s.FatalSafe cfg e)
    (P := fun s : State σ ε β => s.Unobstructed cfg)
    (fun _ _ _ h hC hstep => h.step hC.1 hC.2 hstep) (Unobstructed.create db now)
    (Machine.along_and.mpr ⟨hquiet, hsafe⟩) hrun
  exact h.not_deadlocked hg hr

/-- A batch that fails while the queue is full but nobody holds the lock. -/
theorem not_deadlocked_full_queue :
    let op : WriteOp ℕ String ℕ := ⟨"add", fun db => (db + 1, .ok db)⟩
    ∃ s, (machine ℕ String ℕ ⟨1, 1, 60, 3600, 1⟩).run (create 0 0)
        [.submitAndWait op, .caller 0, .caller 0, .writer ⟨fun _ => 0, none⟩,
          .submitAndWait op, .caller 1, .caller 1, .writer ⟨fun _ => 0, none⟩,
          .writer ⟨fun _ => 0, some 3⟩] = some s ∧
      s.pc = .fatalLock ∧ s.queue.length = 1 ∧ ¬s.Deadlocked ⟨1, 1, 60, 3600, 1⟩ := by
  intro op
  have hcompute : ((machine ℕ String ℕ ⟨1, 1, 60, 3600, 1⟩).run (create 0 0)
      [.submitAndWait op, .caller 0, .caller 0, .writer ⟨fun _ => 0, none⟩,
        .submitAndWait op, .caller 1, .caller 1, .writer ⟨fun _ => 0, none⟩,
        .writer ⟨fun _ => 0, some 3⟩]).map (fun s => (s.pc, s.queue.length)) =
      some (.fatalLock, 1) := by
    decide +kernel
  obtain ⟨s, hrun, hfacts⟩ := Option.map_eq_some_iff.mp hcompute
  obtain ⟨hpc, hqueue⟩ := Prod.mk.inj hfacts
  exact ⟨s, hrun, hpc, hqueue,
    not_deadlocked_of_fatalSafe (by decide +kernel) (by decide +kernel) hrun⟩

/-- One op in the batch that fails, one in the queue of capacity one, and a third
submitter holding the lock: nobody can move. -/
theorem fatal_path_deadlocks :
    let op : WriteOp ℕ String ℕ := ⟨"add", fun db => (db + 1, .ok db)⟩
    ∃ s, (machine ℕ String ℕ ⟨1, 1, 60, 3600, 1⟩).run (create 0 0)
        [.submitAndWait op, .caller 0, .caller 0, .writer ⟨fun _ => 0, none⟩,
          .submitAndWait op, .caller 1, .caller 1, .submitAndWait op, .caller 2,
          .writer ⟨fun _ => 0, none⟩, .writer ⟨fun _ => 0, some 3⟩] = some s ∧
      s.Deadlocked ⟨1, 1, 60, 3600, 1⟩ := by
  intro op
  have hcompute : ((machine ℕ String ℕ ⟨1, 1, 60, 3600, 1⟩).run (create 0 0)
      [.submitAndWait op, .caller 0, .caller 0, .writer ⟨fun _ => 0, none⟩,
        .submitAndWait op, .caller 1, .caller 1, .submitAndWait op, .caller 2,
        .writer ⟨fun _ => 0, none⟩, .writer ⟨fun _ => 0, some 3⟩]).map
      (fun s => ((s.pc, s.lock), decide (CallerAt Caller.IsPutting s.callers 2),
        (List.range s.callers.length).all fun i =>
          (s.callerStep ⟨1, 1, 60, 3600, 1⟩ i).isNone)) =
      some ((.fatalLock, some 2), true, true) := by
    decide +kernel
  obtain ⟨s, hrun, hfacts⟩ := Option.map_eq_some_iff.mp hcompute
  simp only [Prod.mk.injEq] at hfacts
  obtain ⟨⟨hpc, hlock⟩, hputting, hblocked⟩ := hfacts
  refine ⟨s, hrun, ?_, ?_, ?_⟩
  · obtain ⟨c, hc, hp⟩ := of_decide_eq_true hputting
    refine ⟨2, c, hc, ?_⟩
    cases c with
    | putting op waits => trivial
    | _ => exact hp.elim
  · intro i
    by_cases hi : i < s.callers.length
    · exact Option.isNone_iff_eq_none.mp
        (List.all_eq_true.mp hblocked i (List.mem_range.mpr hi))
    · simp [callerStep, List.getElem?_eq_none (not_lt.mp hi)]
  · intro input
    simp [writerStep, hpc, hlock]

end State

end RerollSync.Writer
