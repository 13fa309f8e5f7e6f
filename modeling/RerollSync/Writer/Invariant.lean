import RerollSync.Writer.Loop

/-!
# Invariants of the writer

What holds of the writer and its callers in every reachable state.  `Guarded`
is about the lock, the flags and the emptiness of the queue; `Recorded` is
about tickets, outcomes and the database.
-/

namespace RerollSync.Writer

open RerollSync.Support

variable {σ ε β : Type} {cfg : Config} {s s' : State σ ε β}

/-! ## Properties of the caller at a position -/

def Caller.IsPutting : Caller σ ε β → Prop
  | .putting _ _ => True
  | _ => False

def Caller.IsSignalling : Caller σ ε β → Prop
  | .signalling => True
  | _ => False

instance : DecidablePred (Caller.IsPutting (σ := σ) (ε := ε) (β := β)) := fun c =>
  match c with
  | .putting _ _ => isTrue trivial
  | .submitting _ _ | .waiting _ | .stopping _ | .signalling | .joining | .returned | .refused
  | .answered _ => isFalse id

/-- The caller at position `i` satisfies `P`. -/
def CallerAt (P : Caller σ ε β → Prop) (callers : List (Caller σ ε β)) (i : ℕ) : Prop :=
  ∃ c, callers[i]? = some c ∧ P c

instance (P : Caller σ ε β → Prop) [DecidablePred P] (callers : List (Caller σ ε β)) (i : ℕ) :
    Decidable (CallerAt P callers i) :=
  match h : callers[i]? with
  | none => isFalse (by simp [CallerAt, h])
  | some c => decidable_of_iff (P c) (by simp [CallerAt, h])

section CallerAt

variable {P : Caller σ ε β → Prop} {callers : List (Caller σ ε β)} {i : ℕ} {old c : Caller σ ε β}

theorem callerAt_iff (h : callers[i]? = some c) : CallerAt P callers i ↔ P c := by
  simp [CallerAt, h]

theorem callerAt_append (j : ℕ) :
    CallerAt P (callers ++ [c]) j ↔ CallerAt P callers j ∨ j = callers.length ∧ P c := by
  rcases lt_trichotomy j callers.length with hlt | rfl | hgt
  · simp [CallerAt, List.getElem?_append_left hlt, hlt.ne]
  · simp [CallerAt]
  · have hnone : (callers ++ [c])[j]? = none := List.getElem?_eq_none (by simp; omega)
    have hnone' : callers[j]? = none := List.getElem?_eq_none hgt.le
    simp [CallerAt, hnone, hnone', hgt.ne']

theorem callerAt_set (h : callers[i]? = some old) (j : ℕ) :
    CallerAt P (callers.set i c) j ↔ if j = i then P c else CallerAt P callers j := by
  obtain ⟨hi, -⟩ := List.getElem?_eq_some_iff.mp h
  split
  next hj =>
    subst hj
    simp [CallerAt, List.getElem?_set_self hi]
  next hj => simp [CallerAt, List.getElem?_set_ne (Ne.symm hj)]

/-- A move between two states without `P` leaves everyone's `P` as it was. -/
theorem callerAt_set_of_not (h : callers[i]? = some old) (hold : ¬P old) (hc : ¬P c) (j : ℕ) :
    CallerAt P (callers.set i c) j ↔ CallerAt P callers j := by
  rw [callerAt_set h]
  split
  next hj =>
    subst hj
    simp [callerAt_iff h, hold, hc]
  next => rfl

end CallerAt

namespace State

/-- A caller holds the lock exactly while it puts, and nobody puts into a stopped
writer; the queue is empty for good once the loop has left through its end. -/
structure Guarded (s : State σ ε β) : Prop where
  holder : ∀ i, s.lock = some i ↔ CallerAt Caller.IsPutting s.callers i
  running : s.lock ≠ none → s.stopped = false
  requested : s.stopRequested = true → s.stopped = true
  signalling : ∀ i, CallerAt Caller.IsSignalling s.callers i → s.stopped = true
  saw : s.sawStop = true → s.stopped = true
  closing : s.pc = .discard ∨ s.pc = .finish ∨ s.pc = .fatalResolve ∨ s.pc = .ended →
    s.stopped = true
  emptied : s.pc = .finish ∨ s.pc = .ended → s.batch = [] ∧ s.queue = []
  unflushed : s.flushed ≠ [] → s.pc = .refresh ∨ s.pc = .housekeep ∨ s.pc = .resolve ∨
    s.pc = .died

namespace Guarded

theorem create (db : σ) (now : ℚ) : (State.create db now : State σ ε β).Guarded where
  holder := by simp [State.create, CallerAt]
  running := by simp [State.create]
  requested := by simp [State.create]
  signalling := by simp [State.create, CallerAt]
  saw := by simp [State.create]
  closing := by simp [State.create]
  emptied := by simp [State.create]
  unflushed := by simp [State.create]

/-- Somebody can put only while the writer is not stopped. -/
theorem not_stopped_of_putting (h : s.Guarded) {i : ℕ}
    (hi : CallerAt Caller.IsPutting s.callers i) : s.stopped = false :=
  h.running (by simp [(h.holder i).mpr hi])

/-- Changing the callers without anyone starting or ceasing to put or signal. -/
theorem withCallers (h : s.Guarded) {callers : List (Caller σ ε β)}
    (hputting : ∀ j, CallerAt Caller.IsPutting callers j ↔ CallerAt Caller.IsPutting s.callers j)
    (hsignalling : ∀ j, CallerAt Caller.IsSignalling callers j →
      CallerAt Caller.IsSignalling s.callers j) :
    ({ s with callers := callers } : State σ ε β).Guarded :=
  { h with
    holder := fun i => (h.holder i).trans (hputting i).symm
    signalling := fun i hi => h.signalling i (hsignalling i hi) }

theorem arrive (h : s.Guarded) {c : Caller σ ε β} (hputting : ¬c.IsPutting)
    (hsignalling : ¬c.IsSignalling) :
    ({ s with callers := s.callers ++ [c] } : State σ ε β).Guarded :=
  h.withCallers (fun j => by simp [callerAt_append, hputting])
    (fun j => by simp [callerAt_append, hsignalling])

theorem setCaller (h : s.Guarded) {i : ℕ} {old c : Caller σ ε β}
    (hc : s.callers[i]? = some old) (hold : ¬old.IsPutting) (hputting : ¬c.IsPutting)
    (hsignalling : ¬c.IsSignalling) :
    ({ s with callers := s.callers.set i c } : State σ ε β).Guarded := by
  refine h.withCallers (callerAt_set_of_not hc hold hputting) fun j => ?_
  rw [callerAt_set hc]
  split
  · exact fun hj => (hsignalling hj).elim
  · exact id

theorem callerStep (h : s.Guarded) {i : ℕ} (hstep : s.callerStep cfg i = some s') :
    s'.Guarded := by
  cases callerStep_move hstep with
  | refuse hc => exact h.setCaller hc id id id
  | @enter op waits hc hlock hstop =>
      refine { h with holder := ?_, running := fun _ => hstop, signalling := ?_ }
      · intro j
        rw [callerAt_set hc]
        split
        next hj => simp [hj, Caller.IsPutting]
        next hj =>
          rw [← h.holder j, hlock]
          simp [Ne.symm hj]
      · exact fun j hj => h.signalling j ((callerAt_set_of_not hc id id j).mp hj)
  | @put op waits hc hroom =>
      have hi : CallerAt Caller.IsPutting s.callers i := (callerAt_iff hc).mpr trivial
      have hstop := h.not_stopped_of_putting hi
      generalize hnext : (if waits then Caller.waiting s.accepted.length else .returned) = c
      have hafter : ¬c.IsPutting ∧ ¬c.IsSignalling := by
        subst hnext
        cases waits <;> exact ⟨id, id⟩
      refine { h with holder := ?_, running := by simp, signalling := ?_, emptied := ?_ }
      · intro j
        rw [callerAt_set hc]
        split
        next => simpa using hafter.1
        next hj =>
          have hlock := (h.holder i).mpr hi
          simpa [hlock, Ne.symm hj] using h.holder j
      · exact fun j hj => h.signalling j ((callerAt_set_of_not hc id hafter.2 j).mp hj)
      · intro hpc
        have := h.closing
          (hpc.elim (fun h => Or.inr (Or.inl h)) fun h => Or.inr (Or.inr (Or.inr h)))
        simp [hstop] at this
  | answer hc => exact h.setCaller hc id id id
  | alreadyStopped hc => exact h.setCaller hc id id id
  | markStopped hc hlock hstop =>
      refine { h with
        holder := fun j => (h.holder j).trans (callerAt_set_of_not hc id id j).symm
        running := fun hne => (hne hlock).elim
        requested := fun _ => rfl
        signalling := fun _ _ => rfl
        saw := fun _ => rfl
        closing := fun _ => rfl }
  | signal hc =>
      have hstop := h.signalling i ((callerAt_iff hc).mpr trivial)
      refine { h with
        holder := fun j => (h.holder j).trans (callerAt_set_of_not hc id id j).symm
        requested := fun _ => hstop
        signalling := fun _ _ => hstop }
  | join hc => exact h.setCaller hc id id id

theorem flushed_eq_nil (h : s.Guarded) (hpc : s.pc ≠ .refresh ∧ s.pc ≠ .housekeep ∧
    s.pc ≠ .resolve ∧ s.pc ≠ .died) : s.flushed = [] := by
  by_contra hne
  rcases h.unflushed hne with h' | h' | h' | h'
  exacts [hpc.1 h', hpc.2.1 h', hpc.2.2.1 h', hpc.2.2.2 h']

theorem writerStep (h : s.Guarded) {input : Input} (hstep : s.writerStep cfg input = some s') :
    s'.Guarded := by
  cases writerStep_move hstep with
  | timesOut hpc => exact { h with
      closing := by simp
      emptied := by simp
      unflushed := fun hne => (hne (h.flushed_eq_nil (by simp [hpc]))).elim }
  | takes hpc => exact { h with
      closing := by simp
      emptied := by simp
      unflushed := fun hne => (hne (h.flushed_eq_nil (by simp [hpc]))).elim }
  | decides hpc =>
      refine { h with saw := h.requested, closing := ?_, emptied := ?_, unflushed := ?_ }
      · dsimp only
        split <;> simp
      · dsimp only
        split <;> simp
      · exact fun hne => (hne (h.flushed_eq_nil (by simp [hpc]))).elim
  | commitRaises hpc => exact { h with
      closing := by simp
      emptied := by simp
      unflushed := fun hne => (hne (h.flushed_eq_nil (by simp [hpc]))).elim }
  | commits hpc => exact { h with
      closing := by simp
      emptied := by simp
      unflushed := by simp }
  | refreshRaises hpc => exact { h with
      closing := by simp
      emptied := by simp
      unflushed := by simp }
  | refreshes hpc => exact { h with
      closing := by simp
      emptied := by simp
      unflushed := by simp }
  | housekeepRaises hpc => exact { h with
      closing := by simp
      emptied := by simp
      unflushed := by simp }
  | housekeeps hpc => exact { h with
      closing := by simp
      emptied := by simp
      unflushed := by simp }
  | resolves hpc => exact { h with
      closing := by simp
      emptied := by simp
      unflushed := by simp }
  | continues hpc => exact { h with
      closing := by simp
      emptied := by simp
      unflushed := fun hne => (hne (h.flushed_eq_nil (by simp [hpc]))).elim }
  | drained hpc hsaw hqueue hbatch => exact { h with
      closing := fun _ => h.saw hsaw
      emptied := fun _ => ⟨hbatch, hqueue⟩
      unflushed := fun hne => (hne (h.flushed_eq_nil (by simp [hpc]))).elim }
  | givesUp hpc hsaw => exact { h with
      closing := fun _ => h.saw hsaw
      emptied := by simp
      unflushed := fun hne => (hne (h.flushed_eq_nil (by simp [hpc]))).elim }
  | discards hpc => exact { h with
      closing := fun _ => h.closing (Or.inl hpc)
      emptied := fun _ => ⟨rfl, rfl⟩
      unflushed := fun hne => (hne (h.flushed_eq_nil (by simp [hpc]))).elim }
  | finishes hpc => exact { h with
      closing := fun _ => h.closing (Or.inr (Or.inl hpc))
      emptied := fun _ => h.emptied (Or.inl hpc)
      unflushed := fun hne => (hne (h.flushed_eq_nil (by simp [hpc]))).elim }
  | locks hpc hlock => exact { h with
      running := fun hne => (hne hlock).elim
      requested := fun _ => rfl
      signalling := fun _ _ => rfl
      saw := fun _ => rfl
      closing := fun _ => rfl
      emptied := by simp
      unflushed := fun hne => (hne (h.flushed_eq_nil (by simp [hpc]))).elim }
  | failsAll hpc => exact { h with
      closing := fun _ => h.closing (Or.inr (Or.inr (Or.inl hpc)))
      emptied := fun _ => ⟨rfl, rfl⟩
      unflushed := fun hne => (hne (h.flushed_eq_nil (by simp [hpc]))).elim }

theorem step (h : s.Guarded) {e : Event σ ε β} (hstep : s.step cfg e = some s') :
    s'.Guarded := by
  cases e with
  | submit op =>
      obtain rfl := Option.some.inj hstep
      exact h.arrive id id
  | submitAndWait op =>
      obtain rfl := Option.some.inj hstep
      exact h.arrive id id
  | stop drain =>
      obtain rfl := Option.some.inj hstep
      exact h.arrive id id
  | caller i => exact h.callerStep hstep
  | writer input => exact h.writerStep hstep

end Guarded

/-! ## Tickets, outcomes and the database -/

/-- The ops that have an outcome, resolved or about to be. -/
def settled (s : State σ ε β) : List (ℕ × Outcome ε β) := s.resolved ++ s.flushed

/-- Ops are settled in the order of their tickets, those still pending follow in
the same order, and what is settled is what was committed, with the outcomes of
the sequential execution, until the writer gives up on the rest. -/
structure Recorded (db : σ) (s : State σ ε β) : Prop where
  tickets : s.settled.map Prod.fst = List.range s.settled.length
  pending : s.batch ++ s.queue = s.accepted.zipIdx.drop s.settled.length
  settled_le : s.settled.length ≤ s.accepted.length
  split : ∃ rest, s.settled = s.committed ++ rest ∧
    (∀ r ∈ rest, r.2 = .exception .sqlite ∨ r.2 = .exception .stopped) ∧
    (rest ≠ [] → s.pc = .finish ∨ s.pc = .ended)
  database : s.conn.committed = (sequential db (s.accepted.take s.committed.length)).1
  outcomes : s.committed.map Prod.snd = (sequential db (s.accepted.take s.committed.length)).2
  idle : s.pc ≠ .fatalLock → s.pc ≠ .fatalResolve → s.conn = .idle s.conn.committed

/-- The tickets of the first pending ops continue the settled ones. -/
theorem range_append_pending {pre post : List (WriteOp σ ε β × ℕ)}
    {accepted : List (WriteOp σ ε β)} {k : ℕ} (h : pre ++ post = accepted.zipIdx.drop k)
    (hk : k ≤ accepted.length) :
    List.range k ++ pre.map Prod.snd = List.range (k + pre.length) ∧
      accepted.take k ++ pre.map Prod.fst = accepted.take (k + pre.length) ∧
      post = accepted.zipIdx.drop (k + pre.length) ∧
      k + pre.length + post.length = accepted.length := by
  have hpre : pre = (accepted.zipIdx.drop k).take pre.length := by
    rw [← h, List.take_left]
  have hpost : post = (accepted.zipIdx.drop k).drop pre.length := by
    rw [← h, List.drop_left]
  have hlen : pre.length + post.length = accepted.length - k := by
    simpa using congrArg List.length h
  refine ⟨?_, ?_, ?_, by omega⟩
  · have hsnd : pre.map Prod.snd = ((List.range accepted.length).drop k).take pre.length := by
      conv_lhs => rw [hpre]
      rw [List.map_take, List.map_drop, List.zipIdx_map_snd, List.range_eq_range']
    have hall : (List.range accepted.length).take (k + pre.length) =
        List.range (k + pre.length) := by
      rw [List.take_range, min_eq_left (by omega)]
    rw [hsnd, ← hall, List.take_add, List.take_range, min_eq_left hk]
  · have hfst : pre.map Prod.fst = (accepted.drop k).take pre.length := by
      conv_lhs => rw [hpre]
      rw [List.map_take, List.map_drop, List.zipIdx_map_fst]
    rw [hfst, List.take_add]
  · rw [hpost, List.drop_drop]

@[simp] theorem failAll_tickets (e : Raised ε) (ops : List (WriteOp σ ε β × ℕ)) :
    (failAll e ops).map Prod.fst = ops.map Prod.snd := by
  simp [failAll]

theorem outcome_of_mem_failAll {e : Raised ε} {ops : List (WriteOp σ ε β × ℕ)}
    {r : ℕ × Outcome ε β} (h : r ∈ failAll e ops) : r.2 = .exception e := by
  obtain ⟨op, -, rfl⟩ := List.mem_map.mp h
  rfl

namespace Recorded

variable {db : σ}

theorem create (db : σ) (now : ℚ) : (State.create db now : State σ ε β).Recorded db where
  tickets := by simp [State.create, settled]
  pending := by simp [State.create, settled]
  settled_le := by simp [State.create, settled]
  split := ⟨[], by simp [State.create, settled]⟩
  database := by simp [State.create, sequential]
  outcomes := by simp [State.create, sequential]
  idle := by simp [State.create]

theorem committed_le (h : s.Recorded db) : s.committed.length ≤ s.accepted.length := by
  obtain ⟨rest, hrest, -⟩ := h.split
  have := h.settled_le
  rw [hrest, List.length_append] at this
  omega

/-- Accepting an op gives it the next ticket. -/
theorem put (h : s.Recorded db) (op : WriteOp σ ε β) (lock : Option ℕ)
    (callers : List (Caller σ ε β)) :
    ({ s with
        queue := s.queue ++ [(op, s.accepted.length)]
        accepted := s.accepted ++ [op]
        lock := lock
        callers := callers } : State σ ε β).Recorded db := by
  have hle := h.settled_le
  have hcommitted := h.committed_le
  have htake : (s.accepted ++ [op]).take s.committed.length =
      s.accepted.take s.committed.length := List.take_append_of_le_length hcommitted
  refine
    { tickets := h.tickets
      pending := ?_
      settled_le := ?_
      split := h.split
      database := ?_
      outcomes := ?_
      idle := h.idle }
  · have hzip : (s.accepted ++ [op]).zipIdx = s.accepted.zipIdx ++ [(op, s.accepted.length)] := by
      simp [List.zipIdx_append]
    dsimp only
    rw [hzip, ← List.append_assoc, h.pending]
    exact (List.drop_append_of_le_length (by simpa using hle)).symm
  · exact le_trans hle (by simp)
  · dsimp only
    rw [htake]
    exact h.database
  · dsimp only
    rw [htake]
    exact h.outcomes

theorem callerStep (h : s.Recorded db) {i : ℕ}
    (hstep : s.callerStep cfg i = some s') : s'.Recorded db := by
  cases callerStep_move hstep with
  | refuse => exact { h with }
  | enter => exact { h with }
  | put => exact h.put _ none _
  | answer => exact { h with }
  | alreadyStopped => exact { h with }
  | markStopped => exact { h with }
  | signal => exact { h with }
  | join => exact { h with }

/-- The writer moves on without settling anything. -/
theorem goto (h : s.Recorded db) (pc : Pc) (hfrom : s.pc ≠ .finish ∧ s.pc ≠ .ended ∧
    s.pc ≠ .fatalLock ∧ s.pc ≠ .fatalResolve) :
    ({ s with pc := pc } : State σ ε β).Recorded db := by
  obtain ⟨rest, hsplit, hrest, hpc⟩ := h.split
  have hnil : rest = [] := by
    by_contra hne
    rcases hpc hne with hfin | hfin
    · exact hfrom.1 hfin
    · exact hfrom.2.1 hfin
  exact { h with
    split := ⟨[], by rw [hnil] at hsplit; exact hsplit, by simp, by simp⟩
    idle := fun _ _ => h.idle hfrom.2.2.1 hfrom.2.2.2 }

/-- Everything pending is settled with exceptions. -/
theorem abandon (h : s.Recorded db) (hflushed : s.flushed = [])
    (failed : List (ℕ × Outcome ε β)) (htickets : failed.map Prod.fst =
      (s.batch ++ s.queue).map Prod.snd)
    (hfailed : ∀ r ∈ failed, r.2 = .exception .sqlite ∨ r.2 = .exception .stopped)
    {pc : Pc} (hpc : pc = .finish ∨ pc = .ended) {stopped : Bool} {conn : Connection σ}
    (hconn : conn = .idle s.conn.committed) :
    ({ s with
        resolved := s.resolved ++ failed
        batch := []
        queue := []
        conn := conn
        stopped := stopped
        pc := pc } : State σ ε β).Recorded db := by
  have hsettled : s.settled = s.resolved := by simp [settled, hflushed]
  obtain ⟨rest, hsplit, hrest, -⟩ := h.split
  obtain ⟨hrange, -, hpost, hlen⟩ := range_append_pending
    (show (s.batch ++ s.queue) ++ [] = s.accepted.zipIdx.drop s.settled.length by
      simpa using h.pending) h.settled_le
  have hflen : failed.length = (s.batch ++ s.queue).length := by
    simpa using congrArg List.length htickets
  have hnew : ({ s with
      resolved := s.resolved ++ failed
      batch := []
      queue := []
      conn := conn
      stopped := stopped
      pc := pc } : State σ ε β).settled = s.settled ++ failed := by
    simp [settled, hflushed]
  refine
    { tickets := ?_
      pending := ?_
      settled_le := ?_
      split := ⟨rest ++ failed, ?_, ?_, fun _ => hpc⟩
      database := ?_
      outcomes := h.outcomes
      idle := ?_ }
  · rw [hnew, List.map_append, List.length_append, h.tickets, htickets, hflen]
    exact hrange
  · rw [hnew, List.length_append, hflen]
    simpa using hpost
  · rw [hnew, List.length_append, hflen]
    simpa using hlen.le
  · rw [hnew, hsplit, List.append_assoc]
  · intro r hr
    rcases List.mem_append.mp hr with hr | hr
    · exact hrest r hr
    · exact hfailed r hr
  · simpa [hconn] using h.database
  · intro _ _
    simp [hconn]

/-- The op at the head of the queue joins the batch. -/
theorem take (h : s.Recorded db) {op : WriteOp σ ε β × ℕ} {queue : List (WriteOp σ ε β × ℕ)}
    (hpc : s.pc = .get) (hqueue : s.queue = op :: queue) (deadline : Option ℚ) :
    ({ s with
        queue := queue
        batch := s.batch ++ [op]
        batchDeadline := deadline
        pc := .decide } : State σ ε β).Recorded db := by
  have hgo := h.goto .decide (by simp [hpc])
  have hpending := h.pending
  rw [hqueue] at hpending
  exact { hgo with pending := by simpa [settled] using hpending }

/-- A batch that fails is rolled back. -/
theorem failCommit (h : s.Recorded db) {failAt : Option ℕ} {x : Session σ}
    (hpc : s.pc = .commit)
    (hbatch : commitBatch failAt (s.batch.map Prod.fst) ⟨s.conn, 0⟩ = .error () x) :
    ({ s with conn := x.conn, pc := .fatalLock } : State σ ε β).Recorded db := by
  have hgo := h.goto .fatalLock (by simp [hpc])
  rw [h.idle (by simp [hpc]) (by simp [hpc])] at hbatch
  exact { hgo with
    database := by
      rw [committed_of_commitBatch_error hbatch]
      exact h.database
    idle := by simp }

/-- A batch that commits does what the sequential execution does next. -/
theorem commit (h : s.Recorded db) (hg : s.Guarded) {failAt : Option ℕ} {x : Session σ}
    {outcomes : List (Outcome ε β)} (hpc : s.pc = .commit)
    (hbatch : commitBatch failAt (s.batch.map Prod.fst) ⟨s.conn, 0⟩ = .ok outcomes x) :
    ({ s with
        conn := x.conn
        committed := s.committed ++ (s.batch.map Prod.snd).zip outcomes
        flushed := (s.batch.map Prod.snd).zip outcomes
        batch := []
        batchDeadline := none
        pc := .refresh } : State σ ε β).Recorded db := by
  have hflushed := hg.flushed_eq_nil (by simp [hpc])
  have hsettled : s.settled = s.resolved := by simp [settled, hflushed]
  obtain ⟨rest, hsplit, -, hrest⟩ := h.split
  obtain rfl : rest = [] := by
    by_contra hne
    rcases hrest hne with hfin | hfin <;> simp [hpc] at hfin
  rw [List.append_nil] at hsplit
  obtain ⟨hrange, htake, hpost, hlen⟩ := range_append_pending h.pending h.settled_le
  rw [h.idle (by simp [hpc]) (by simp [hpc])] at hbatch
  obtain ⟨houtcomes, hconn⟩ := sequential_of_commitBatch_ok hbatch
  have holen : outcomes.length = s.batch.length := by simp [houtcomes]
  have hzip : ((s.batch.map Prod.snd).zip outcomes).length = s.batch.length := by
    simp [holen]
  have hfst : ((s.batch.map Prod.snd).zip outcomes).map Prod.fst = s.batch.map Prod.snd :=
    List.map_fst_zip (by simp [holen])
  have hsnd : ((s.batch.map Prod.snd).zip outcomes).map Prod.snd = outcomes :=
    List.map_snd_zip (by simp [holen])
  have hcommitted :
      s.accepted.take (s.committed ++ (s.batch.map Prod.snd).zip outcomes).length =
      s.accepted.take s.committed.length ++ s.batch.map Prod.fst := by
    rw [List.length_append, hzip, ← hsplit, htake]
  have happend := sequential_append db (s.accepted.take s.committed.length)
    (s.batch.map Prod.fst)
  rw [← h.database] at happend
  refine
    { tickets := ?_
      pending := ?_
      settled_le := ?_
      split := ⟨[], ?_, by simp, by simp⟩
      database := ?_
      outcomes := ?_
      idle := fun _ _ => by rw [hconn]; rfl }
  · simp only [settled, List.map_append, List.length_append, hfst, hzip]
    rw [← hsettled, h.tickets]
    exact hrange
  · simp only [settled, List.length_append, hzip]
    rw [← hsettled]
    simpa using hpost
  · simp only [settled, List.length_append, hzip]
    rw [← hsettled]
    omega
  · simp only [settled, List.append_nil]
    rw [← hsettled, hsplit]
  · dsimp only
    rw [hcommitted, happend, hconn]
    rfl
  · dsimp only
    rw [hcommitted, happend, List.map_append, hsnd, h.outcomes, houtcomes]

/-- The ops of the batch get their outcomes. -/
theorem resolve (h : s.Recorded db) (hpc : s.pc = .resolve) :
    ({ s with
        resolved := s.resolved ++ s.flushed
        flushed := []
        pc := .stopCheck } : State σ ε β).Recorded db := by
  have hgo := h.goto .stopCheck (by simp [hpc])
  have hsettled : (s.resolved ++ s.flushed) ++ [] = s.settled := by simp [settled]
  obtain ⟨rest, hsplit, hrest⟩ := hgo.split
  exact { hgo with
    tickets := by
      rw [settled, hsettled]
      exact h.tickets
    pending := by
      rw [settled, hsettled]
      exact h.pending
    settled_le := by
      rw [settled, hsettled]
      exact h.settled_le
    split := ⟨rest, by rw [settled, hsettled]; exact hsplit, hrest⟩ }

/-- What is pending when the writer stops without draining is given up. -/
theorem discard (h : s.Recorded db) (hg : s.Guarded) (hpc : s.pc = .discard) :
    ({ s with
        resolved := s.resolved ++ failAll .stopped (s.batch ++ s.queue)
        batch := []
        queue := []
        pc := .finish } : State σ ε β).Recorded db :=
  h.abandon (hg.flushed_eq_nil (by simp [hpc])) (failAll .stopped (s.batch ++ s.queue)) (by simp)
    (fun _ hr => Or.inr (outcome_of_mem_failAll hr)) (Or.inl rfl)
    (h.idle (by simp [hpc]) (by simp [hpc]))

/-- The thread ends after the last checkpoint. -/
theorem finish (h : s.Recorded db) (hpc : s.pc = .finish) :
    ({ s with pc := .ended } : State σ ε β).Recorded db := by
  obtain ⟨rest, hsplit, hrest, -⟩ := h.split
  exact { h with
    split := ⟨rest, hsplit, hrest, fun _ => Or.inr rfl⟩
    idle := fun _ _ => h.idle (by simp [hpc]) (by simp [hpc]) }

/-- The fatal path takes the lock. -/
theorem lockFatal (h : s.Recorded db) (hpc : s.pc = .fatalLock) :
    ({ s with
        stopped := true
        stopRequested := true
        pc := .fatalResolve } : State σ ε β).Recorded db := by
  obtain ⟨rest, hsplit, hrest, hfin⟩ := h.split
  exact { h with
    split := ⟨rest, hsplit, hrest, fun hne => by
      rcases hfin hne with h' | h' <;> simp [hpc] at h'⟩
    idle := by simp }

/-- The fatal path gives up the batch and the queue. -/
theorem failFatally (h : s.Recorded db) (hg : s.Guarded) (hpc : s.pc = .fatalResolve) :
    ({ s with
        resolved := s.resolved ++ (failAll .sqlite s.batch ++ failAll .stopped s.queue)
        batch := []
        queue := []
        conn := s.conn.close
        pc := .ended } : State σ ε β).Recorded db := by
  refine h.abandon (hg.flushed_eq_nil (by simp [hpc]))
    (failAll .sqlite s.batch ++ failAll .stopped s.queue) (by simp) ?_ (Or.inr rfl) rfl
  intro r hr
  rcases List.mem_append.mp hr with hr | hr
  · exact Or.inl (outcome_of_mem_failAll hr)
  · exact Or.inr (outcome_of_mem_failAll hr)

theorem writerStep (h : s.Recorded db) (hg : s.Guarded) {input : Input}
    (hstep : s.writerStep cfg input = some s') : s'.Recorded db := by
  cases writerStep_move hstep with
  | timesOut hpc => exact h.goto _ (by simp [hpc])
  | takes hpc hqueue => exact h.take hpc hqueue _
  | decides hpc => exact { h.goto (if s.flushes cfg (input.now 0) then .commit else .housekeep)
      (by simp [hpc]) with }
  | commitRaises hpc hbatch => exact h.failCommit hpc hbatch
  | commits hpc hbatch => exact h.commit hg hpc hbatch
  | refreshRaises hpc => exact h.goto _ (by simp [hpc])
  | refreshes hpc => exact h.goto _ (by simp [hpc])
  | housekeepRaises hpc => exact h.goto _ (by simp [hpc])
  | housekeeps hpc => exact { h.goto .resolve (by simp [hpc]) with }
  | resolves hpc => exact h.resolve hpc
  | continues hpc => exact h.goto _ (by simp [hpc])
  | drained hpc => exact h.goto _ (by simp [hpc])
  | givesUp hpc => exact h.goto _ (by simp [hpc])
  | discards hpc => exact h.discard hg hpc
  | finishes hpc => exact h.finish hpc
  | locks hpc => exact h.lockFatal hpc
  | failsAll hpc => exact h.failFatally hg hpc

theorem step (h : s.Recorded db) (hg : s.Guarded) {e : Event σ ε β}
    (hstep : s.step cfg e = some s') : s'.Recorded db := by
  cases e with
  | submit op =>
      obtain rfl := Option.some.inj hstep
      exact { h with }
  | submitAndWait op =>
      obtain rfl := Option.some.inj hstep
      exact { h with }
  | stop drain =>
      obtain rfl := Option.some.inj hstep
      exact { h with }
  | caller i => exact h.callerStep hstep
  | writer input => exact h.writerStep hg hstep

end Recorded

/-- Every reachable state of the writer satisfies both invariants. -/
theorem invariant_run {db : σ} {now : ℚ} {events : List (Event σ ε β)}
    (hrun : (machine σ ε β cfg).run (create db now) events = some s) :
    s.Guarded ∧ s.Recorded db :=
  Machine.run_invariant (M := machine σ ε β cfg)
    (P := fun s : State σ ε β => s.Guarded ∧ s.Recorded db)
    (fun _ _ _ h hstep => ⟨h.1.step hstep, h.2.step h.1 hstep⟩)
    ⟨Guarded.create db now, Recorded.create db now⟩ hrun

end State

end RerollSync.Writer
