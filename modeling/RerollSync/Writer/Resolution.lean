import RerollSync.Writer.Invariant

/-!
# Every accepted op is resolved exactly once

The loop commits a batch, then runs its housekeeping `PRAGMA`s, and only then
resolves the batch.  A `PRAGMA` that raises there ends the thread with the batch
unresolved and the writer not marked stopped, so that later ops are accepted
and never resolved either.  This is the only way an accepted op is lost.
-/

namespace RerollSync.Writer

open RerollSync.Support

variable {σ ε β : Type} {cfg : Config} {s s' : State σ ε β} {e : Event σ ε β} {db : σ}

/-- The outcome of an op in the reference is that of its `apply`, on what the ops before
it leave. -/
theorem getElem?_sequential (db : σ) (ops : List (WriteOp σ ε β)) (i : ℕ) :
    (sequential db ops).2[i]? =
      ops[i]?.map fun op => (op.alone (sequential db (ops.take i)).1).2 := by
  induction ops generalizing db i with
  | nil => simp [sequential]
  | cons op ops ih =>
      cases i with
      | zero => simp [sequential]
      | succ i => simpa [sequential] using ih (op.alone db).1 i

/-- An op applied alone has a value exactly when its `apply` does not raise. -/
theorem WriteOp.alone_value_iff {op : WriteOp σ ε β} :
    (∃ v, (op.alone db).2 = .value v) ↔ ¬∃ e, (op.apply db).2 = .error e := by
  rw [WriteOp.alone]
  split
  next heq => simp [heq]
  next heq => simp [heq]

namespace State

/-- The `apply` of an accepted op raises, on the database that the ops accepted before it
leave. -/
def Raises (db : σ) (s : State σ ε β) (ticket : ℕ) : Prop :=
  ∃ op, s.accepted[ticket]? = some op ∧
    ∃ e, (op.apply (sequential db (s.accepted.take ticket)).1).2 = .error e

/-- Every accepted op was resolved exactly once, in the order of acceptance, and it
was told a value exactly when its batch committed and its own `apply` did not
raise. -/
structure ResolvedOnce (db : σ) (s : State σ ε β) : Prop where
  once : s.resolved.map Prod.fst = List.range s.accepted.length
  told : ∀ r ∈ s.resolved, (∃ v, r.2 = .value v) ↔
    r.1 ∈ s.committed.map Prod.fst ∧ ¬s.Raises db r.1

/-- No housekeeping statement of the loop raises while an accepted op is
unresolved, and no op is accepted once one has raised. -/
def HousekeepingSafe (cfg : Config) (s : State σ ε β) : Event σ ε β → Prop
  | .writer input =>
      (s.pc = .refresh ∧ raisesWithin input 1 ∨
        s.pc = .housekeep ∧ raisesWithin input (s.pragmasDue cfg input.now)) →
      s.resolved.length = s.accepted.length
  | .caller i => s.pc = .died → ¬CallerAt Caller.IsPutting s.callers i
  | _ => True

instance (cfg : Config) (s : State σ ε β) : DecidablePred (s.HousekeepingSafe cfg)
  | .writer input => inferInstanceAs (Decidable
      ((s.pc = .refresh ∧ raisesWithin input 1 ∨
        s.pc = .housekeep ∧ raisesWithin input (s.pragmasDue cfg input.now)) →
      s.resolved.length = s.accepted.length))
  | .caller i => inferInstanceAs (Decidable
      (s.pc = .died → ¬CallerAt Caller.IsPutting s.callers i))
  | .submit _ => isTrue trivial
  | .submitAndWait _ => isTrue trivial
  | .stop _ => isTrue trivial

/-- A committed op has the outcome of its own `apply`. -/
theorem Recorded.outcome_committed (h : s.Recorded db) {r : ℕ × Outcome ε β}
    (hr : r ∈ s.committed) : ∃ op, s.accepted[r.1]? = some op ∧
      r.2 = (op.alone (sequential db (s.accepted.take r.1)).1).2 := by
  obtain ⟨i, hi, hget⟩ := List.mem_iff_getElem.mp hr
  obtain ⟨rest, hsplit, -⟩ := h.split
  have hticket : r.1 = i := by
    have hsettled : s.settled[i]? = some r := by
      rw [hsplit, List.getElem?_append_left hi, List.getElem?_eq_getElem hi, hget]
    have hlt : i < s.settled.length := (List.getElem?_eq_some_iff.mp hsettled).1
    have hrange := congrArg (·[i]?) h.tickets
    rw [List.getElem?_map, hsettled, List.getElem?_range hlt] at hrange
    exact Option.some.inj hrange
  have houtcome : (s.committed.map Prod.snd)[i]? = some r.2 := by
    rw [List.getElem?_map, List.getElem?_eq_getElem hi, hget]
    rfl
  rw [h.outcomes, getElem?_sequential, List.getElem?_take_of_lt hi, List.take_take,
    min_eq_left hi.le] at houtcome
  obtain ⟨op, hop, hout⟩ := Option.map_eq_some_iff.mp houtcome
  exact ⟨op, hticket ▸ hop, hticket ▸ hout.symm⟩

theorem Recorded.told (h : s.Recorded db) {r : ℕ × Outcome ε β} (hr : r ∈ s.settled) :
    (∃ v, r.2 = .value v) ↔ r.1 ∈ s.committed.map Prod.fst ∧ ¬s.Raises db r.1 := by
  obtain ⟨rest, hsplit, hrest, -⟩ := h.split
  rw [hsplit] at hr
  rcases List.mem_append.mp hr with hc | hc
  · obtain ⟨op, hop, hout⟩ := h.outcome_committed hc
    have hticket : r.1 ∈ s.committed.map Prod.fst := List.mem_map_of_mem hc
    rw [hout, WriteOp.alone_value_iff]
    simp [hticket, Raises, hop]
  · have hnodup := h.tickets ▸ List.nodup_range (n := s.settled.length)
    rw [hsplit, List.map_append, List.nodup_append] at hnodup
    have hticket : r.1 ∉ s.committed.map Prod.fst := fun hmem =>
      hnodup.2.2 _ hmem _ (List.mem_map_of_mem hc) rfl
    rcases hrest r hc with he | he <;> simp [he, hticket]

/-- When nothing accepted is left unresolved, everything was resolved once. -/
theorem Recorded.resolvedOnce (h : s.Recorded db)
    (hall : s.resolved.length = s.accepted.length) : s.ResolvedOnce db := by
  have hflushed : s.flushed = [] := by
    have hle := h.settled_le
    rw [settled, List.length_append] at hle
    exact List.length_eq_zero_iff.mp (by omega)
  have hsettled : s.settled = s.resolved := by simp [settled, hflushed]
  constructor
  · rw [← hall, ← hsettled]
    exact h.tickets
  · intro r hr
    exact h.told (hsettled ▸ hr)

/-- A writer that ended has resolved everything. -/
theorem Recorded.length_resolved_of_ended (h : s.Recorded db) (hg : s.Guarded)
    (hpc : s.pc = .ended) : s.resolved.length = s.accepted.length := by
  obtain ⟨hbatch, hqueue⟩ := hg.emptied (Or.inr hpc)
  have hflushed := hg.flushed_eq_nil (by simp [hpc])
  have hpending := congrArg List.length h.pending
  have hle := h.settled_le
  rw [hbatch, hqueue] at hpending
  simp only [settled, hflushed, List.append_nil, List.length_drop, List.length_zipIdx,
    List.length_nil] at hpending hle
  omega

/-- A step that keeps to the condition leaves nothing unresolved if the thread
died in it or before it. -/
theorem resolved_of_died (hsafe : s.HousekeepingSafe cfg e)
    (h : s.pc = .died → s.resolved.length = s.accepted.length)
    (hstep : s.step cfg e = some s') : s'.pc = .died → s'.resolved.length = s'.accepted.length := by
  cases e with
  | submit op =>
      obtain rfl := Option.some.inj hstep
      exact h
  | submitAndWait op =>
      obtain rfl := Option.some.inj hstep
      exact h
  | stop drain =>
      obtain rfl := Option.some.inj hstep
      exact h
  | caller i =>
      cases callerStep_move hstep with
      | put hc => exact fun hpc => (hsafe hpc ((callerAt_iff hc).mpr trivial)).elim
      | refuse => exact h
      | enter => exact h
      | answer => exact h
      | alreadyStopped => exact h
      | markStopped => exact h
      | signal => exact h
      | join => exact h
  | writer input =>
      cases writerStep_move hstep with
      | refreshRaises hpc hraise => exact fun _ => hsafe (Or.inl ⟨hpc, hraise⟩)
      | housekeepRaises hpc hraise => exact fun _ => hsafe (Or.inr ⟨hpc, hraise⟩)
      | decides =>
          dsimp only
          split <;> simp
      | _ => simp

/-- An op lost to a dead thread stays lost. -/
theorem lost_step (h : s.pc = .died ∧ s.resolved.length < s.accepted.length)
    (hstep : s.step cfg e = some s') :
    s'.pc = .died ∧ s'.resolved.length < s'.accepted.length := by
  obtain ⟨hdied, hlt⟩ := h
  cases e with
  | submit op =>
      obtain rfl := Option.some.inj hstep
      exact ⟨hdied, hlt⟩
  | submitAndWait op =>
      obtain rfl := Option.some.inj hstep
      exact ⟨hdied, hlt⟩
  | stop drain =>
      obtain rfl := Option.some.inj hstep
      exact ⟨hdied, hlt⟩
  | caller i =>
      cases callerStep_move hstep with
      | put =>
          refine ⟨hdied, ?_⟩
          simp only [List.length_append]
          omega
      | refuse => exact ⟨hdied, hlt⟩
      | enter => exact ⟨hdied, hlt⟩
      | answer => exact ⟨hdied, hlt⟩
      | alreadyStopped => exact ⟨hdied, hlt⟩
      | markStopped => exact ⟨hdied, hlt⟩
      | signal => exact ⟨hdied, hlt⟩
      | join => exact ⟨hdied, hlt⟩
  | writer input => simp [step, writerStep, hdied] at hstep

/-- A step that breaks the condition loses an op. -/
theorem lost_of_not_safe (hr : s.Recorded db) (hnot : ¬s.HousekeepingSafe cfg e)
    (hstep : s.step cfg e = some s') :
    s'.pc = .died ∧ s'.resolved.length < s'.accepted.length := by
  have hle : s.resolved.length ≤ s.accepted.length := by
    have := hr.settled_le
    rw [settled, List.length_append] at this
    omega
  cases e with
  | writer input =>
      simp only [HousekeepingSafe, Classical.not_imp] at hnot
      obtain ⟨hraise, hne⟩ := hnot
      have hlt : s.resolved.length < s.accepted.length := lt_of_le_of_ne hle hne
      rcases hraise with ⟨hpc, hraise⟩ | ⟨hpc, hraise⟩
      · simp only [step, writerStep, hpc, hraise, if_true, Option.some.injEq] at hstep
        subst hstep
        exact ⟨rfl, hlt⟩
      · simp only [step, writerStep, hpc, hraise, if_true, Option.some.injEq] at hstep
        subst hstep
        exact ⟨rfl, hlt⟩
  | caller i =>
      simp only [HousekeepingSafe, Classical.not_imp, not_not] at hnot
      obtain ⟨hpc, hputting⟩ := hnot
      cases callerStep_move hstep with
      | put =>
          refine ⟨hpc, ?_⟩
          simp only [List.length_append, List.length_singleton]
          omega
      | refuse hc => exact ((callerAt_iff hc).mp hputting).elim
      | enter hc => exact ((callerAt_iff hc).mp hputting).elim
      | answer hc => exact ((callerAt_iff hc).mp hputting).elim
      | alreadyStopped hc => exact ((callerAt_iff hc).mp hputting).elim
      | markStopped hc => exact ((callerAt_iff hc).mp hputting).elim
      | signal hc => exact ((callerAt_iff hc).mp hputting).elim
      | join hc => exact ((callerAt_iff hc).mp hputting).elim
  | submit op => exact (hnot trivial).elim
  | submitAndWait op => exact (hnot trivial).elim
  | stop drain => exact (hnot trivial).elim

/-- Once the writer's thread has ended, by whatever path, every accepted op was
resolved exactly once and told the truth about its batch if and only if no
housekeeping statement of the loop raised while an op was unresolved and no op
was accepted after one had raised. -/
theorem resolvedOnce_iff_housekeepingSafe {now : ℚ} {events : List (Event σ ε β)}
    (hrun : (machine σ ε β cfg).run (create db now) events = some s)
    (hend : s.pc = .ended ∨ s.pc = .died) :
    s.ResolvedOnce db ↔
      (machine σ ε β cfg).Along (HousekeepingSafe cfg) (create db now) events := by
  obtain ⟨hg, hr⟩ := invariant_run hrun
  constructor
  · intro honce
    by_contra hnot
    obtain ⟨l₁, e, l₂, m, m', -, hrun₁, hunsafe, hstep, hrun₂⟩ :=
      Machine.exists_of_not_along hrun hnot
    have hlost := Machine.run_invariant (M := machine σ ε β cfg)
      (P := fun s : State σ ε β => s.pc = .died ∧ s.resolved.length < s.accepted.length)
      (fun _ _ _ h hstep => lost_step h hstep)
      (lost_of_not_safe (invariant_run hrun₁).2 hunsafe hstep) hrun₂
    have hlen := congrArg List.length honce.once
    rw [List.length_map, List.length_range] at hlen
    omega
  · intro hsafe
    have hdied := Machine.run_invariant_along (M := machine σ ε β cfg)
      (P := fun s : State σ ε β => s.pc = .died → s.resolved.length = s.accepted.length)
      (fun _ _ _ h hC hstep => resolved_of_died hC h hstep) (by simp [create]) hsafe hrun
    rcases hend with hpc | hpc
    · exact hr.resolvedOnce (hr.length_resolved_of_ended hg hpc)
    · exact hr.resolvedOnce (hdied hpc)

/-- A batch whose `COMMIT` raises (its fourth statement) and an op still queued are
both told of the failure. -/
theorem resolvedOnce_failed_commit :
    let op : WriteOp ℕ String ℕ := ⟨"add", fun db => (db + 1, .ok db)⟩
    ∃ s, (machine ℕ String ℕ ⟨1, 1, 60, 3600, 10⟩).run (create 0 0)
        [.submitAndWait op, .caller 0, .caller 0, .submitAndWait op, .caller 1, .caller 1,
          .writer ⟨fun _ => 0, none⟩, .writer ⟨fun _ => 0, none⟩, .writer ⟨fun _ => 0, some 3⟩,
          .writer ⟨fun _ => 0, none⟩, .writer ⟨fun _ => 0, none⟩] = some s ∧
      s.resolved = [(0, .exception .sqlite), (1, .exception .stopped)] ∧ s.ResolvedOnce 0 := by
  intro op
  have hcompute : ((machine ℕ String ℕ ⟨1, 1, 60, 3600, 10⟩).run (create 0 0)
      [.submitAndWait op, .caller 0, .caller 0, .submitAndWait op, .caller 1, .caller 1,
        .writer ⟨fun _ => 0, none⟩, .writer ⟨fun _ => 0, none⟩, .writer ⟨fun _ => 0, some 3⟩,
        .writer ⟨fun _ => 0, none⟩, .writer ⟨fun _ => 0, none⟩]).map
      (fun s => (s.pc, s.resolved)) =
      some (.ended, [(0, .exception .sqlite), (1, .exception .stopped)]) := by
    decide +kernel
  obtain ⟨s, hrun, hfacts⟩ := Option.map_eq_some_iff.mp hcompute
  obtain ⟨hpc, hresolved⟩ := Prod.mk.inj hfacts
  exact ⟨s, hrun, hresolved,
    (resolvedOnce_iff_housekeepingSafe hrun (Or.inl hpc)).mpr (by decide +kernel)⟩

/-- The batch is committed, `PRAGMA freelist_count` raises, and the thread is gone
with the op unresolved. -/
theorem freelist_error_loses_op :
    let op : WriteOp ℕ String ℕ := ⟨"add", fun db => (db + 1, .ok db)⟩
    ∃ s, (machine ℕ String ℕ ⟨1, 1, 60, 3600, 10⟩).run (create 0 0)
        [.submitAndWait op, .caller 0, .caller 0, .writer ⟨fun _ => 0, none⟩,
          .writer ⟨fun _ => 0, none⟩, .writer ⟨fun _ => 0, none⟩,
          .writer ⟨fun _ => 0, some 0⟩] = some s ∧
      s.pc = .died ∧ s.conn.committed = 1 ∧ s.resolved = [] ∧ ¬s.ResolvedOnce 0 := by
  intro op
  have hcompute : ((machine ℕ String ℕ ⟨1, 1, 60, 3600, 10⟩).run (create 0 0)
      [.submitAndWait op, .caller 0, .caller 0, .writer ⟨fun _ => 0, none⟩,
        .writer ⟨fun _ => 0, none⟩, .writer ⟨fun _ => 0, none⟩,
        .writer ⟨fun _ => 0, some 0⟩]).map
      (fun s => ((s.pc, s.resolved), s.conn.committed, s.accepted.length)) =
      some ((.died, []), 1, 1) := by
    decide +kernel
  obtain ⟨s, hrun, hfacts⟩ := Option.map_eq_some_iff.mp hcompute
  simp only [Prod.mk.injEq] at hfacts
  obtain ⟨⟨hpc, hresolved⟩, hdb, haccepted⟩ := hfacts
  refine ⟨s, hrun, hpc, hdb, hresolved, fun honce => ?_⟩
  have := congrArg List.length honce.once
  simp [hresolved, haccepted] at this

end State

end RerollSync.Writer
