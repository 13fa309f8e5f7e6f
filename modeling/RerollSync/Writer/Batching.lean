import RerollSync.Writer.Invariant

/-!
# Batching is invisible

When sqlite executes the writer's own statements without error, the writer is
the sequential execution of the ops it accepted: the committed database and the
delivered outcomes are those of applying the ops one after another, each alone,
wherever the batches were cut.
-/

namespace RerollSync.Writer

open RerollSync.Support

variable {σ ε β : Type} {cfg : Config} {s s' : State σ ε β} {db : σ}

/-- None of the writer's own statements raises in the step. -/
def Event.Clean : Event σ ε β → Prop
  | .writer input => input.failAt = none
  | _ => True

instance : DecidablePred (Event.Clean (σ := σ) (ε := ε) (β := β))
  | .writer input => inferInstanceAs (Decidable (input.failAt = none))
  | .submit _ => isTrue trivial
  | .submitAndWait _ => isTrue trivial
  | .stop _ => isTrue trivial
  | .caller _ => isTrue trivial

namespace State

/-- In a run without errors only `stop(drain=False)` gives ops up. -/
structure Undisturbed (s : State σ ε β) : Prop where
  nonfatal : s.pc ≠ .fatalLock ∧ s.pc ≠ .fatalResolve
  discarding : s.pc = .discard → s.drainOnStop = false
  split : ∃ rest, s.settled = s.committed ++ rest ∧ (∀ r ∈ rest, r.2 = .exception .stopped) ∧
    (rest ≠ [] → s.stopped = true ∧ s.drainOnStop = false)

namespace Undisturbed

theorem create (db : σ) (now : ℚ) : (State.create db now : State σ ε β).Undisturbed where
  nonfatal := by simp [State.create]
  discarding := by simp [State.create]
  split := ⟨[], by simp [State.create, settled]⟩

theorem callerStep (h : s.Undisturbed) (hg : s.Guarded) {i : ℕ}
    (hstep : s.callerStep cfg i = some s') : s'.Undisturbed := by
  cases callerStep_move hstep with
  | refuse => exact { h with }
  | enter => exact { h with }
  | put => exact { h with }
  | answer => exact { h with }
  | alreadyStopped => exact { h with }
  | markStopped hc hlock hstop =>
      obtain ⟨rest, hsplit, hrest, hne⟩ := h.split
      have hnil : rest = [] := by
        by_contra h'
        simp [(hne h').1] at hstop
      refine { h with discarding := ?_, split := ⟨[], ?_, by simp, by simp⟩ }
      · intro hpc
        simp [hg.closing (Or.inl hpc)] at hstop
      · rw [hnil] at hsplit
        exact hsplit
  | signal => exact { h with }
  | join => exact { h with }

/-- A step of the loop that settles nothing and goes neither to the fatal path nor
to the discard. -/
theorem goto (h : s.Undisturbed) (pc : Pc) (hpc : pc ≠ .fatalLock ∧ pc ≠ .fatalResolve ∧
    pc ≠ .discard) : ({ s with pc := pc } : State σ ε β).Undisturbed :=
  { h with
    nonfatal := ⟨hpc.1, hpc.2.1⟩
    discarding := fun heq => (hpc.2.2 heq).elim }

theorem writerStep (h : s.Undisturbed) (hg : s.Guarded) (hr : s.Recorded db) {input : Input}
    (hclean : input.failAt = none) (hstep : s.writerStep cfg input = some s') :
    s'.Undisturbed := by
  have hraise : ∀ n, ¬raisesWithin input n := by simp [raisesWithin, hclean]
  cases writerStep_move hstep with
  | timesOut => exact h.goto _ (by simp)
  | takes => exact { h.goto .decide (by simp) with }
  | decides =>
      exact { h.goto (if s.flushes cfg (input.now 0) then .commit else .housekeep)
        (by split <;> simp) with }
  | commitRaises hpc hbatch =>
      rw [hr.idle (by simp [hpc]) (by simp [hpc])] at hbatch
      rcases completes_commitBatch input.failAt (s.batch.map Prod.fst) s.conn.committed 0 with
        ⟨executed, hok⟩ | ⟨hfail, -⟩
      · rw [hbatch] at hok
        cases hok
      · exact (hfail hclean).elim
  | @commits outcomes x hpc =>
      obtain ⟨rest, hsplit, hrest, hne⟩ := hr.split
      have hnil : rest = [] := by
        by_contra h'
        rcases hne h' with hfin | hfin <;> simp [hpc] at hfin
      have hflushed := hg.flushed_eq_nil (by simp [hpc])
      refine { nonfatal := by simp, discarding := by simp, split := ⟨[], ?_, by simp, by simp⟩ }
      rw [hnil, settled, hflushed] at hsplit
      simpa [settled] using hsplit
  | refreshRaises _ h' => exact (hraise _ h').elim
  | refreshes => exact h.goto _ (by simp)
  | housekeepRaises _ h' => exact (hraise _ h').elim
  | housekeeps => exact { h.goto .resolve (by simp) with }
  | resolves hpc =>
      have hgo := h.goto .stopCheck (by simp)
      obtain ⟨rest, hsplit, hrest⟩ := h.split
      exact { hgo with split := ⟨rest, by simpa [settled] using hsplit, hrest⟩ }
  | continues => exact h.goto _ (by simp)
  | drained => exact h.goto _ (by simp)
  | givesUp hpc hsaw hdrain => exact { h with
      nonfatal := by simp
      discarding := fun _ => hdrain }
  | discards hpc =>
      have hflushed := hg.flushed_eq_nil (by simp [hpc])
      obtain ⟨rest, hsplit, hrest, -⟩ := h.split
      refine
        { nonfatal := by simp
          discarding := by simp
          split := ⟨rest ++ failAll .stopped (s.batch ++ s.queue), ?_, ?_, fun _ =>
            ⟨hg.closing (Or.inl hpc), h.discarding hpc⟩⟩ }
      · rw [settled, hflushed, List.append_nil] at hsplit
        simp [settled, hflushed, hsplit]
      · intro r hr
        rcases List.mem_append.mp hr with hr | hr
        · exact hrest r hr
        · obtain ⟨op, -, rfl⟩ := List.mem_map.mp hr
          rfl
  | finishes => exact h.goto _ (by simp)
  | locks hpc => exact (h.nonfatal.1 hpc).elim
  | failsAll hpc => exact (h.nonfatal.2 hpc).elim

theorem step (h : s.Undisturbed) (hg : s.Guarded) (hr : s.Recorded db) {e : Event σ ε β}
    (hclean : e.Clean) (hstep : s.step cfg e = some s') : s'.Undisturbed := by
  cases e with
  | submit op =>
      obtain rfl := Option.some.inj hstep
      exact { h with }
  | submitAndWait op =>
      obtain rfl := Option.some.inj hstep
      exact { h with }
  | stop drain =>
      obtain rfl := Option.some.inj hstep
      exact { h with }
  | caller i => exact h.callerStep hg hstep
  | writer input => exact h.writerStep hg hr hclean hstep

end Undisturbed

theorem undisturbed_run {now : ℚ} {events : List (Event σ ε β)}
    (hclean : (machine σ ε β cfg).Along (fun _ e => e.Clean) (create db now) events)
    (hrun : (machine σ ε β cfg).run (create db now) events = some s) :
    s.Guarded ∧ s.Recorded db ∧ s.Undisturbed :=
  Machine.run_invariant_along (M := machine σ ε β cfg)
    (P := fun s : State σ ε β => s.Guarded ∧ s.Recorded db ∧ s.Undisturbed)
    (fun _ _ _ h hC hstep =>
      ⟨h.1.step hstep, h.2.1.step h.1 hstep, h.2.2.step h.1 h.2.1 hC hstep⟩)
    ⟨Guarded.create db now, Recorded.create db now, Undisturbed.create db now⟩ hclean hrun

/-- The outcome a committed op was given is the one of the sequential execution. -/
theorem Recorded.outcome_eq (h : s.Recorded db) {r : ℕ × Outcome ε β} (hr : r ∈ s.committed) :
    (sequential db s.accepted).2[r.1]? = some r.2 := by
  obtain ⟨i, hi, hget⟩ := List.getElem_of_mem hr
  obtain ⟨rest, hsplit, -⟩ := h.split
  have hticket : r.1 = i := by
    have hfst := congrArg (fun l => l[i]?) h.tickets
    have hlt : i < s.settled.length := by
      rw [hsplit, List.length_append]
      omega
    have hr' : s.settled[i]? = some r := by
      rw [hsplit, List.getElem?_append_left hi, List.getElem?_eq_getElem hi, hget]
    rw [List.getElem?_map, hr', List.getElem?_range hlt] at hfst
    simpa using hfst
  have htake := sequential_append db (s.accepted.take s.committed.length)
    (s.accepted.drop s.committed.length)
  rw [List.take_append_drop] at htake
  have hlen : i < (sequential db (s.accepted.take s.committed.length)).2.length := by
    rw [← h.outcomes, List.length_map]
    exact hi
  rw [htake, hticket, List.getElem?_append_left hlen, ← h.outcomes, List.getElem?_map,
    List.getElem?_eq_getElem hi, hget]
  rfl

/-- In every state of every run in which the writer's own statements do not raise,
the committed database is that of the committed ops applied one after another,
an op's outcome is delivered only once it is committed and is the one of the
sequential execution of everything accepted, ops are given up only by
`stop(drain=False)`, and a writer that ended without it committed and resolved
everything. -/
theorem batching_invisible {now : ℚ} {events : List (Event σ ε β)}
    (hclean : (machine σ ε β cfg).Along (fun _ e => e.Clean) (create db now) events)
    (hrun : (machine σ ε β cfg).run (create db now) events = some s) :
    s.conn.committed = (sequential db (s.accepted.take s.committed.length)).1 ∧
    (∀ r ∈ s.resolved,
      r ∈ s.committed ∧ (sequential db s.accepted).2[r.1]? = some r.2 ∨
      s.drainOnStop = false ∧ r.2 = .exception .stopped) ∧
    (s.pc = .ended → s.drainOnStop = true →
      s.committed.length = s.accepted.length ∧ s.resolved = s.committed) := by
  obtain ⟨hg, hr, hu⟩ := undisturbed_run hclean hrun
  obtain ⟨rest, hsplit, hrest, hne⟩ := hu.split
  refine ⟨hr.database, ?_, ?_⟩
  · intro r hmem
    have hsettled : r ∈ s.committed ++ rest := hsplit ▸ List.mem_append_left _ hmem
    rcases List.mem_append.mp hsettled with hc | hc
    · exact Or.inl ⟨hc, hr.outcome_eq hc⟩
    · exact Or.inr ⟨(hne (List.ne_nil_of_mem hc)).2, hrest r hc⟩
  · intro hpc hdrain
    have hnil : rest = [] := by
      by_contra h'
      simp [hdrain] at hne
      exact h' hne
    have hflushed := hg.flushed_eq_nil (by simp [hpc])
    have hresolved : s.resolved = s.committed := by
      rw [hnil, settled, hflushed] at hsplit
      simpa using hsplit
    obtain ⟨hbatch, hqueue⟩ := hg.emptied (Or.inr hpc)
    have hpending := congrArg List.length hr.pending
    have hle := hr.settled_le
    rw [hbatch, hqueue] at hpending
    simp only [settled, hflushed, List.append_nil, List.length_drop, List.length_zipIdx,
      List.length_nil] at hpending hle
    exact ⟨by rw [← hresolved]; omega, hresolved⟩

/-- Three ops, the second of which raises after it has written, cut into a batch of
two and one flushed by the drain. -/
theorem batching_invisible_three_ops :
    let op (v : ℕ) (raises : Bool) : WriteOp (List ℕ) String ℕ :=
      ⟨"append", fun db => (db ++ [v], if raises then .error "boom" else .ok v)⟩
    let submit (op : WriteOp (List ℕ) String ℕ) (i : ℕ) : List (Event (List ℕ) String ℕ) :=
      [.submitAndWait op, .caller i, .caller i]
    ∃ s, (machine (List ℕ) String ℕ ⟨2, 1, 60, 3600, 10⟩).run (create [] 0)
        (submit (op 1 false) 0 ++ submit (op 2 true) 1 ++ submit (op 3 false) 2 ++
          [.stop true, .caller 3, .caller 3] ++
          List.replicate 20 (.writer ⟨fun _ => 0, none⟩)) = some s ∧
      s.pc = .ended ∧ s.conn.committed = [1, 3] ∧
      s.conn.committed = (sequential [] (s.accepted.take s.committed.length)).1 ∧
      s.committed.length = s.accepted.length := by
  intro op submit
  have hcompute : ((machine (List ℕ) String ℕ ⟨2, 1, 60, 3600, 10⟩).run (create [] 0)
      (submit (op 1 false) 0 ++ submit (op 2 true) 1 ++ submit (op 3 false) 2 ++
        [.stop true, .caller 3, .caller 3] ++
        List.replicate 20 (.writer ⟨fun _ => 0, none⟩))).map
      (fun s => (s.pc, s.drainOnStop, s.conn.committed)) = some (.ended, true, [1, 3]) := by
    decide +kernel
  obtain ⟨s, hrun, hfacts⟩ := Option.map_eq_some_iff.mp hcompute
  simp only [Prod.mk.injEq] at hfacts
  have hmain := batching_invisible (by decide +kernel) hrun
  exact ⟨s, hrun, hfacts.1, hfacts.2.2, hmain.1, (hmain.2.2 hfacts.1 hfacts.2.1).1⟩

end State

end RerollSync.Writer
