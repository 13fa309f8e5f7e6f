import RerollSync.Daemon.Shutdown

/-!
# What a shutdown leaves

However the threads, the callers of `shutdown` and the commands interleave: as long as no join
gives up, the writer is stopped after the last thread, no fetched item is turned away, and what
was handed off has been archived unless the archive thread had looked too early.
-/

namespace RerollSync.Daemon

open RerollSync.Support RerollSync.Fetch RerollSync.Stages ByteBudgetedQueue Traffic

variable {α : Type}

namespace Service

/-! ## The order of the sequence -/

/-- What comes before a statement of a sequence is done when it is. -/
theorem prefix_of_mem_done {done rest pre post : List ShutdownAction} {action : ShutdownAction}
    (heq : done ++ rest = pre ++ action :: post) (hmem : action ∈ done) (hpre : action ∉ pre) :
    pre <+: done := by
  obtain ⟨mid, hmid, -⟩ | ⟨mid, hmid, -⟩ := List.append_eq_append_iff.mp heq
  · -- `done` would be a part of `pre`
    exact (hpre (hmid ▸ List.mem_append_left mid hmem)).elim
  · exact ⟨mid, hmid.symm⟩

theorem join_fetch_of_closeQueue {names : List String} {done rest : List ShutdownAction}
    (heq : done ++ rest = shutdownSequence names) (hmem : .closeQueue ∈ done) :
    .join (.stage "fetch") ∈ done := by
  have hsplit : shutdownSequence names =
      [.restrict, .setEvent, .setDeadline, .join (.stage "fetch")] ++ .closeQueue ::
        ((names.filter (· ≠ "fetch")).map (fun name => .join (.stage name)) ++
          [.join .archive, .stopWriter, .stopControl, .stopMetrics, .release, .setStopped]) := by
    simp [shutdownSequence]
  obtain ⟨tail, rfl⟩ := prefix_of_mem_done (heq.trans hsplit) hmem (by simp)
  simp

/-- Every thread has been joined when the writer is stopped. -/
theorem joins_of_stopWriter {names : List String} {done rest : List ShutdownAction}
    (heq : done ++ rest = shutdownSequence names) (hmem : .stopWriter ∈ done) :
    .join .archive ∈ done ∧ ∀ name ∈ names, .join (.stage name) ∈ done := by
  have hsplit : shutdownSequence names =
      ([.restrict, .setEvent, .setDeadline, .join (.stage "fetch"), .closeQueue] ++
        (names.filter (· ≠ "fetch")).map (fun name => .join (.stage name)) ++
        [.join .archive]) ++ .stopWriter ::
          [.stopControl, .stopMetrics, .release, .setStopped] := by
    simp [shutdownSequence]
  have hpre : ShutdownAction.stopWriter ∉
      [.restrict, .setEvent, .setDeadline, .join (.stage "fetch"), .closeQueue] ++
        (names.filter (· ≠ "fetch")).map (fun name => .join (.stage name)) ++
        [ShutdownAction.join .archive] := by
    simp
  obtain ⟨tail, rfl⟩ := prefix_of_mem_done (heq.trans hsplit) hmem hpre
  refine ⟨by simp, fun name hname => ?_⟩
  by_cases hfetch : name = "fetch"
  · simp [hfetch]
  · simp [hname, hfetch]

/-! ## What has ended stays ended -/

theorem loopEnded_step {loop loop' : LoopState} {e : LoopEvent} (h : loopEnded loop = true)
    (hstep : loopMachine.step loop e = some loop') :
    loopEnded loop' = true ∧ LoopAct.isOwn e.act = false := by
  obtain ⟨-, m, hact, rfl⟩ := loopMachine_step_iff.mp hstep
  have hphase : loop.phase = .stopped ∨ loop.phase = .died := by simpa [loopEnded] using h
  obtain ⟨now, monotonic, act⟩ := e
  cases act <;> rcases hphase with hphase | hphase <;>
    simp_all [LoopState.act, loopEnded, LoopAct.isOwn] <;> subst hact <;> simp

theorem not_iterating_of_loopEnded {loop : LoopState} (h : loopEnded loop = true) :
    loop.phase ≠ .iterating := by
  have hphase : loop.phase = .stopped ∨ loop.phase = .died := by simpa [loopEnded] using h
  rcases hphase with hphase | hphase <;> simp [hphase]

theorem pointEnded_step {h h' : Handoff α} {e : HandoffEvent α}
    (hended : pointEnded h.point = true) (hstep : h.step e = some h') :
    pointEnded h'.point = true := by
  have hadvance : ∀ event : TrafficEvent α, h.advance event h.point = some h' →
      pointEnded h'.point = true := by
    intro event hadv
    obtain ⟨t, -, rfl⟩ := Handoff.advance_eq_some.mp hadv
    exact hended
  cases e with
  | put thread item size => exact hadvance _ (Option.ite_none_left_eq_some.mp hstep).2
  | resume thread => exact hadvance _ (Option.ite_none_left_eq_some.mp hstep).2
  | wake thread => exact hadvance _ hstep
  | close => exact hadvance _ hstep
  | readPaused paused shutdown => cases hp : h.point <;> simp_all [Handoff.step, pointEnded]
  | readLength => cases hp : h.point <;> simp_all [Handoff.step, pointEnded]
  | readClosed => cases hp : h.point <;> simp_all [Handoff.step, pointEnded]
  | get => cases hp : h.point <;> simp_all [Handoff.step, pointEnded]
  | regain => cases hp : h.point <;> simp_all [Handoff.step, pointEnded]
  | finish => cases hp : h.point <;> simp_all [Handoff.step, pointEnded]
  | fail => cases hp : h.point <;> simp_all [Handoff.step, pointEnded]

/-! ## The users of the queue -/

/-- Who is inside a call on the queue: the fetch stage inside `put`, the archive thread inside
`get`. -/
structure Placed (t : Traffic α) : Prop where
  fetch : t.calls fetchThread ≠ some .get
  archive : ∀ item size, t.calls Handoff.archiveThread ≠ some (.put item size)

/-- What a step leaves as it is when it is no step of the fetch stage. -/
structure Aside (t t' : Traffic α) : Prop where
  placed : Placed t'
  fetch : t'.calls fetchThread = t.calls fetchThread
  closed : t'.queue.closed = t.queue.closed
  log : QueueReturn.queueClosed ∈ t'.log → QueueReturn.queueClosed ∈ t.log

theorem placed_of_fetch {t t' : Traffic α} (h : Placed t) {call : Option (QueueCall α)}
    (hcalls : t'.calls = Function.update t.calls fetchThread call) (hcall : call ≠ some .get) :
    Placed t' := by
  constructor
  · rwa [hcalls, Function.update_self]
  · rw [hcalls, Function.update_of_ne (by decide)]
    exact h.archive

theorem placed_tryPut {t : Traffic α} (h : Placed t) (item : α) (size : ℕ) :
    Placed (t.tryPut fetchThread item size) := by
  unfold tryPut
  split
  · exact placed_of_fetch h rfl (by simp)
  · split
    · exact placed_of_fetch h rfl (by simp)
    · exact placed_of_fetch h rfl (by simp)

theorem aside_of_archive {t t' : Traffic α} (h : Placed t) {call : Option (QueueCall α)}
    (hcalls : t'.calls = Function.update t.calls Handoff.archiveThread call)
    (hcall : ∀ item size, call ≠ some (.put item size))
    (hclosed : t'.queue.closed = t.queue.closed)
    (hlog : QueueReturn.queueClosed ∈ t'.log → QueueReturn.queueClosed ∈ t.log) : Aside t t' := by
  have hfetch : t'.calls fetchThread = t.calls fetchThread := by
    rw [hcalls, Function.update_of_ne (by decide)]
  refine ⟨⟨?_, ?_⟩, hfetch, hclosed, hlog⟩
  · rw [hfetch]
    exact h.fetch
  · rw [hcalls, Function.update_self]
    exact hcall

theorem aside_tryGet {t : Traffic α} (h : Placed t) : Aside t (t.tryGet Handoff.archiveThread) := by
  unfold tryGet
  split
  · split
    · exact aside_of_archive h rfl (by simp) rfl (by simp)
    · exact aside_of_archive h rfl (by simp) rfl id
  · exact aside_of_archive h rfl (by simp) rfl (by simp)

theorem aside_refl {t : Traffic α} (h : Placed t) : Aside t t := ⟨h, rfl, rfl, id⟩

/-- A step on the queue is a stretch of a `put` of the fetch stage, or leaves that stage
aside. -/
theorem handoff_cases {s : Service α} {h' : Handoff α} {e : HandoffEvent α}
    (hplaced : Placed s.handoff.traffic) (hallow : s.allows e = true)
    (hstep : s.handoff.step e = some h') :
    (∃ item size, h'.traffic = s.handoff.traffic.tryPut fetchThread item size ∧
      (s.iterating "fetch" = true ∨ s.putting = true)) ∨ Aside s.handoff.traffic h'.traffic := by
  cases e with
  | put thread item size =>
      obtain ⟨-, hstep⟩ := Option.ite_none_left_eq_some.mp hstep
      obtain ⟨t, ht, rfl⟩ := Handoff.advance_eq_some.mp hstep
      obtain ⟨rfl, hiterating⟩ : thread = fetchThread ∧ s.iterating "fetch" = true := by
        simpa [allows] using hallow
      refine .inl ⟨item, size, ?_, .inl hiterating⟩
      simp only [Traffic.step] at ht
      split at ht
      · exact (Option.some.inj ht).symm
      · cases ht
  | resume thread =>
      obtain ⟨-, hstep⟩ := Option.ite_none_left_eq_some.mp hstep
      obtain ⟨t, ht, rfl⟩ := Handoff.advance_eq_some.mp hstep
      obtain rfl : thread = fetchThread := by simpa [allows] using hallow
      simp only [Traffic.step] at ht
      split at ht
      · cases ht
      · obtain ⟨call, hcall, rfl⟩ := Option.map_eq_some_iff.mp ht
        cases call with
        | put item size =>
            refine .inl ⟨item, size, rfl, .inr ?_⟩
            rw [putting, hcall]
            rfl
        | get => exact (hplaced.fetch hcall).elim
  | wake thread =>
      obtain ⟨t, ht, rfl⟩ := Handoff.advance_eq_some.mp hstep
      obtain rfl := Option.some.inj ht
      exact .inr ⟨⟨hplaced.fetch, hplaced.archive⟩, rfl, rfl, id⟩
  | close => cases hallow
  | readPaused paused shutdown =>
      right
      simp only [Handoff.step] at hstep
      split at hstep
      · split at hstep
        · obtain rfl := Option.some.inj hstep
          exact aside_refl hplaced
        · obtain rfl := Option.some.inj hstep
          exact aside_refl hplaced
      · cases hstep
  | readLength =>
      right
      simp only [Handoff.step] at hstep
      split at hstep
      · obtain rfl := Option.some.inj hstep
        exact aside_refl hplaced
      · cases hstep
  | readClosed =>
      right
      simp only [Handoff.step] at hstep
      split at hstep
      · obtain rfl := Option.some.inj hstep
        exact aside_refl hplaced
      · cases hstep
  | get =>
      right
      simp only [Handoff.step] at hstep
      split at hstep
      · obtain ⟨t, ht, rfl⟩ := Handoff.advance_eq_some.mp hstep
        simp only [Traffic.step] at ht
        split at ht
        · obtain rfl := Option.some.inj ht
          exact aside_tryGet hplaced
        · cases ht
      · cases hstep
  | regain =>
      right
      simp only [Handoff.step] at hstep
      split at hstep
      · obtain ⟨t, ht, rfl⟩ := Handoff.advance_eq_some.mp hstep
        simp only [Traffic.step] at ht
        split at ht
        · cases ht
        · obtain ⟨call, hcall, rfl⟩ := Option.map_eq_some_iff.mp ht
          cases call with
          | put item size => exact (hplaced.archive item size hcall).elim
          | get => exact aside_tryGet hplaced
      · cases hstep
  | finish =>
      right
      simp only [Handoff.step] at hstep
      split at hstep
      · obtain ⟨m, hm, rfl⟩ := Option.map_eq_some_iff.mp hstep
        obtain ⟨t, ht, rfl⟩ := Handoff.advance_eq_some.mp hm
        obtain ⟨released, -, rfl⟩ := Option.map_eq_some_iff.mp ht
        exact ⟨⟨hplaced.fetch, hplaced.archive⟩, rfl, rfl, by simp [Traffic.release]⟩
      · cases hstep
  | fail =>
      right
      simp only [Handoff.step] at hstep
      split at hstep
      · obtain ⟨t, ht, rfl⟩ := Handoff.advance_eq_some.mp hstep
        obtain ⟨released, -, rfl⟩ := Option.map_eq_some_iff.mp ht
        exact ⟨⟨hplaced.fetch, hplaced.archive⟩, rfl, rfl, by simp [Traffic.release]⟩
      · cases hstep

/-- A `put` is turned away by a closed queue alone. -/
theorem queueClosed_of_tryPut {t : Traffic α} {item : α} {size : ℕ} (hopen : t.queue.closed = false)
    (h : QueueReturn.queueClosed ∈ (t.tryPut fetchThread item size).log) :
    QueueReturn.queueClosed ∈ t.log := by
  unfold tryPut at h
  split at h
  · exact h
  · simpa [hopen] using h

/-! ## What every step keeps -/

/-- The state of a shutdown, whoever has called for it and however far it has come. -/
structure Orderly (names : List String) (s : Service α) : Prop where
  keys : s.loops.keys = names
  begun : s.todo = none → s.done = []
  sequence : ∀ rest, s.todo = some rest → s.done ++ rest = shutdownSequence names
  placed : Placed s.handoff.traffic
  putting : s.putting = true → s.iterating "fetch" = true
  queue : s.handoff.traffic.queue.closed = true → .closeQueue ∈ s.done
  writer : s.writerStopped = true → .stopWriter ∈ s.done
  joined : s.gaveUp = false → ∀ thread, .join thread ∈ s.done → s.ended thread = true
  accepted : s.gaveUp = false → QueueReturn.queueClosed ∉ s.handoff.traffic.log
  refused : s.gaveUp = false → ∀ who ∈ s.refused, who = .command

/-- With every join in time, a closed queue finds the fetch stage at its end. -/
theorem Orderly.fetch_of_closed {names : List String} {s : Service α} (h : Orderly names s)
    (htime : s.gaveUp = false) (hclosed : s.handoff.traffic.queue.closed = true) :
    s.ended (.stage "fetch") = true := by
  have hmem := h.queue hclosed
  cases htodo : s.todo with
  | none =>
      rw [h.begun htodo] at hmem
      cases hmem
  | some rest =>
      exact h.joined htime _ (join_fetch_of_closeQueue (h.sequence rest htodo) hmem)

theorem not_iterating_of_ended {s : Service α} {name : String}
    (h : s.ended (.stage name) = true) : s.iterating name = false := by
  rw [iterating]
  rw [ended] at h
  cases hloop : s.loops.get? name with
  | none => rfl
  | some loop =>
      rw [hloop] at h
      simpa using not_iterating_of_loopEnded (by simpa using h)

/-- With every join in time, the writer is stopped after the threads have ended. -/
theorem Orderly.ended_of_stopWriter {names : List String} {s : Service α} (h : Orderly names s)
    (htime : s.gaveUp = false) (hstop : .stopWriter ∈ s.done) :
    s.ended .archive = true ∧ ∀ name, s.ended (.stage name) = true := by
  cases htodo : s.todo with
  | none =>
      rw [h.begun htodo] at hstop
      cases hstop
  | some rest =>
      obtain ⟨harchive, hstages⟩ := joins_of_stopWriter (h.sequence rest htodo) hstop
      refine ⟨h.joined htime _ harchive, fun name => ?_⟩
      by_cases hname : name ∈ names
      · exact h.joined htime _ (hstages name hname)
      · rw [ended, Table.get?_eq_none_iff.mpr (h.keys ▸ hname)]
        rfl

theorem orderly_start {stages : Table String Trigger} {now monotonic : ℚ}
    {queue : ByteBudgetedQueue α} (hopen : queue.closed = false) :
    Orderly stages.keys (start stages now monotonic queue) where
  keys := Table.keys_modify _ _
  begun _ := rfl
  sequence _ h := nomatch h
  placed := ⟨nofun, nofun⟩
  putting h := nomatch h
  queue h := absurd (hopen.symm.trans h) (by simp)
  writer h := nomatch h
  joined _ _ h := nomatch h
  accepted _ h := nomatch h
  refused _ _ h := nomatch h

/-- Two states in which the same threads are at the same places. -/
structure SamePlaces (s s' : Service α) : Prop where
  keys : s'.loops.keys = s.loops.keys
  phases : ∀ name,
    (s'.loops.get? name).map LoopState.phase = (s.loops.get? name).map LoopState.phase
  point : s'.handoff.point = s.handoff.point
  calls : s'.handoff.traffic.calls = s.handoff.traffic.calls

namespace SamePlaces

variable {s s' : Service α}

theorem ended (h : SamePlaces s s') (thread : ServiceThread) :
    s'.ended thread = s.ended thread := by
  have hall : ∀ name, (s'.loops.get? name).all loopEnded = (s.loops.get? name).all loopEnded := by
    intro name
    have hphase := h.phases name
    cases hs : s.loops.get? name <;> cases hs' : s'.loops.get? name <;> simp_all [loopEnded]
  have hfetch : s'.hasArchive = s.hasArchive := by
    rw [hasArchive, hasArchive, ← Option.isSome_map (f := LoopState.phase), h.phases,
      Option.isSome_map]
  cases thread with
  | stage name => exact hall name
  | archive => rw [Service.ended, Service.ended, hfetch, h.point]

theorem iterating (h : SamePlaces s s') (name : String) :
    s'.iterating name = s.iterating name := by
  have hphase := h.phases name
  rw [Service.iterating, Service.iterating]
  cases hs : s.loops.get? name <;> cases hs' : s'.loops.get? name <;> simp_all

end SamePlaces

/-- `shutdown` goes on to its next statement. -/
theorem Orderly.acted {names : List String} {s s' : Service α} (h : Orderly names s)
    {action : ShutdownAction} {rest : List ShutdownAction} (htodo : s.todo = some (action :: rest))
    (hplaces : SamePlaces s s') (hdone : s'.done = s.done ++ [action])
    (htodo' : s'.todo = some rest)
    (hlog : QueueReturn.queueClosed ∈ s'.handoff.traffic.log →
      QueueReturn.queueClosed ∈ s.handoff.traffic.log)
    (hqueue : s'.handoff.traffic.queue.closed = true →
      s.handoff.traffic.queue.closed = true ∨ action = .closeQueue)
    (hwriter : s'.writerStopped = true → s.writerStopped = true ∨ action = .stopWriter)
    (htime : s'.gaveUp = false →
      s.gaveUp = false ∧ ∀ thread, action = .join thread → s.ended thread = true)
    (hrefused : s'.refused = s.refused) : Orderly names s' where
  keys := hplaces.keys.trans h.keys
  begun hnone := nomatch htodo'.symm.trans hnone
  sequence rest' heq := by
    obtain rfl : rest = rest' := Option.some.inj (htodo'.symm.trans heq)
    rw [hdone, List.append_assoc]
    exact h.sequence _ htodo
  placed := ⟨hplaces.calls ▸ h.placed.fetch, hplaces.calls ▸ h.placed.archive⟩
  putting hputting := by
    rw [hplaces.iterating]
    apply h.putting
    rwa [Service.putting, hplaces.calls] at hputting
  queue hclosed := by
    rw [hdone]
    rcases hqueue hclosed with hold | rfl
    · exact List.mem_append_left _ (h.queue hold)
    · simp
  writer hstopped := by
    rw [hdone]
    rcases hwriter hstopped with hold | rfl
    · exact List.mem_append_left _ (h.writer hold)
    · simp
  joined hgave thread hmem := by
    obtain ⟨hgave, hended⟩ := htime hgave
    rw [hplaces.ended]
    rw [hdone] at hmem
    rcases List.mem_append.mp hmem with hold | hnew
    · exact h.joined hgave thread hold
    · exact hended thread (List.mem_singleton.mp hnew).symm
  accepted hgave hmem := h.accepted (htime hgave).1 (hlog hmem)
  refused hgave := by
    rw [hrefused]
    exact h.refused (htime hgave).1

theorem orderly_shutdownStep {names : List String} {s s' : Service α} {now monotonic : ℚ}
    (h : Orderly names s) (hstep : s.shutdownStep now monotonic = some s') : Orderly names s' := by
  rw [shutdownStep] at hstep
  cases htodo : s.todo with
  | none => simp [htodo] at hstep
  | some todo =>
      cases todo with
      | nil => simp [htodo] at hstep
      | cons action rest =>
          cases action with
          | restrict =>
              simp only [htodo, Option.some.injEq] at hstep
              subst hstep
              exact h.acted htodo ⟨rfl, fun _ => rfl, rfl, rfl⟩ rfl rfl id .inl .inl
                (fun hgave => ⟨hgave, by simp⟩) rfl
          | setEvent =>
              simp only [htodo, Option.some.injEq] at hstep
              subst hstep
              refine h.acted htodo ⟨Table.keys_modify _ _, fun name => ?_, rfl, rfl⟩ rfl rfl id .inl
                .inl (fun hgave => ⟨hgave, by simp⟩) rfl
              simp [Function.comp_def]
          | setDeadline =>
              simp only [htodo, Option.some.injEq] at hstep
              subst hstep
              exact h.acted htodo ⟨rfl, fun _ => rfl, rfl, rfl⟩ rfl rfl id .inl .inl
                (fun hgave => ⟨hgave, by simp⟩) rfl
          | join thread =>
              simp only [htodo] at hstep
              cases hwaiting : s.waiting with
              | none =>
                  simp only [hwaiting, Option.some.injEq] at hstep
                  subst hstep
                  exact ⟨h.keys, by simp, fun rest' heq => h.sequence rest' (htodo.trans heq),
                    h.placed, h.putting, h.queue, h.writer, h.joined, h.accepted, h.refused⟩
              | some limit =>
                  simp only [hwaiting] at hstep
                  split at hstep
                  next hended =>
                    obtain rfl := Option.some.inj hstep
                    refine h.acted htodo ⟨rfl, fun _ => rfl, rfl, rfl⟩ rfl rfl id .inl .inl
                      (fun hgave => ⟨hgave, ?_⟩) rfl
                    rintro _ ⟨⟩
                    exact hended
                  next =>
                    split at hstep
                    · obtain rfl := Option.some.inj hstep
                      exact h.acted htodo ⟨rfl, fun _ => rfl, rfl, rfl⟩ rfl rfl id .inl .inl
                        (by simp) rfl
                    · cases hstep
          | closeQueue =>
              simp only [htodo, Option.some.injEq] at hstep
              subst hstep
              exact h.acted htodo ⟨rfl, fun _ => rfl, rfl, rfl⟩ rfl rfl (by simp [Traffic.close])
                (fun _ => .inr rfl) .inl (fun hgave => ⟨hgave, by simp⟩) rfl
          | stopWriter =>
              simp only [htodo, Option.some.injEq] at hstep
              subst hstep
              exact h.acted htodo ⟨rfl, fun _ => rfl, rfl, rfl⟩ rfl rfl id .inl (fun _ => .inr rfl)
                (fun hgave => ⟨hgave, by simp⟩) rfl
          | stopControl =>
              simp only [htodo] at hstep
              split at hstep
              · obtain rfl := Option.some.inj hstep
                exact h.acted htodo ⟨rfl, fun _ => rfl, rfl, rfl⟩ rfl rfl id .inl .inl
                  (fun hgave => ⟨hgave, by simp⟩) rfl
              · cases hstep
          | stopMetrics =>
              simp only [htodo, Option.some.injEq] at hstep
              subst hstep
              exact h.acted htodo ⟨rfl, fun _ => rfl, rfl, rfl⟩ rfl rfl id .inl .inl
                (fun hgave => ⟨hgave, by simp⟩) rfl
          | release =>
              simp only [htodo, Option.some.injEq] at hstep
              subst hstep
              exact h.acted htodo ⟨rfl, fun _ => rfl, rfl, rfl⟩ rfl rfl id .inl .inl
                (fun hgave => ⟨hgave, by simp⟩) rfl
          | setStopped =>
              simp only [htodo, Option.some.injEq] at hstep
              subst hstep
              exact h.acted htodo ⟨rfl, fun _ => rfl, rfl, rfl⟩ rfl rfl id .inl .inl
                (fun hgave => ⟨hgave, by simp⟩) rfl

theorem orderly_loop {names : List String} {s : Service α} {name : String}
    {loop loop' : LoopState} {e : LoopEvent} (h : Orderly names s)
    (hget : s.loops.get? name = some loop) (hact : e.act ≠ .shutdown)
    (hputting : ¬(name = "fetch" ∧ loop.phase = .iterating ∧ e.act.isOwn ∧ s.putting))
    (hstep : loopMachine.step loop e = some loop') :
    Orderly names { s with loops := s.loops.set name loop' } := by
  have hended : ∀ thread, s.ended thread = true →
      ended { s with loops := s.loops.set name loop' } thread = true := by
    intro thread hend
    cases thread with
    | stage other =>
        simp only [ended, Table.get?_set] at hend ⊢
        split
        · subst other
          rw [hget] at hend
          exact (loopEnded_step hend hstep).1
        · exact hend
    | archive =>
        have hfetch : hasArchive { s with loops := s.loops.set name loop' } = s.hasArchive := by
          simp only [hasArchive, Table.get?_set]
          split
          · subst name
            simp [hget]
          · rfl
        simpa only [ended, hfetch] using hend
  have hkeys : (s.loops.set name loop').keys = s.loops.keys := by
    have hmem : name ∈ s.loops.keys := by
      by_contra hnot
      rw [Table.get?_eq_none_iff.mpr hnot] at hget
      cases hget
    have hmodified : name ∈ (s.loops.modify fun k r => if k = name then loop' else r).keys := by
      rwa [Table.keys_modify]
    rw [Table.set, Table.insertNew, dif_pos hmodified, Table.keys_modify]
  refine
    { keys := hkeys.trans h.keys
      begun := h.begun
      sequence := h.sequence
      placed := h.placed
      putting := fun hput => ?_
      queue := h.queue
      writer := h.writer
      joined := fun hgave thread hmem => hended thread (h.joined hgave thread hmem)
      accepted := h.accepted
      refused := h.refused }
  have hiterating := h.putting hput
  simp only [iterating, Table.get?_set] at hiterating ⊢
  by_cases hname : "fetch" = name
  · -- the loop does not take a step of its own in the middle of the `put`
    subst hname
    rw [hget] at hiterating
    have hphase : loop.phase = .iterating := by simpa using hiterating
    have hown : ¬(LoopAct.isOwn e.act = true) := fun hown => hputting ⟨rfl, hphase, hown, hput⟩
    obtain ⟨-, m, hm, rfl⟩ := loopMachine_step_iff.mp hstep
    obtain ⟨now, monotonic, act⟩ := e
    cases act <;> simp_all [LoopAct.isOwn, LoopState.act]
    · subst hm
      rfl
    · subst hm
      rfl
  · simpa [hname] using hiterating

theorem orderly_handoff {names : List String} {s : Service α} {h' : Handoff α}
    {e : HandoffEvent α} (h : Orderly names s) (hallow : s.allows e = true)
    (hstep : s.handoff.step e = some h') : Orderly names { s with handoff := h' } := by
  have hended : ∀ thread, s.ended thread = true →
      ended { s with handoff := h' } thread = true := by
    intro thread hend
    cases thread with
    | stage name => exact hend
    | archive =>
        simp only [ended, Bool.or_eq_true] at hend ⊢
        exact hend.imp id fun hpoint => pointEnded_step hpoint hstep
  have hjoined : s.gaveUp = false → ∀ thread, .join thread ∈ s.done →
      ended { s with handoff := h' } thread = true :=
    fun hgave thread hmem => hended thread (h.joined hgave thread hmem)
  rcases handoff_cases h.placed hallow hstep with ⟨item, size, htraffic, hfetch⟩ | haside
  · have hiterating : s.iterating "fetch" = true := hfetch.elim id h.putting
    exact
      { keys := h.keys
        begun := h.begun
        sequence := h.sequence
        placed := htraffic ▸ placed_tryPut h.placed item size
        putting := fun _ => hiterating
        queue := fun hclosed => by
          apply h.queue
          rw [htraffic, Handoff.tryPut_closed] at hclosed
          exact hclosed
        writer := h.writer
        joined := hjoined
        accepted := fun hgave hmem => by
          have hopen : s.handoff.traffic.queue.closed = false := by
            by_contra hclosed
            have hend := h.fetch_of_closed hgave (by simpa using hclosed)
            rw [not_iterating_of_ended hend] at hiterating
            cases hiterating
          rw [htraffic] at hmem
          exact h.accepted hgave (queueClosed_of_tryPut hopen hmem)
        refused := h.refused }
  · exact
      { keys := h.keys
        begun := h.begun
        sequence := h.sequence
        placed := haside.placed
        putting := fun hput => h.putting (by rwa [Service.putting, haside.fetch] at hput)
        queue := fun hclosed => h.queue (haside.closed ▸ hclosed)
        writer := h.writer
        joined := hjoined
        accepted := fun hgave hmem => h.accepted hgave (haside.log hmem)
        refused := h.refused }

/-- Only a command can come to a writer that has been stopped after all the threads. -/
theorem Orderly.command_of_submits {names : List String} {s : Service α} (h : Orderly names s)
    (hgave : s.gaveUp = false) (hstopped : s.writerStopped = true) {who : Submitter}
    (hsubmits : s.submits who = true) : who = .command := by
  obtain ⟨harchive, hstages⟩ := h.ended_of_stopWriter hgave (h.writer hstopped)
  cases who with
  | command => rfl
  | stage name =>
      rw [submits, not_iterating_of_ended (hstages name)] at hsubmits
      cases hsubmits
  | archive =>
      simp only [submits] at hsubmits
      split at hsubmits
      next item hpoint =>
        simp [ended, hsubmits, hpoint, pointEnded] at harchive
      next => cases hsubmits

theorem orderly_step {names : List String} {s s' : Service α} {e : ServiceEvent α}
    (h : Orderly names s) (hstep : machine.step s e = some s') : Orderly names s' := by
  simp only [machine, step] at hstep
  cases e with
  | loop name e =>
      simp only at hstep
      split at hstep
      · cases hstep
      next hact =>
        split at hstep
        · cases hstep
        next loop hget =>
          split at hstep
          · cases hstep
          next hputting =>
            obtain ⟨loop', hloop, rfl⟩ := Option.map_eq_some_iff.mp hstep
            exact orderly_loop h hget hact hputting hloop
  | handoff e =>
      simp only at hstep
      split at hstep
      next hallow =>
        obtain ⟨h', hh', rfl⟩ := Option.map_eq_some_iff.mp hstep
        exact orderly_handoff h hallow hh'
      next => cases hstep
  | submit who =>
      simp only at hstep
      split at hstep
      next hsubmits =>
        obtain rfl := Option.some.inj hstep
        split
        next hstopped =>
          refine ⟨h.keys, h.begun, h.sequence, h.placed, h.putting, h.queue, h.writer, h.joined,
            h.accepted, fun hgave other hmem => ?_⟩
          rcases List.mem_append.mp hmem with hold | hnew
          · exact h.refused hgave other hold
          · rw [List.mem_singleton.mp hnew]
            exact h.command_of_submits hgave hstopped hsubmits
        next => exact h
      next => cases hstep
  | command =>
      simp only at hstep
      split at hstep
      · cases hstep
      · obtain rfl := Option.some.inj hstep
        exact ⟨h.keys, h.begun, h.sequence, h.placed, h.putting, h.queue, h.writer, h.joined,
          h.accepted, h.refused⟩
  | commandEnds =>
      simp only at hstep
      split at hstep
      · obtain rfl := Option.some.inj hstep
        exact ⟨h.keys, h.begun, h.sequence, h.placed, h.putting, h.queue, h.writer, h.joined,
          h.accepted, h.refused⟩
      · cases hstep
  | callShutdown =>
      simp only at hstep
      split at hstep
      next =>
        obtain rfl := Option.some.inj hstep
        exact h
      next htodo =>
        obtain rfl := Option.some.inj hstep
        refine ⟨h.keys, by simp, fun rest heq => ?_, h.placed, h.putting, h.queue, h.writer,
          h.joined, h.accepted, h.refused⟩
        obtain rfl := Option.some.inj heq
        rw [h.begun htodo, h.keys]
        rfl
  | shutdownStep now monotonic => exact orderly_shutdownStep h hstep

/-! ## Whole runs -/

/-- The disk guard is not paused, `process_one` does not fail, and the queue is not closed with
an item in it that the archive thread has not seen since it found the queue empty. -/
def Undisturbed (s : Service α) : ServiceEvent α → Prop
  | .handoff e => s.handoff.Unpaused e ∧ s.handoff.Undisturbed e
  | .shutdownStep _ _ =>
      s.todo.bind List.head? = some .closeQueue → s.handoff.Undisturbed .close
  | _ => True

instance [DecidableEq α] (s : Service α) (e : ServiceEvent α) : Decidable (s.Undisturbed e) :=
  match e with
  | .handoff _ => inferInstanceAs (Decidable (_ ∧ _))
  | .shutdownStep _ _ => inferInstanceAs (Decidable (_ → _))
  | .loop _ _ => isTrue trivial
  | .submit _ => isTrue trivial
  | .command => isTrue trivial
  | .commandEnds => isTrue trivial
  | .callShutdown => isTrue trivial

theorem handoff_shutdownStep {s s' : Service α} {now monotonic : ℚ}
    (hstep : s.shutdownStep now monotonic = some s') :
    s'.handoff = s.handoff ∨ s.todo.bind List.head? = some .closeQueue ∧
      s'.handoff = { s.handoff with traffic := s.handoff.traffic.close } := by
  rw [shutdownStep] at hstep
  split at hstep
  · cases hstep
  · cases hstep
  next action rest htodo =>
    cases action with
    | closeQueue =>
        obtain rfl := Option.some.inj hstep
        exact .inr ⟨by rw [htodo]; rfl, rfl⟩
    | join thread =>
        left
        simp only at hstep
        split at hstep
        · obtain rfl := Option.some.inj hstep
          rfl
        · split at hstep
          · obtain rfl := Option.some.inj hstep
            rfl
          · split at hstep
            · obtain rfl := Option.some.inj hstep
              rfl
            · cases hstep
    | stopControl =>
        left
        simp only at hstep
        split at hstep
        · obtain rfl := Option.some.inj hstep
          rfl
        · cases hstep
    | restrict => exact .inl (by obtain rfl := Option.some.inj hstep; rfl)
    | setEvent => exact .inl (by obtain rfl := Option.some.inj hstep; rfl)
    | setDeadline => exact .inl (by obtain rfl := Option.some.inj hstep; rfl)
    | stopWriter => exact .inl (by obtain rfl := Option.some.inj hstep; rfl)
    | stopMetrics => exact .inl (by obtain rfl := Option.some.inj hstep; rfl)
    | release => exact .inl (by obtain rfl := Option.some.inj hstep; rfl)
    | setStopped => exact .inl (by obtain rfl := Option.some.inj hstep; rfl)

theorem sound_step {budget : ℤ} {s s' : Service α} {e : ServiceEvent α}
    (h : s.handoff.Sound budget) (hkept : s.Undisturbed e) (hstep : machine.step s e = some s') :
    s'.handoff.Sound budget := by
  simp only [machine, step] at hstep
  cases e with
  | loop name e =>
      simp only at hstep
      split at hstep
      · cases hstep
      · split at hstep
        · cases hstep
        · split at hstep
          · cases hstep
          · obtain ⟨loop', -, rfl⟩ := Option.map_eq_some_iff.mp hstep
            exact h
  | handoff e =>
      simp only at hstep
      split at hstep
      · obtain ⟨h', hh', rfl⟩ := Option.map_eq_some_iff.mp hstep
        exact Handoff.sound_step s.handoff e h' h hkept hh'
      · cases hstep
  | submit who =>
      simp only at hstep
      split at hstep
      · obtain rfl := Option.some.inj hstep
        split <;> exact h
      · cases hstep
  | command =>
      simp only at hstep
      split at hstep
      · cases hstep
      · obtain rfl := Option.some.inj hstep
        exact h
  | commandEnds =>
      simp only at hstep
      split at hstep
      · obtain rfl := Option.some.inj hstep
        exact h
      · cases hstep
  | callShutdown =>
      simp only at hstep
      split at hstep
      · obtain rfl := Option.some.inj hstep
        exact h
      · obtain rfl := Option.some.inj hstep
        exact h
  | shutdownStep now monotonic =>
      rcases handoff_shutdownStep hstep with hsame | ⟨hclose, hclosed⟩
      · rwa [hsame]
      · rw [hclosed]
        exact Handoff.sound_step s.handoff .close _ h ⟨trivial, hkept hclose⟩ rfl

/-- What can be relied on at any time after `start`, whoever calls `shutdown` and how often. -/
structure Reliable (names : List String) (s : Service α) : Prop where
  /-- The statements of `shutdown` are executed once, in their order. -/
  once : (s.todo = none ∧ s.done = []) ∨
    ∃ rest, s.todo = some rest ∧ s.done ++ rest = shutdownSequence names
  /-- No fetched item is turned away, if every join was in time. -/
  accepted : s.gaveUp = false → QueueReturn.queueClosed ∉ s.handoff.traffic.log
  /-- No thread outlives the writer, if every join was in time. -/
  outlived : s.gaveUp = false → .stopWriter ∈ s.done →
    s.ended .archive = true ∧ ∀ name, s.ended (.stage name) = true
  /-- Only commands that were under way find the writer stopped. -/
  refused : s.gaveUp = false → ∀ who ∈ s.refused, who = .command

/-- Over every interleaving a shutdown that no join gives up on is orderly, and everything that
was handed off has been archived when the writer stops. -/
theorem reliable_of_run {budget : ℤ} {stages : Table String Trigger} {now monotonic : ℚ}
    {queue : ByteBudgetedQueue α} (hqueue : create α budget = some queue)
    {l : List (ServiceEvent α)} {s : Service α}
    (hrun : machine.run (start stages now monotonic queue) l = some s) :
    s.Reliable stages.keys ∧
      (s.gaveUp = false → "fetch" ∈ stages.keys → .stopWriter ∈ s.done →
        machine.Along Undisturbed (start stages now monotonic queue) l →
        s.handoff.processed = (puts s.handoff.traffic.log).map Prod.fst) := by
  have hopen : queue.closed = false := by
    rw [create] at hqueue
    split at hqueue
    · obtain rfl := Option.some.inj hqueue
      rfl
    · cases hqueue
  have h : Orderly stages.keys s :=
    Machine.run_invariant (fun _ _ _ => orderly_step) (orderly_start hopen) hrun
  refine ⟨⟨?_, h.accepted, h.ended_of_stopWriter, h.refused⟩, ?_⟩
  · cases htodo : s.todo with
    | none => exact .inl ⟨rfl, h.begun htodo⟩
    | some rest => exact .inr ⟨rest, rfl, h.sequence rest htodo⟩
  · intro hgave hfetch hstop hkept
    have hsound : s.handoff.Sound budget :=
      Machine.run_invariant_along (P := fun s : Service α => s.handoff.Sound budget)
        (fun _ _ _ hs hC hstep => sound_step hs hC hstep) (Handoff.sound_start hqueue) hkept hrun
    have harchive := (h.ended_of_stopWriter hgave hstop).1
    have hhas : s.hasArchive = true := by
      rw [hasArchive]
      by_contra hnone
      exact Table.get?_eq_none_iff.mp (by simpa using hnone) (h.keys ▸ hfetch)
    have hpoint : pointEnded s.handoff.point = true := by
      simpa [ended, hhas] using harchive
    have hended : s.handoff.Ended := by
      cases hp : s.handoff.point <;> simp_all [pointEnded, Handoff.Ended]
    exact (hsound.drained hended).2.2

/-- A fetch is under way when `shutdown` is called, twice. -/
def fetchShutdown : List (ServiceEvent ℕ) :=
  ([.isSet, .due, .enter, .call].map fun act => .loop "fetch" ⟨0, 0, act⟩) ++
  [.handoff (.put 1 7 3), .callShutdown, .shutdownStep 0 0, .shutdownStep 0 0, .shutdownStep 0 0,
    .shutdownStep 0 0, .callShutdown] ++
  ([.ends (.returned true), .succeed, .markRun, .waitSeconds, .wake].map fun act =>
    .loop "fetch" ⟨1, 1, act⟩) ++
  [.shutdownStep 2 2, .handoff (.readPaused false true), .handoff .readLength, .handoff .get,
    .shutdownStep 2 2, .handoff .finish, .handoff (.readPaused false true), .handoff .readLength,
    .handoff .readClosed, .shutdownStep 2 2, .shutdownStep 2 2, .shutdownStep 2 2]

theorem reliable_fetchShutdown : ∃ s,
    machine.run (start ⟨[("fetch", .poll 1 false)], by decide⟩ 0 0
      ⟨10, [], 0, false, [], [], by decide⟩) fetchShutdown = some s ∧
    .stopWriter ∈ s.done ∧ s.gaveUp = false ∧ puts s.handoff.traffic.log = [(7, 3)] ∧
      s.handoff.processed = [7] ∧ s.Reliable ["fetch"] := by
  have hcreate : create ℕ 10 = some ⟨10, [], 0, false, [], [], by decide⟩ := rfl
  have hany : (machine.run (start ⟨[("fetch", .poll 1 false)], by decide⟩ 0 0
      ⟨10, [], 0, false, [], [], by decide⟩) fetchShutdown).any (fun s =>
        .stopWriter ∈ s.done ∧ s.gaveUp = false ∧
          puts s.handoff.traffic.log = [(7, 3)]) = true := by
    decide
  have hundisturbed : machine.Along Undisturbed (start ⟨[("fetch", .poll 1 false)], by decide⟩ 0 0
      ⟨10, [], 0, false, [], [], by decide⟩) fetchShutdown := by
    decide
  obtain ⟨s, hrun, hs⟩ := (Option.any_eq_true _ _).mp hany
  obtain ⟨hstop, hgave, hputs⟩ := of_decide_eq_true hs
  obtain ⟨hreliable, hprocessed⟩ := reliable_of_run hcreate hrun
  have hall := hprocessed hgave List.mem_cons_self hstop hundisturbed
  rw [hputs] at hall
  exact ⟨s, hrun, hstop, hgave, hputs, hall, hreliable⟩

end Service

end RerollSync.Daemon
