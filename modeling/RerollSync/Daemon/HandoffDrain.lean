import RerollSync.Fetch.ByteBudgetedQueue

/-!
# Draining the handoff queue

`Daemon._run_archive_thread` over the handoff queue, with every stretch of the archive
thread under a lock a step of its own, among the calls of the producers.  The thread
looks at the length of the queue and at its `_closed` flag in two steps, so a `put`
and the `close` of a shutdown may come between them.
-/

namespace RerollSync.Daemon

open RerollSync.Support RerollSync.Fetch

variable {α : Type}

/-- Where the archive thread stands in `_archive_thread_step`: before it asks for the
disk guard, the length of the queue or the `_closed` flag, before or inside the `get` of
`process_one`, with an item in hand, or at its end. -/
inductive ArchivePoint (α : Type)
  | top
  | unpaused
  | sawEmpty
  | sawItem
  | getting
  | processing (item : α)
  | stopped
  | crashed
deriving DecidableEq

/-- The queue and its users, how far the archive thread has come, and the items that
`process_one` has finished with, in order. -/
structure Handoff (α : Type) where
  traffic : Traffic α
  point : ArchivePoint α := .top
  processed : List α := []

/-- What the producers do: a call of `put`, a woken `put`, a spurious wake-up, and the
`close` of a shutdown.  Then what the archive thread does: it reads `is_paused` (and
`shutdown_event`), the length and the flag, takes an item, has the lock again in `get`,
and ends `process_one`, or fails in it. -/
inductive HandoffEvent (α : Type)
  | put (thread : ℕ) (item : α) (size : ℕ)
  | resume (thread : ℕ)
  | wake (thread : ℕ)
  | close
  | readPaused (paused shutdown : Bool)
  | readLength
  | readClosed
  | get
  | regain
  | finish
  | fail
deriving DecidableEq

namespace Handoff

open ByteBudgetedQueue Traffic

/-- The id of the archive thread among the users of the queue. -/
def archiveThread : ℕ := 0

/-- What the `get` of the archive thread makes of the queue it finds.  Nothing comes of
the `False` that `process_one` returns for a closed queue. -/
def afterGet (queue : ByteBudgetedQueue α) : ArchivePoint α :=
  match queue.items with
  | item :: _ => .processing item
  | [] => if queue.closed then .top else .getting

/-- The users of the queue take a step, and the archive thread is then at `point`. -/
def advance (s : Handoff α) (event : TrafficEvent α) (point : ArchivePoint α) :
    Option (Handoff α) :=
  (s.traffic.step event).map fun traffic => { s with traffic := traffic, point := point }

def step (s : Handoff α) : HandoffEvent α → Option (Handoff α)
  | .put thread item size =>
      if thread = archiveThread then none
      else s.advance (.call thread (.put item size)) s.point
  | .resume thread =>
      if thread = archiveThread then none else s.advance (.resume thread) s.point
  | .wake thread => s.advance (.wake thread) s.point
  | .close => s.advance .close s.point
  | .readPaused paused shutdown =>
      match s.point with
      | .top =>
          if paused then some { s with point := if shutdown then .stopped else .top }
          else some { s with point := .unpaused }
      | _ => none
  | .readLength =>
      match s.point with
      | .unpaused =>
          some { s with point := if s.traffic.queue.items.length = 0 then .sawEmpty else .sawItem }
      | _ => none
  | .readClosed =>
      match s.point with
      | .sawEmpty => some { s with point := if s.traffic.queue.closed then .stopped else .top }
      | _ => none
  | .get =>
      match s.point with
      | .sawItem => s.advance (.call archiveThread .get) (afterGet s.traffic.queue)
      | _ => none
  | .regain =>
      match s.point with
      | .getting => s.advance (.resume archiveThread) (afterGet s.traffic.queue)
      | _ => none
  | .finish =>
      match s.point with
      | .processing item =>
          (s.advance (.release 0) .top).map fun t => { t with processed := t.processed ++ [item] }
      | _ => none
  | .fail =>
      match s.point with
      | .processing _ => s.advance (.release 0) .crashed
      | _ => none

def machine : Machine (Handoff α) (HandoffEvent α) := ⟨step⟩

/-- The archive thread starts on a queue. -/
def start (queue : ByteBudgetedQueue α) : Handoff α := { traffic := { queue := queue } }

/-- The archive thread has ended. -/
def Ended (s : Handoff α) : Prop := s.point = .stopped ∨ s.point = .crashed

/-- The archive thread ends only with the queue closed and empty, and then every item
that was put has been processed, in order. -/
def Drained (s : Handoff α) : Prop :=
  s.Ended → s.traffic.queue.closed = true ∧ s.traffic.queue.items = [] ∧
    s.processed = (puts s.traffic.log).map Prod.fst

/-- The disk guard is not paused when the archive thread looks at it. -/
def Unpaused (_ : Handoff α) : HandoffEvent α → Prop
  | .readPaused paused _ => paused = false
  | _ => True

/-- `process_one` does not fail, and the queue is not closed with an item that came
after the archive thread had found it empty, before the thread has looked at the flag. -/
def Undisturbed (s : Handoff α) (e : HandoffEvent α) : Prop :=
  e ≠ .fail ∧ (e = .close → s.point = .sawEmpty → s.traffic.queue.items = [])

instance (s : Handoff α) (e : HandoffEvent α) : Decidable (s.Unpaused e) :=
  match e with
  | .readPaused paused _ => inferInstanceAs (Decidable (paused = false))
  | .put _ _ _ => isTrue trivial
  | .resume _ => isTrue trivial
  | .wake _ => isTrue trivial
  | .close => isTrue trivial
  | .readLength => isTrue trivial
  | .readClosed => isTrue trivial
  | .get => isTrue trivial
  | .regain => isTrue trivial
  | .finish => isTrue trivial
  | .fail => isTrue trivial

instance [DecidableEq α] (s : Handoff α) (e : HandoffEvent α) : Decidable (s.Undisturbed e) :=
  inferInstanceAs (Decidable (_ ∧ _))

/-! ## What a step of the producers does to the queue -/

/-- The item the archive thread has in hand. -/
def inHand : ArchivePoint α → List α
  | .processing item => [item]
  | _ => []

/-- What a thread other than the archive thread leaves as it is. -/
structure Produced (t t' : Traffic α) : Prop where
  gets : gets t'.log = gets t.log
  closed : t.queue.closed = true → t'.queue.closed = true ∧ t'.queue.items = t.queue.items
  items : ∃ added, t'.queue.items = t.queue.items ++ added
  calls : (∀ thread, t.calls thread ≠ some .get) → ∀ thread, t'.calls thread ≠ some .get
  archive : t.calls archiveThread = none → t'.calls archiveThread = none

theorem produced_tryPut (t : Traffic α) {thread : ℕ} (hthread : thread ≠ archiveThread) (item : α)
    (size : ℕ) : Produced t (t.tryPut thread item size) := by
  have hcalls : ∀ (call : Option (QueueCall α)), call ≠ some .get →
      (∀ other, t.calls other ≠ some .get) →
      ∀ other, Function.update t.calls thread call other ≠ some .get := by
    intro call hcall h other
    by_cases heq : other = thread
    · subst heq
      rwa [Function.update_self]
    · rw [Function.update_of_ne heq]
      exact h other
  have harchive : ∀ call : Option (QueueCall α), t.calls archiveThread = none →
      Function.update t.calls thread call archiveThread = none := fun call h => by
    rwa [Function.update_of_ne hthread.symm]
  unfold tryPut
  split
  · exact ⟨rfl, fun h => ⟨h, rfl⟩, ⟨[], (List.append_nil _).symm⟩, hcalls _ (by simp),
      harchive _⟩
  · split
    · exact ⟨by simp [Fetch.gets], fun h => ⟨h, rfl⟩, ⟨[], (List.append_nil _).symm⟩,
        hcalls _ (by simp), harchive _⟩
    next hopen =>
      exact ⟨by simp [Fetch.gets], fun h => (hopen h).elim, ⟨[item], rfl⟩,
        hcalls _ (by simp), harchive _⟩

theorem produced_close (t : Traffic α) : Produced t t.close :=
  ⟨by simp [close, Fetch.gets], fun _ => ⟨rfl, rfl⟩, ⟨[], (List.append_nil _).symm⟩, fun h => h,
    fun h => h⟩

/-- The flag is set by a `close` alone. -/
theorem tryPut_closed (t : Traffic α) (thread : ℕ) (item : α) (size : ℕ) :
    (t.tryPut thread item size).queue.closed = t.queue.closed := by
  unfold tryPut
  split
  · rfl
  · split <;> rfl

theorem advance_eq_some {s s' : Handoff α} {event : TrafficEvent α} {point : ArchivePoint α} :
    s.advance event point = some s' ↔
      ∃ t, s.traffic.step event = some t ∧ { s with traffic := t, point := point } = s' :=
  Option.map_eq_some_iff

/-- The events that are no step of the archive thread. -/
def ofOthers : HandoffEvent α → Bool
  | .put _ _ _ | .resume _ | .wake _ | .close => true
  | _ => false

/-- A step of another thread is a step of the queue's users, which only `close` closes. -/
theorem step_of_others {s s' : Handoff α} {e : HandoffEvent α}
    (hcalls : ∀ thread, s.traffic.calls thread ≠ some .get) (hothers : ofOthers e = true)
    (hstep : s.step e = some s') :
    ∃ event t, s.traffic.step event = some t ∧ Produced s.traffic t ∧
      (e = .close ∧ t.queue.items = s.traffic.queue.items ∨
        t.queue.closed = s.traffic.queue.closed) ∧ { s with traffic := t } = s' := by
  cases e with
  | put thread item size =>
      obtain ⟨hthread, hstep⟩ := Option.ite_none_left_eq_some.mp hstep
      obtain ⟨t, ht, rfl⟩ := advance_eq_some.mp hstep
      obtain rfl : s.traffic.tryPut thread item size = t := by
        simp only [Traffic.step] at ht
        split at ht
        · exact Option.some.inj ht
        · cases ht
      exact ⟨_, _, ht, produced_tryPut s.traffic hthread item size,
        Or.inr (tryPut_closed s.traffic thread item size), rfl⟩
  | resume thread =>
      obtain ⟨hthread, hstep⟩ := Option.ite_none_left_eq_some.mp hstep
      obtain ⟨t, ht, rfl⟩ := advance_eq_some.mp hstep
      have hresume := ht
      simp only [Traffic.step] at hresume
      split at hresume
      · cases hresume
      · obtain ⟨call, hcall, rfl⟩ := Option.map_eq_some_iff.mp hresume
        cases call with
        | put item size =>
            exact ⟨_, _, ht, produced_tryPut s.traffic hthread item size,
              Or.inr (tryPut_closed s.traffic thread item size), rfl⟩
        | get => exact (hcalls thread hcall).elim
  | wake thread =>
      obtain ⟨t, ht, rfl⟩ := advance_eq_some.mp hstep
      have hwake := ht
      obtain rfl := Option.some.inj hwake
      exact ⟨_, _, ht, ⟨rfl, fun hclosed => ⟨hclosed, rfl⟩, ⟨[], (List.append_nil _).symm⟩,
        fun h => h, fun h => h⟩, Or.inr rfl, rfl⟩
  | close =>
      obtain ⟨t, ht, rfl⟩ := advance_eq_some.mp hstep
      have hclose := ht
      obtain rfl := Option.some.inj hclose
      exact ⟨_, _, ht, produced_close s.traffic, Or.inl ⟨rfl, rfl⟩, rfl⟩
  | readPaused paused shutdown => cases hothers
  | readLength => cases hothers
  | readClosed => cases hothers
  | get => cases hothers
  | regain => cases hothers
  | finish => cases hothers
  | fail => cases hothers

/-! ## What every step of an undisturbed drain keeps -/

/-- The archive thread, between its steps: it is never inside `get`, every item that has
left the queue is processed or in hand, and what it last saw of the queue still holds. -/
structure Sound (budget : ℤ) (s : Handoff α) : Prop where
  queue : s.traffic.Invariant budget
  calls : ∀ thread, s.traffic.calls thread ≠ some .get
  archive : s.traffic.calls archiveThread = none
  taken : gets s.traffic.log = s.processed ++ inHand s.point
  running : s.point ≠ .getting ∧ s.point ≠ .crashed
  found : s.point = .sawItem → s.traffic.queue.items ≠ []
  empty : s.point = .sawEmpty → s.traffic.queue.closed = true → s.traffic.queue.items = []
  stopped : s.point = .stopped → s.traffic.queue.closed = true ∧ s.traffic.queue.items = []

variable {budget : ℤ} {s s' : Handoff α}

theorem sound_start {q : ByteBudgetedQueue α} (h : create α budget = some q) :
    (start q).Sound budget where
  queue := invariant_start h
  calls _ := by simp [start]
  archive := rfl
  taken := rfl
  running := by simp [start]
  found hpoint := by cases hpoint
  empty hpoint := by cases hpoint
  stopped hpoint := by cases hpoint

/-- A drain is sound at its end only with everything processed. -/
theorem Sound.drained (h : s.Sound budget) : s.Drained := by
  rintro (hend | hend)
  · obtain ⟨hclosed, hitems⟩ := h.stopped hend
    refine ⟨hclosed, hitems, ?_⟩
    rw [← h.queue.fifo, h.taken, hitems, hend]
    simp [inHand]
  · exact (h.running.2 hend).elim

/-- A producer's step keeps the drain sound, unless the queue is closed by it with items
that the archive thread has not seen. -/
theorem Sound.produced (h : s.Sound budget) {event : TrafficEvent α} {t : Traffic α}
    (hstep : s.traffic.step event = some t) (hproduced : Produced s.traffic t)
    (hempty : s.point = .sawEmpty → t.queue.closed = true → t.queue.items = []) :
    ({ s with traffic := t } : Handoff α).Sound budget where
  queue := invariant_step h.queue hstep
  calls := hproduced.calls h.calls
  archive := hproduced.archive h.archive
  taken := hproduced.gets.trans h.taken
  running := h.running
  found hpoint := by
    obtain ⟨added, hitems⟩ := hproduced.items
    have hfound := h.found hpoint
    dsimp only
    rw [hitems]
    simp [hfound]
  empty := hempty
  stopped hpoint := by
    obtain ⟨hclosed, hitems⟩ := h.stopped hpoint
    obtain ⟨hclosed', hitems'⟩ := hproduced.closed hclosed
    exact ⟨hclosed', hitems'.trans hitems⟩

/-- The archive thread moves on without a call on the queue. -/
theorem Sound.moved (h : s.Sound budget) {point : ArchivePoint α}
    (htaken : inHand point = inHand s.point)
    (hrunning : point ≠ .getting ∧ point ≠ .crashed)
    (hfound : point = .sawItem → s.traffic.queue.items ≠ [])
    (hempty : point = .sawEmpty → s.traffic.queue.items = [])
    (hstopped : point = .stopped →
      s.traffic.queue.closed = true ∧ s.traffic.queue.items = []) :
    ({ s with point := point } : Handoff α).Sound budget where
  queue := h.queue
  calls := h.calls
  archive := h.archive
  taken := h.taken.trans (by rw [htaken])
  running := hrunning
  found := hfound
  empty hpoint _ := hempty hpoint
  stopped := hstopped

/-- The `get` of `process_one` finds an item. -/
theorem Sound.get (h : s.Sound budget) (hpoint : s.point = .sawItem)
    (hstep : s.advance (.call archiveThread .get) (afterGet s.traffic.queue) = some s') :
    s'.Sound budget := by
  obtain ⟨t, ht, rfl⟩ := advance_eq_some.mp hstep
  obtain ⟨item, items, hitems⟩ := List.exists_cons_of_ne_nil (h.found hpoint)
  have hqueue := invariant_step h.queue ht
  have hprocessed : gets s.traffic.log = s.processed := by
    rw [h.taken, hpoint]
    simp [inHand]
  simp only [Traffic.step, h.archive, Option.some.injEq, tryCall, tryGet, hitems] at ht
  subst ht
  have hpoint' : afterGet s.traffic.queue = .processing item := by simp [afterGet, hitems]
  rw [hpoint']
  refine ⟨hqueue, fun thread => ?_, by simp, ?_, by simp, by simp, by simp, by simp⟩
  · dsimp only
    by_cases heq : thread = archiveThread
    · simp [heq]
    · rw [Function.update_of_ne heq]
      exact h.calls thread
  · have hgot : Fetch.gets [QueueReturn.got item] = [item] := rfl
    dsimp only
    rw [gets_append, hprocessed, hgot]
    rfl

/-- The end of a `process_one` that has not failed. -/
theorem Sound.finish (h : s.Sound budget) {item : α} (hpoint : s.point = .processing item)
    {t : Handoff α} (hstep : s.advance (.release 0) .top = some t) :
    ({ t with processed := t.processed ++ [item] } : Handoff α).Sound budget := by
  obtain ⟨traffic, htraffic, rfl⟩ := advance_eq_some.mp hstep
  have hqueue := invariant_step h.queue htraffic
  obtain ⟨released, -, rfl⟩ := Option.map_eq_some_iff.mp htraffic
  refine ⟨hqueue, h.calls, h.archive, ?_, by simp, by simp, by simp, by simp⟩
  have htaken := h.taken
  rw [hpoint] at htaken
  simpa [inHand, Traffic.release, gets] using htaken

theorem sound_step (s : Handoff α) (e : HandoffEvent α) (s' : Handoff α) (h : s.Sound budget)
    (hC : s.Unpaused e ∧ s.Undisturbed e) (hstep : machine.step s e = some s') :
    s'.Sound budget := by
  obtain ⟨hpaused, hkept⟩ := hC
  simp only [machine] at hstep
  by_cases hothers : ofOthers e = true
  · obtain ⟨event, t, ht, hproduced, hflag, rfl⟩ := step_of_others h.calls hothers hstep
    refine h.produced ht hproduced fun hpoint hclosed => ?_
    rcases hflag with ⟨rfl, hitems⟩ | hsame
    · exact hitems.trans (hkept.2 rfl hpoint)
    · rw [hsame] at hclosed
      exact (hproduced.closed hclosed).2.trans (h.empty hpoint hclosed)
  cases e with
  | put thread item size => exact (hothers rfl).elim
  | resume thread => exact (hothers rfl).elim
  | wake thread => exact (hothers rfl).elim
  | close => exact (hothers rfl).elim
  | readPaused paused shutdown =>
      obtain rfl : paused = false := hpaused
      simp only [step] at hstep
      split at hstep
      next hpoint =>
        obtain rfl := Option.some.inj hstep
        exact h.moved (by rw [hpoint]; rfl) (by simp) (by simp) (by simp) (by simp)
      next => cases hstep
  | readLength =>
      simp only [step] at hstep
      split at hstep
      next hpoint =>
        obtain rfl := Option.some.inj hstep
        by_cases hlength : s.traffic.queue.items.length = 0
        · rw [if_pos hlength]
          exact h.moved (by rw [hpoint]; rfl) (by simp) (by simp)
            (fun _ => List.length_eq_zero_iff.mp hlength) (by simp)
        · rw [if_neg hlength]
          exact h.moved (by rw [hpoint]; rfl) (by simp)
            (fun _ hnil => hlength (List.length_eq_zero_iff.mpr hnil)) (by simp) (by simp)
      next => cases hstep
  | readClosed =>
      simp only [step] at hstep
      split at hstep
      next hpoint =>
        obtain rfl := Option.some.inj hstep
        by_cases hclosed : s.traffic.queue.closed = true
        · rw [if_pos hclosed]
          exact h.moved (by rw [hpoint]; rfl) (by simp) (by simp) (by simp)
            (fun _ => ⟨hclosed, h.empty hpoint hclosed⟩)
        · rw [if_neg hclosed]
          exact h.moved (by rw [hpoint]; rfl) (by simp) (by simp) (by simp) (by simp)
      next => cases hstep
  | get =>
      simp only [step] at hstep
      split at hstep
      next hpoint => exact h.get hpoint hstep
      next => cases hstep
  | regain =>
      simp only [step] at hstep
      split at hstep
      next hpoint => exact (h.running.1 hpoint).elim
      next => cases hstep
  | finish =>
      simp only [step] at hstep
      split at hstep
      next item hpoint =>
        obtain ⟨t, ht, rfl⟩ := Option.map_eq_some_iff.mp hstep
        exact h.finish hpoint ht
      next => cases hstep
  | fail => exact (hkept.1 rfl).elim

/-- Over every interleaving with the disk guard not paused: if `process_one` never fails
and the queue is never closed between the two looks of the archive thread with an item
put since the first, the thread ends only with the queue closed, empty and all of it
processed. -/
theorem drained_of_undisturbed {q : ByteBudgetedQueue α} (hq : create α budget = some q)
    {l : List (HandoffEvent α)} {s : Handoff α} (hrun : machine.run (start q) l = some s)
    (hpaused : machine.Along Unpaused (start q) l)
    (hkept : machine.Along Undisturbed (start q) l) : machine.Always Drained (start q) l :=
  Machine.always_of_along sound_step (fun _ h => h.drained) (sound_start hq)
    (Machine.along_and.mpr ⟨hpaused, hkept⟩) hrun

/-! ## Why the condition -/

/-- The queue is closed and not empty, and the archive thread has found it empty. -/
structure CutShort (s : Handoff α) : Prop where
  point : s.point = .sawEmpty ∨ s.point = .stopped
  calls : ∀ thread, s.traffic.calls thread ≠ some .get
  archive : s.traffic.calls archiveThread = none
  closed : s.traffic.queue.closed = true
  left : s.traffic.queue.items ≠ []

theorem CutShort.produced (h : s.CutShort) {t : Traffic α} (hproduced : Produced s.traffic t) :
    ({ s with traffic := t } : Handoff α).CutShort := by
  obtain ⟨hclosed, hitems⟩ := hproduced.closed h.closed
  exact ⟨h.point, hproduced.calls h.calls, hproduced.archive h.archive, hclosed,
    fun hnil => h.left (hitems.symm.trans hnil)⟩

/-- Whatever comes then, the archive thread does not take the items that are left. -/
theorem cutShort_step (s : Handoff α) (e : HandoffEvent α) (s' : Handoff α) (h : s.CutShort)
    (hstep : machine.step s e = some s') : s'.CutShort := by
  simp only [machine] at hstep
  by_cases hothers : ofOthers e = true
  · obtain ⟨-, t, -, hproduced, -, rfl⟩ := step_of_others h.calls hothers hstep
    exact h.produced hproduced
  by_cases hread : e = .readClosed ∧ s.point = .sawEmpty
  · obtain ⟨rfl, hpoint⟩ := hread
    simp only [step, hpoint, h.closed] at hstep
    obtain rfl := Option.some.inj hstep
    exact ⟨Or.inr rfl, h.calls, h.archive, h.closed, h.left⟩
  · -- no other step of the archive thread is possible
    rcases h.point with hpoint | hpoint
    · cases e <;> simp_all [step, ofOthers]
    · cases e <;> simp_all [step, ofOthers]

/-- A close that comes between the two looks of the archive thread, with an item put since
the first, costs the items: the thread never ends with the queue drained. -/
theorem not_drained_of_disturbed {s : Handoff α} {l : List (HandoffEvent α)} {s₁ s₂ : Handoff α}
    (hcalls : ∀ thread, s.traffic.calls thread ≠ some .get)
    (harchive : s.traffic.calls archiveThread = none)
    (hclose : machine.step s .close = some s₁) (hdisturbed : ¬s.Undisturbed .close)
    (hrun : machine.run s₁ l = some s₂) (hended : s₂.Ended) : ¬s₂.Drained := by
  have hcut : s₁.CutShort := by
    obtain ⟨hpoint, hleft⟩ : s.point = .sawEmpty ∧ s.traffic.queue.items ≠ [] := by
      simpa [Undisturbed] using hdisturbed
    have hstep : s.advance .close s.point = some s₁ := hclose
    obtain ⟨t, ht, rfl⟩ := advance_eq_some.mp hstep
    obtain rfl := Option.some.inj ht
    exact ⟨Or.inl hpoint, hcalls, harchive, rfl, hleft⟩
  have hlast : s₂.CutShort := Machine.run_invariant cutShort_step hcut hrun
  exact fun hdrained => hlast.left (hdrained hended).2.1

/-- A shutdown that waits for the archive thread to have taken the item in hand. -/
def orderlyShutdown : List (HandoffEvent ℕ) :=
  [.readPaused false false, .readLength, .put 1 7 3, .readClosed, .readPaused false false,
    .readLength, .get, .put 1 8 3, .close, .finish, .readPaused false true, .readLength, .get,
    .finish, .readPaused false true, .readLength, .readClosed]

theorem drained_orderlyShutdown : ∃ s,
    machine.run (start ⟨10, [], 0, false, [], [], by decide⟩) orderlyShutdown = some s ∧
    s.point = .stopped ∧ s.processed = [7, 8] ∧
    machine.Always Drained (start ⟨10, [], 0, false, [], [], by decide⟩) orderlyShutdown := by
  have hcreate : create ℕ 10 = some ⟨10, [], 0, false, [], [], by decide⟩ := rfl
  refine ⟨_, rfl, rfl, rfl, drained_of_undisturbed hcreate rfl (Machine.along_of_forall ?_ _) ?_⟩
  · simp [orderlyShutdown, Unpaused]
  · decide

/-- The archive thread finds the queue empty, a fetched item is put and the queue is
closed, and the flag tells the thread to stop. -/
def lateItem : List (HandoffEvent ℕ) :=
  [.readPaused false false, .readLength, .put 1 7 3, .close, .readClosed]

/-- An item that was put before the close stays in the queue. -/
theorem lateItem_left : ∃ s, machine.run (start ⟨10, [], 0, false, [], [], by decide⟩) lateItem =
      some s ∧ machine.Along Unpaused (start ⟨10, [], 0, false, [], [], by decide⟩) lateItem ∧
    s.point = .stopped ∧ s.traffic.queue.items = [7] ∧ ¬s.Drained := by
  refine ⟨_, rfl, Machine.along_of_forall ?_ _, rfl, rfl, fun hdrained => ?_⟩
  · simp [lateItem, Unpaused]
  · cases (hdrained (Or.inl rfl)).2.1

end Handoff

end RerollSync.Daemon
