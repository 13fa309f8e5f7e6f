import RerollSync.Support.Machine
import Mathlib.Algebra.BigOperators.Group.List.Basic
import Mathlib.Algebra.Group.Int.Defs
import Mathlib.Algebra.Order.Ring.Nat
import Mathlib.Logic.Function.Basic

/-!
# The byte-budgeted queue

`ByteBudgetedQueue` of `fetch.py`, used by any number of threads.  A thread that holds
the lock runs up to its `wait` or to the end of its call, so a step is one stretch
under the lock; a woken thread checks its condition again when it has the lock.
-/

namespace RerollSync.Fetch

open RerollSync.Support

variable {α : Type}

/-- `ByteBudgetedQueue`, with the threads that wait on its two conditions. -/
structure ByteBudgetedQueue (α : Type) where
  budgetBytes : ℤ
  items : List α := []
  currentBytes : ℤ := 0
  closed : Bool := false
  notFull : List ℕ := []
  notEmpty : List ℕ := []
  budget_pos : 0 < budgetBytes

namespace ByteBudgetedQueue

/-- `ByteBudgetedQueue(budget_bytes)`, which raises on a budget that is not positive. -/
def create (α : Type) (budgetBytes : ℤ) : Option (ByteBudgetedQueue α) :=
  if h : 0 < budgetBytes then some { budgetBytes := budgetBytes, budget_pos := h } else none

/-- The condition of the `while` of `put`. -/
def blocks (q : ByteBudgetedQueue α) (size : ℕ) : Bool :=
  !q.closed ∧ 0 < q.currentBytes ∧ q.budgetBytes < q.currentBytes + size

/-- `notify`: a thread that waits on the condition wakes up. -/
def notify (waiting : List ℕ) : List ℕ := waiting.tail

end ByteBudgetedQueue

/-- A call that takes more than one stretch under the lock. -/
inductive QueueCall (α : Type)
  | put (item : α) (size : ℕ)
  | get
deriving DecidableEq

/-- How a call has ended. -/
inductive QueueReturn (α : Type)
  | put (item : α) (size : ℕ)
  | queueClosed
  | got (item : α)
  | gotNone
  | released (item : α) (size : ℕ)
  | closed
deriving DecidableEq

/-- The items that `put` has accepted, with their sizes. -/
def puts (log : List (QueueReturn α)) : List (α × ℕ) :=
  log.filterMap fun entry =>
    match entry with
    | .put item size => some (item, size)
    | _ => none

/-- The items that `get` has returned. -/
def gets (log : List (QueueReturn α)) : List α :=
  log.filterMap fun entry =>
    match entry with
    | .got item => some item
    | _ => none

/-- The items whose bytes have been released. -/
def releases (log : List (QueueReturn α)) : List (α × ℕ) :=
  log.filterMap fun entry =>
    match entry with
    | .released item size => some (item, size)
    | _ => none

/-- The queue, the calls in progress, the items that are popped and not yet released,
and how the calls so far have ended. -/
structure Traffic (α : Type) where
  queue : ByteBudgetedQueue α
  calls : ℕ → Option (QueueCall α) := fun _ => none
  held : List (α × ℕ) := []
  log : List (QueueReturn α) := []

/-- A thread makes a call; a thread that has been woken has the lock again; a condition
wakes a thread that nothing has notified; the bytes of a popped item are released, once;
the queue is closed. -/
inductive TrafficEvent (α : Type)
  | call (thread : ℕ) (call : QueueCall α)
  | resume (thread : ℕ)
  | wake (thread : ℕ)
  | release (index : ℕ)
  | close
deriving DecidableEq

namespace Traffic

open ByteBudgetedQueue

/-- The items in the queue, with the sizes they were put with. -/
def queued (s : Traffic α) : List (α × ℕ) := (puts s.log).drop (gets s.log).length

/-- The items queued or popped and not yet released. -/
def outstanding (s : Traffic α) : List (α × ℕ) := s.queued ++ s.held

/-- `put` from where the thread has the lock. -/
def tryPut (s : Traffic α) (thread : ℕ) (item : α) (size : ℕ) : Traffic α :=
  if s.queue.blocks size then
    { s with
      queue := { s.queue with notFull := s.queue.notFull ++ [thread] }
      calls := Function.update s.calls thread (some (.put item size)) }
  else if s.queue.closed then
    { s with
      calls := Function.update s.calls thread none
      log := s.log ++ [.queueClosed] }
  else
    { s with
      queue := { s.queue with
        items := s.queue.items ++ [item]
        currentBytes := s.queue.currentBytes + size
        notEmpty := notify s.queue.notEmpty }
      calls := Function.update s.calls thread none
      log := s.log ++ [.put item size] }

/-- `get` from where the thread has the lock. -/
def tryGet (s : Traffic α) (thread : ℕ) : Traffic α :=
  match s.queue.items with
  | [] =>
      if s.queue.closed then
        { s with
          calls := Function.update s.calls thread none
          log := s.log ++ [.gotNone] }
      else
        { s with
          queue := { s.queue with notEmpty := s.queue.notEmpty ++ [thread] }
          calls := Function.update s.calls thread (some .get) }
  | item :: items =>
      { s with
        queue := { s.queue with items := items }
        calls := Function.update s.calls thread none
        held := s.held ++ s.queued.take 1
        log := s.log ++ [.got item] }

/-- A call from where its thread has the lock. -/
def tryCall (s : Traffic α) (thread : ℕ) : QueueCall α → Traffic α
  | .put item size => s.tryPut thread item size
  | .get => s.tryGet thread

/-- `release`. -/
def release (s : Traffic α) (index : ℕ) (item : α × ℕ) : Traffic α :=
  { s with
    queue := { s.queue with
      currentBytes := s.queue.currentBytes - item.2
      notFull := notify s.queue.notFull }
    held := s.held.eraseIdx index
    log := s.log ++ [.released item.1 item.2] }

/-- `close`. -/
def close (s : Traffic α) : Traffic α :=
  { s with
    queue := { s.queue with
      closed := true
      notFull := []
      notEmpty := [] }
    log := s.log ++ [.closed] }

/-- A thread waits on one of the conditions. -/
def waits (s : Traffic α) (thread : ℕ) : Prop :=
  thread ∈ s.queue.notFull ∨ thread ∈ s.queue.notEmpty

instance (s : Traffic α) (thread : ℕ) : Decidable (s.waits thread) :=
  inferInstanceAs (Decidable (_ ∨ _))

def step (s : Traffic α) : TrafficEvent α → Option (Traffic α)
  | .call thread call =>
      match s.calls thread with
      | none => some (s.tryCall thread call)
      | some _ => none
  | .resume thread =>
      if s.waits thread then none else (s.calls thread).map fun call => s.tryCall thread call
  | .wake thread =>
      some { s with
        queue := { s.queue with
          notFull := s.queue.notFull.filter (· ≠ thread)
          notEmpty := s.queue.notEmpty.filter (· ≠ thread) } }
  | .release index => s.held[index]?.map fun item => s.release index item
  | .close => some s.close

def machine : Machine (Traffic α) (TrafficEvent α) := ⟨step⟩

/-- What holds of a queue with the given budget whatever its users do. -/
structure Correct (budget : ℤ) (s : Traffic α) : Prop where
  /-- The charge is the size of what is outstanding. -/
  charged : s.queue.currentBytes = ((s.outstanding.map Prod.snd).sum : ℕ)
  nonneg : 0 ≤ s.queue.currentBytes
  /-- Beyond the budget, exactly one item of positive size is outstanding. -/
  bounded : budget < s.queue.currentBytes → s.outstanding.countP (fun item => 0 < item.2) = 1
  /-- Items come out in the order of their puts, each once. -/
  fifo : gets s.log ++ s.queue.items = (puts s.log).map Prod.fst
  /-- An item that has come out is held until it is released. -/
  popped : ((puts s.log).take (gets s.log).length).Perm (s.held ++ releases s.log)
  /-- No put is accepted after the close. -/
  closed : ∀ before after, s.log = before ++ .closed :: after → puts after = []
  /-- `get` returns `None` only after the close, with every accepted item handed out. -/
  drained : ∀ before after, s.log = before ++ .gotNone :: after →
    .closed ∈ before ∧ gets before = (puts before).map Prod.fst

/-! ## What the log says -/

section Log

variable {log : List (QueueReturn α)} {entry : QueueReturn α}

theorem puts_append (log after : List (QueueReturn α)) :
    puts (log ++ after) = puts log ++ puts after := List.filterMap_append

theorem gets_append (log after : List (QueueReturn α)) :
    gets (log ++ after) = gets log ++ gets after := List.filterMap_append

theorem releases_append (log after : List (QueueReturn α)) :
    releases (log ++ after) = releases log ++ releases after := List.filterMap_append

/-- An entry of a log that has grown by one is the last, or it was there before. -/
theorem eq_append_of_snoc {before after : List (QueueReturn α)} {x : QueueReturn α}
    (h : log ++ [entry] = before ++ x :: after) :
    (after = [] ∧ before = log ∧ x = entry) ∨
      ∃ after', after = after' ++ [entry] ∧ log = before ++ x :: after' := by
  rcases after.eq_nil_or_concat with rfl | ⟨after', last, rfl⟩
  · obtain ⟨rfl, hlast⟩ := List.append_inj' h rfl
    exact Or.inl ⟨rfl, rfl, (List.singleton_inj.mp hlast).symm⟩
  · rw [List.concat_eq_append] at h ⊢
    rw [← List.cons_append, ← List.append_assoc] at h
    obtain ⟨rfl, hlast⟩ := List.append_inj' h rfl
    exact Or.inr ⟨after', by rw [List.singleton_inj.mp hlast], rfl⟩

/-- No put follows the close in a log that grows by an entry, unless the entry is one. -/
theorem puts_after_snoc (hold : ∀ before after, log = before ++ .closed :: after → puts after = [])
    (hentry : .closed ∈ log → puts [entry] = []) {before after : List (QueueReturn α)}
    (h : log ++ [entry] = before ++ .closed :: after) : puts after = [] := by
  rcases eq_append_of_snoc h with ⟨rfl, -, -⟩ | ⟨after', rfl, rfl⟩
  · rfl
  · rw [puts_append, hold before after' rfl, hentry (by simp), List.append_nil]

/-- `None` is returned rightly in a log that grows by an entry, if the entry is right. -/
theorem drained_snoc
    (hold : ∀ before after, log = before ++ .gotNone :: after →
      .closed ∈ before ∧ gets before = (puts before).map Prod.fst)
    (hentry : entry = .gotNone → .closed ∈ log ∧ gets log = (puts log).map Prod.fst)
    {before after : List (QueueReturn α)} (h : log ++ [entry] = before ++ .gotNone :: after) :
    .closed ∈ before ∧ gets before = (puts before).map Prod.fst := by
  rcases eq_append_of_snoc h with ⟨-, rfl, heq⟩ | ⟨after', rfl, hlog⟩
  · exact hentry heq.symm
  · exact hold before after' hlog

end Log

theorem sum_eq_zero_iff {items : List (α × ℕ)} :
    (items.map Prod.snd).sum = 0 ↔ items.countP (fun item => 0 < item.2) = 0 := by
  rw [List.sum_eq_zero_iff_forall_eq_nat, List.countP_eq_zero, List.forall_mem_map]
  simp

/-! ## One stretch under the lock -/

/-- What every step keeps. -/
structure Invariant (budget : ℤ) (s : Traffic α) : Prop extends Correct budget s where
  budget : s.queue.budgetBytes = budget
  closed_iff : s.queue.closed = true ↔ .closed ∈ s.log

variable {budget : ℤ} {s : Traffic α}

theorem invariant_start {q : ByteBudgetedQueue α} (h : create α budget = some q) :
    Invariant budget { queue := q } := by
  obtain ⟨hpos, hq⟩ := Option.dite_none_right_eq_some.mp h
  obtain rfl := Option.some.inj hq
  refine ⟨⟨rfl, Int.le_refl 0, fun hover => ?_, rfl, .refl _, fun before after hlog => ?_,
    fun before after hlog => ?_⟩, rfl, by simp⟩
  · change budget < 0 at hover
    omega
  · simp at hlog
  · simp at hlog

/-- Nothing that the invariant speaks of has changed. -/
theorem Invariant.congr {s' : Traffic α} (h : s.Invariant budget)
    (hqueue : ∃ notFull notEmpty, s'.queue =
      { s.queue with notFull := notFull, notEmpty := notEmpty })
    (hheld : s'.held = s.held) (hlog : s'.log = s.log) : s'.Invariant budget := by
  obtain ⟨notFull, notEmpty, hqueue⟩ := hqueue
  have hout : s'.outstanding = s.outstanding := by rw [outstanding, queued, hlog, hheld]; rfl
  exact ⟨⟨by rw [hqueue, hout]; exact h.charged, by rw [hqueue]; exact h.nonneg,
    by rw [hqueue, hout]; exact h.bounded, by rw [hqueue, hlog]; exact h.fifo,
    by rw [hheld, hlog]; exact h.popped, by rw [hlog]; exact h.closed,
    by rw [hlog]; exact h.drained⟩, by rw [hqueue]; exact h.budget,
    by rw [hqueue, hlog]; exact h.closed_iff⟩

theorem Invariant.length_gets_le (h : s.Invariant budget) :
    (gets s.log).length ≤ (puts s.log).length := by
  have hlength := congrArg List.length h.fifo
  rw [List.length_append, List.length_map] at hlength
  omega

/-- The items of the deque are those queued. -/
theorem Invariant.items_eq (h : s.Invariant budget) : s.queue.items = s.queued.map Prod.fst := by
  rw [queued, List.map_drop, ← h.fifo, List.drop_left]

/-- What is left to show of a step that adds an entry to the log: the close is final,
`None` means drained, and the counts agree. -/
theorem Invariant.snoc {s' : Traffic α} (h : s.Invariant budget) (entry : QueueReturn α)
    (hlog : s'.log = s.log ++ [entry])
    (hcharged : s'.queue.currentBytes = ((s'.outstanding.map Prod.snd).sum : ℕ))
    (hbounded : budget < s'.queue.currentBytes →
      s'.outstanding.countP (fun item => 0 < item.2) = 1)
    (hfifo : gets s'.log ++ s'.queue.items = (puts s'.log).map Prod.fst)
    (hpopped : ((puts s'.log).take (gets s'.log).length).Perm (s'.held ++ releases s'.log))
    (hput : .closed ∈ s.log → puts [entry] = [])
    (hnone : entry = .gotNone → .closed ∈ s.log ∧ gets s.log = (puts s.log).map Prod.fst)
    (hbudget : s'.queue.budgetBytes = s.queue.budgetBytes)
    (hclosed : s'.queue.closed = true ↔ s.queue.closed = true ∨ entry = .closed) :
    s'.Invariant budget where
  charged := hcharged
  nonneg := hcharged ▸ Int.natCast_nonneg _
  bounded := hbounded
  fifo := hfifo
  popped := hpopped
  closed _ _ heq := puts_after_snoc h.closed hput (hlog ▸ heq)
  drained _ _ heq := drained_snoc h.drained hnone (hlog ▸ heq)
  budget := hbudget.trans h.budget
  closed_iff := by
    rw [hclosed, h.closed_iff, hlog, List.mem_append, List.mem_singleton, eq_comm]

/-- An accepted put. -/
theorem invariant_put (h : s.Invariant budget) (thread : ℕ) (item : α) (size : ℕ)
    (hblocks : s.queue.blocks size = false) (hopen : s.queue.closed = false) :
    (s.tryPut thread item size).Invariant budget := by
  have hroom : s.queue.currentBytes = 0 ∨ s.queue.currentBytes + size ≤ budget := by
    have hnonneg := h.nonneg
    have hbudget := h.budget
    simp only [blocks, hopen, decide_eq_false_iff_not, Bool.not_false, true_and] at hblocks
    omega
  have hlog : (s.tryPut thread item size).log = s.log ++ [.put item size] := by
    simp [tryPut, hblocks, hopen]
  have hperm : (s.tryPut thread item size).outstanding.Perm ((item, size) :: s.outstanding) := by
    have hheld : (s.tryPut thread item size).held = s.held := by simp [tryPut, hblocks, hopen]
    rw [outstanding, outstanding, queued, queued, hlog, hheld, puts_append, gets_append,
      show gets [QueueReturn.put item size] = [] from rfl, List.append_nil,
      List.drop_append_of_le_length h.length_gets_le, List.append_assoc]
    exact List.perm_middle
  have hbytes : (s.tryPut thread item size).queue.currentBytes =
      s.queue.currentBytes + size := by simp [tryPut, hblocks, hopen]
  refine h.snoc (.put item size) hlog ?_ (fun hover => ?_) ?_ ?_ (fun hmem => ?_)
    (fun heq => by cases heq) ?_ ?_
  · rw [hbytes, h.charged, (hperm.map Prod.snd).sum_eq, List.map_cons, List.sum_cons]
    omega
  · -- the charge was zero, so only this item is of positive size
    have hcharged := h.charged
    have hbudget := h.budget
    have hpos := s.queue.budget_pos
    have hzero : (s.outstanding.map Prod.snd).sum = 0 := by omega
    rw [hperm.countP_eq, List.countP_cons, sum_eq_zero_iff.mp hzero,
      if_pos (decide_eq_true (by omega))]
  · have hitems : (s.tryPut thread item size).queue.items = s.queue.items ++ [item] := by
      simp [tryPut, hblocks, hopen]
    rw [hlog, hitems, gets_append, puts_append, List.map_append, ← h.fifo]
    simp [gets, puts]
  · have hheld : (s.tryPut thread item size).held = s.held := by simp [tryPut, hblocks, hopen]
    rw [hlog, hheld, puts_append, gets_append, releases_append,
      show gets [QueueReturn.put item size] = [] from rfl, List.append_nil,
      List.take_append_of_le_length h.length_gets_le]
    simpa [releases] using h.popped
  · rw [h.closed_iff.mpr hmem] at hopen
    cases hopen
  · simp [tryPut, hblocks, hopen]
  · simp [tryPut, hblocks, hopen]

/-- `put`, from where the thread has the lock. -/
theorem invariant_tryPut (h : s.Invariant budget) (thread : ℕ) (item : α) (size : ℕ) :
    (s.tryPut thread item size).Invariant budget := by
  cases hblocks : s.queue.blocks size with
  | true =>
      rw [tryPut, if_pos hblocks]
      exact h.congr ⟨_, _, rfl⟩ rfl rfl
  | false =>
      cases hclosed : s.queue.closed with
      | false => exact invariant_put h thread item size hblocks hclosed
      | true =>
          rw [tryPut, hblocks, hclosed, if_neg Bool.false_ne_true, if_pos rfl]
          have hout : outstanding { s with
              calls := Function.update s.calls thread none
              log := s.log ++ [.queueClosed] } = s.outstanding := by
            simp [outstanding, queued, puts, gets]
          refine h.snoc .queueClosed rfl ?_ ?_ ?_ ?_ (fun _ => rfl)
            (fun heq => by cases heq) rfl (by simp)
          · rw [hout]
            exact h.charged
          · rw [hout]
            exact h.bounded
          · simpa [gets, puts] using h.fifo
          · simpa [gets, puts, releases] using h.popped

/-- `get`, from where the thread has the lock. -/
theorem invariant_tryGet (h : s.Invariant budget) (thread : ℕ) :
    (s.tryGet thread).Invariant budget := by
  unfold tryGet
  cases hitems : s.queue.items with
  | nil =>
      cases hclosed : s.queue.closed with
      | false =>
          rw [if_neg Bool.false_ne_true]
          exact h.congr ⟨s.queue.notFull, s.queue.notEmpty ++ [thread], rfl⟩ rfl rfl
      | true =>
          have hfifo := h.fifo
          rw [hitems, List.append_nil] at hfifo
          rw [if_pos rfl]
          have hout : outstanding { s with
              calls := Function.update s.calls thread none
              log := s.log ++ [.gotNone] } = s.outstanding := by
            simp [outstanding, queued, puts, gets]
          refine h.snoc .gotNone rfl ?_ ?_ ?_ ?_ (fun _ => rfl)
            (fun _ => ⟨h.closed_iff.mp hclosed, hfifo⟩) rfl (by simp)
          · rw [hout]
            exact h.charged
          · rw [hout]
            exact h.bounded
          · simpa [gets, puts] using h.fifo
          · simpa [gets, puts, releases] using h.popped
  | cons item items =>
      obtain ⟨size, rest, hqueued⟩ : ∃ size rest, s.queued = (item, size) :: rest := by
        have hmap := h.items_eq
        rw [hitems] at hmap
        cases hq : s.queued with
        | nil => simp [hq] at hmap
        | cons x rest =>
            rw [hq, List.map_cons] at hmap
            exact ⟨x.2, rest, by rw [(List.cons.inj hmap).1]⟩
      simp only [hqueued, List.take_succ_cons, List.take_zero]
      have hout : (outstanding { s with
          queue := { s.queue with items := items }
          calls := Function.update s.calls thread none
          held := s.held ++ [(item, size)]
          log := s.log ++ [.got item] }).Perm s.outstanding := by
        have htail : (puts s.log).drop ((gets s.log).length + 1) = rest := by
          rw [← List.drop_drop, ← queued, hqueued, List.drop_one, List.tail_cons]
        simp only [outstanding, queued, puts_append, gets_append]
        rw [show puts [QueueReturn.got item] = [] from rfl,
          show gets [QueueReturn.got item] = [item] from rfl, List.append_nil, List.length_append,
          List.length_singleton, htail, ← queued, hqueued, ← List.append_assoc]
        exact List.perm_append_singleton _ _
      refine h.snoc (.got item) rfl ?_ ?_ ?_ ?_ (fun _ => rfl)
        (fun heq => by cases heq) rfl (by simp)
      · rw [(hout.map Prod.snd).sum_eq]
        exact h.charged
      · rw [hout.countP_eq]
        exact h.bounded
      · have hfifo := h.fifo
        rw [hitems] at hfifo
        simpa [gets, puts] using hfifo
      · rw [puts_append, gets_append, releases_append,
          show puts [QueueReturn.got item] = [] from rfl,
          show gets [QueueReturn.got item] = [item] from rfl, List.append_nil, List.length_append,
          List.length_singleton, List.take_add, ← queued, hqueued, List.take_succ_cons,
          List.take_zero, show releases [QueueReturn.got item] = [] from rfl, List.append_nil,
          List.append_assoc]
        exact (h.popped.append_right _).trans (by
          rw [List.append_assoc]
          exact List.perm_append_comm.append_left _)

/-- The release of a popped item. -/
theorem invariant_release (h : s.Invariant budget) {index : ℕ} {item : α × ℕ}
    (hitem : s.held[index]? = some item) : (s.release index item).Invariant budget := by
  obtain ⟨hindex, hget⟩ := List.getElem?_eq_some_iff.mp hitem
  have hheld : (item :: s.held.eraseIdx index).Perm s.held := by
    rw [← hget]
    exact List.getElem_cons_eraseIdx_perm hindex
  have hout : s.outstanding.Perm (item :: (s.release index item).outstanding) := by
    have hqueued : (s.release index item).queued = s.queued := by
      rw [queued, queued, release, puts_append, gets_append]
      simp [puts, gets]
    rw [outstanding, outstanding, hqueued]
    exact (hheld.symm.append_left _).trans List.perm_middle
  have hcharged : (s.release index item).queue.currentBytes =
      (((s.release index item).outstanding.map Prod.snd).sum : ℕ) := by
    have hsum := h.charged
    rw [(hout.map Prod.snd).sum_eq, List.map_cons, List.sum_cons] at hsum
    change s.queue.currentBytes - item.2 = _
    omega
  refine h.snoc (.released item.1 item.2) rfl hcharged (fun hover => ?_) ?_ ?_
    (fun _ => rfl) (fun heq => by cases heq) rfl (by simp [release])
  · have hbefore : budget < s.queue.currentBytes := by
      change budget < s.queue.currentBytes - item.2 at hover
      omega
    have hcount := h.bounded hbefore
    rw [hout.countP_eq, List.countP_cons] at hcount
    by_cases hsize : 0 < item.2
    · -- the one item of positive size is released, so nothing is charged any more
      rw [if_pos (decide_eq_true hsize)] at hcount
      have hzero := sum_eq_zero_iff.mpr (by omega :
        (s.release index item).outstanding.countP (fun item => 0 < item.2) = 0)
      have hbudget := h.budget
      have hpos := s.queue.budget_pos
      rw [hzero] at hcharged
      omega
    · rw [if_neg (by simpa using hsize)] at hcount
      omega
  · simpa [release, gets, puts] using h.fifo
  · have hlog : ((puts (s.release index item).log).take
        (gets (s.release index item).log).length) =
        (puts s.log).take (gets s.log).length := by
      simp [release, gets, puts]
    have hreleases : releases (s.release index item).log = releases s.log ++ [item] := by
      simp [release, releases]
    rw [hlog, hreleases]
    refine h.popped.trans ?_
    refine (hheld.symm.append_right _).trans ?_
    rw [List.cons_append, ← List.append_assoc]
    exact (List.perm_append_singleton _ _).symm

theorem invariant_close (h : s.Invariant budget) : s.close.Invariant budget := by
  have hout : s.close.outstanding = s.outstanding := by
    simp [close, outstanding, queued, puts, gets]
  refine h.snoc .closed rfl ?_ ?_ ?_ ?_ (fun _ => rfl)
    (fun heq => by cases heq) rfl (by simp [close])
  · rw [hout]
    exact h.charged
  · rw [hout]
    exact h.bounded
  · simpa [close, gets, puts] using h.fifo
  · simpa [close, gets, puts, releases] using h.popped

theorem invariant_tryCall (h : s.Invariant budget) (thread : ℕ) (call : QueueCall α) :
    (s.tryCall thread call).Invariant budget := by
  cases call with
  | put item size => exact invariant_tryPut h thread item size
  | get => exact invariant_tryGet h thread

theorem invariant_step {e : TrafficEvent α} {s' : Traffic α} (h : s.Invariant budget)
    (hstep : s.step e = some s') : s'.Invariant budget := by
  cases e with
  | call thread call =>
      simp only [step] at hstep
      split at hstep
      · obtain rfl := Option.some.inj hstep
        exact invariant_tryCall h thread call
      · cases hstep
  | resume thread =>
      simp only [step] at hstep
      split at hstep
      · cases hstep
      · obtain ⟨call, -, rfl⟩ := Option.map_eq_some_iff.mp hstep
        exact invariant_tryCall h thread call
  | wake thread =>
      obtain rfl := Option.some.inj hstep
      exact h.congr ⟨_, _, rfl⟩ rfl rfl
  | release index =>
      obtain ⟨item, hitem, rfl⟩ := Option.map_eq_some_iff.mp hstep
      exact invariant_release h hitem
  | close =>
      obtain rfl := Option.some.inj hstep
      exact invariant_close h

/-- Any interleaving of the calls of any number of threads keeps the queue correct. -/
theorem correct_of_run {q : ByteBudgetedQueue α} {l : List (TrafficEvent α)} {s : Traffic α}
    (hq : create α budget = some q) (hrun : machine.run { queue := q } l = some s) :
    s.Correct budget := by
  have hinv : ∀ (s : Traffic α) e s', s.Invariant budget → machine.step s e = some s' →
      s'.Invariant budget := fun _ _ _ h hstep => invariant_step h hstep
  exact (Machine.run_invariant hinv (invariant_start hq) hrun).toCorrect

/-- A put beyond the budget waits while the first item is out; it is woken by the
release, and the queue is closed and drained. -/
def oversizePuts : List (TrafficEvent ℕ) :=
  [.call 0 (.put 7 15), .call 1 (.put 8 3), .call 2 .get, .release 0, .resume 1, .call 2 .get,
    .call 3 .get, .close, .resume 3]

theorem correct_oversizePuts : ∃ s, machine.run { queue := ⟨10, [], 0, false, [], [], by decide⟩ }
    oversizePuts = some s ∧ s.Correct 10 := by
  have hends : (machine.run { queue := ⟨10, [], 0, false, [], [], by decide⟩ }
      oversizePuts).isSome = true := by decide
  obtain ⟨s, hrun⟩ := Option.isSome_iff_exists.mp hends
  exact ⟨s, hrun, correct_of_run rfl hrun⟩

/-- When each put charges the size that its item has, so does a popped item:
`process_one` frees `len(item.data)`, which is what the fetch stage has put. -/
theorem Correct.size_of_mem_held (h : s.Correct budget) {size : α → ℕ}
    (hputs : ∀ item ∈ puts s.log, item.2 = size item.1) {item : α × ℕ} (hitem : item ∈ s.held) :
    item.2 = size item.1 := by
  have hpopped : item ∈ (puts s.log).take (gets s.log).length :=
    h.popped.mem_iff.mpr (List.mem_append_left _ hitem)
  exact hputs item (List.mem_of_mem_take hpopped)

end Traffic

end RerollSync.Fetch
