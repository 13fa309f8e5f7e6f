import RerollSync.Support.Program

/-!
# Snapshot transactions

A transaction opened with plain `BEGIN` over a database to which other
connections commit: its first statement takes the snapshot, its first write
takes the write lock, and that write fails at once when somebody has committed
since the snapshot was taken.  Commits that find the lock taken wait until the
transaction has ended.  Rolling back to a savepoint keeps snapshot and lock.
-/

namespace RerollSync.Support.Snapshot

variable {σ ε α : Type}

/-- Several commits, one after another. -/
def applyAll (commits : List (σ → σ)) (db : σ) : σ := commits.foldl (fun db f => f db) db

/-- What a transaction sees: the snapshot, the snapshot with its own writes, and
the number of commits of others when it was taken. -/
structure View (σ : Type) where
  base : σ
  working : σ
  commits : ℕ

/-- A transaction and its surroundings: the committed database, the number of
commits of others, those waiting for the lock, and the number of statements the
transaction has executed. -/
structure Session (σ : Type) where
  committed : σ
  commits : ℕ
  view : Option (View σ)
  locked : Bool
  pending : List (σ → σ)
  statements : ℕ
  counter : ℕ

namespace Session

/-- The transaction right after `BEGIN`. -/
def start (db : σ) (counter : ℕ) : Session σ := ⟨db, 0, none, false, [], 0, counter⟩

/-- The commits of others that come right before the next statement. -/
def arrive (foreign : ℕ → List (σ → σ)) (s : Session σ) : Session σ :=
  if s.locked then
    { s with
      pending := s.pending ++ foreign s.statements
      statements := s.statements + 1 }
  else
    { s with
      committed := applyAll (foreign s.statements) s.committed
      commits := s.commits + (foreign s.statements).length
      statements := s.statements + 1 }

/-- The snapshot, taken now if this is the first statement. -/
def opened (s : Session σ) : View σ := s.view.getD ⟨s.committed, s.committed, s.commits⟩

/-- Begin a statement: others commit, and there is a snapshot. -/
def statement (foreign : ℕ → List (σ → σ)) (s : Session σ) : Session σ :=
  { s.arrive foreign with view := some (s.arrive foreign).opened }

/-- The transaction cannot write any more. -/
def Stale (s : Session σ) : Prop := s.locked = false ∧ s.opened.commits ≠ s.commits

instance (s : Session σ) : Decidable s.Stale := inferInstanceAs (Decidable (_ ∧ _))

/-- Take the lock, if it is not held already, and leave `db`. -/
def write (db : σ) (s : Session σ) : Session σ :=
  { s with view := some { s.opened with working := db }, locked := true }

/-- Draw a sequence number. -/
def drawSeq (s : Session σ) : Session σ := { s with counter := s.counter + 1 }

end Session

/-- Execute a program in the transaction.  `busy` is the error of a first write
whose snapshot is stale. -/
def exec (foreign : ℕ → List (σ → σ)) (busy : ε) :
    Program σ ε α → Session σ → Session σ × Except ε α
  | .pure a, s => (s, .ok a)
  | .raise e, s => (s, .error e)
  | .select k, s =>
      let s := s.statement foreign
      exec foreign busy (k s.opened.working) s
  | .execute f handler k, s =>
      let s := s.statement foreign
      if s.Stale then exec foreign busy (handler busy) s
      else
        match f s.opened.working with
        | .error e => exec foreign busy (handler e) (s.write s.opened.working)
        | .ok (db, count) => exec foreign busy (k count) (s.write db)
  | .nextSeq k, s => exec foreign busy (k (s.counter + 1)) s.drawSeq

/-- One op of a batch, between its savepoint and the release or rollback. -/
def applyOp (foreign : ℕ → List (σ → σ)) (busy : ε) (p : Program σ ε α) (s : Session σ) :
    Session σ × Except ε α :=
  match exec foreign busy p s with
  | (s', .ok a) => (s', .ok a)
  | (s', .error e) =>
      ({ s' with
          view := s'.view.map fun v =>
            { v with working := (s.view.map View.working).getD v.base } }, .error e)

def applyOps (foreign : ℕ → List (σ → σ)) (busy : ε) :
    List (Program σ ε α) → Session σ → Session σ × List (Except ε α)
  | [], s => (s, [])
  | p :: ps, s =>
      let first := applyOp foreign busy p s
      let rest := applyOps foreign busy ps first.1
      (rest.1, first.2 :: rest.2)

/-- `COMMIT`, and the commits that waited for it. -/
def commit (foreign : ℕ → List (σ → σ)) (s : Session σ) : σ :=
  let s := s.arrive foreign
  applyAll s.pending (if s.locked then s.opened.working else s.committed)

/-- A batch: `BEGIN`, the ops, `COMMIT`. -/
def commitBatch (foreign : ℕ → List (σ → σ)) (busy : ε) (batch : List (Program σ ε α)) (db : σ)
    (counter : ℕ) : σ × List (Except ε α) :=
  let r := applyOps foreign busy batch (Session.start db counter)
  (commit foreign r.1, r.2)

/-! ## The reference: nobody else commits -/

/-- The programs of a batch, each run atomically on what its predecessors left:
the database they leave and their outcomes. -/
def sequential : List (Program σ ε α) → σ → ℕ → σ × List (Except ε α)
  | [], db, _ => (db, [])
  | p :: ps, db, n =>
      let first := p.runAtomic db n
      let rest := sequential ps first.db first.counter
      (rest.1, first.value :: rest.2)

/-- The reads a program makes before its first write, and whether it writes. -/
def readsOf : Program σ ε α → σ → ℕ → ℕ × Bool
  | .pure _, _, _ => (0, false)
  | .raise _, _, _ => (0, false)
  | .select k, db, n => ((readsOf (k db) db n).1 + 1, (readsOf (k db) db n).2)
  | .execute _ _ _, _, _ => (0, true)
  | .nextSeq k, db, n => readsOf (k (n + 1)) db (n + 1)

/-- The reads a batch makes before its first write, and whether it writes. -/
def leadingReads : List (Program σ ε α) → σ → ℕ → ℕ × Bool
  | [], _, _ => (0, false)
  | p :: ps, db, n =>
      if (readsOf p db n).2 then readsOf p db n
      else
        ((readsOf p db n).1 + (leadingReads ps db (p.run db n).counter).1,
          (leadingReads ps db (p.run db n).counter).2)

/-- The commits of others between the first of `n` statements and the last. -/
def later (foreign : ℕ → List (σ → σ)) : ℕ → List (σ → σ)
  | 0 => []
  | n + 1 => later foreign n ++ if n = 0 then [] else foreign n

/-- A program that does not return when its first write raises `busy`. -/
def FailsWhenBusy (busy : ε) : Program σ ε α → Prop
  | .pure _ => False
  | .raise _ => True
  | .select k => ∀ db, FailsWhenBusy busy (k db)
  | .execute _ handler _ => FailsWhenBusy busy (handler busy)
  | .nextSeq k => ∀ n, FailsWhenBusy busy (k n)

theorem failsWhenBusy_bind_left {busy : ε} {β : Type} {p : Program σ ε α}
    {g : α → Program σ ε β} (hp : FailsWhenBusy busy p) : FailsWhenBusy busy (p >>= g) := by
  change FailsWhenBusy busy (p.bind g)
  induction p with
  | pure a => exact hp.elim
  | raise e => trivial
  | select k ih => exact fun db => ih db (hp db)
  | execute f handler k ihHandler ih => exact ihHandler busy hp
  | nextSeq k ih => exact fun n => ih n (hp n)

theorem failsWhenBusy_bind_right {busy : ε} {β : Type} {p : Program σ ε α}
    {g : α → Program σ ε β} (hg : ∀ a, FailsWhenBusy busy (g a)) :
    FailsWhenBusy busy (p >>= g) := by
  change FailsWhenBusy busy (p.bind g)
  induction p with
  | pure a => exact hg a
  | raise e => trivial
  | select k ih => exact fun db => ih db
  | execute f handler k ihHandler ih => exact ihHandler busy
  | nextSeq k ih => exact fun n => ih n

/-! ## The course of a transaction

Until its first write the transaction is `waiting` for the lock with its
snapshot taken; from then on it is `holding` it.  Both are determined by how many
statements were executed.
-/

variable (foreign : ℕ → List (σ → σ)) (db : σ)

/-- The database of the snapshot. -/
def base : σ := applyAll (foreign 0) db

/-- After `t` statements without a write. -/
def waiting (t counter : ℕ) : Session σ :=
  if t = 0 then .start db counter
  else
    { committed := applyAll (later foreign t) (base foreign db)
      commits := (foreign 0).length + (later foreign t).length
      view := some ⟨base foreign db, base foreign db, (foreign 0).length⟩
      locked := false
      pending := []
      statements := t
      counter := counter }

/-- After `t` statements, the lock taken while the snapshot was fresh. -/
def holding (working : σ) (t counter : ℕ) : Session σ where
  committed := base foreign db
  commits := (foreign 0).length
  view := some ⟨base foreign db, working, (foreign 0).length⟩
  locked := true
  pending := later foreign t
  statements := t
  counter := counter

variable {foreign db}

theorem applyAll_append (l l' : List (σ → σ)) (db : σ) :
    applyAll (l ++ l') db = applyAll l' (applyAll l db) := List.foldl_append

theorem waiting_counter (t counter : ℕ) : (waiting foreign db t counter).counter = counter := by
  by_cases ht : t = 0 <;> simp [waiting, ht, Session.start]

theorem waiting_drawSeq (t counter : ℕ) :
    (waiting foreign db t counter).drawSeq = waiting foreign db t (counter + 1) := by
  by_cases ht : t = 0 <;> simp [waiting, ht, Session.start, Session.drawSeq]

/-- A statement takes the snapshot, and nothing else. -/
theorem waiting_statement (t counter : ℕ) :
    (waiting foreign db t counter).statement foreign = waiting foreign db (t + 1) counter := by
  by_cases ht : t = 0
  · simp [waiting, ht, Session.statement, Session.opened, Session.start, Session.arrive, later,
      base, applyAll]
  · simp [waiting, ht, Session.statement, Session.opened, Session.arrive, later,
      applyAll_append, Nat.add_assoc]

theorem waiting_opened (t counter : ℕ) :
    (waiting foreign db (t + 1) counter).opened =
      ⟨base foreign db, base foreign db, (foreign 0).length⟩ := by
  simp [waiting, Session.opened]

theorem stale_waiting_iff (t counter : ℕ) :
    (waiting foreign db (t + 1) counter).Stale ↔ later foreign (t + 1) ≠ [] := by
  simp [Session.Stale, Session.opened, waiting]

/-- A write over a fresh snapshot takes the lock. -/
theorem waiting_write {t : ℕ} (counter : ℕ) (working : σ) (h : later foreign (t + 1) = []) :
    (waiting foreign db (t + 1) counter).write working =
      holding foreign db working (t + 1) counter := by
  simp [Session.write, Session.opened, waiting, holding, h, applyAll]

theorem holding_statement (working : σ) (t counter : ℕ) :
    (holding foreign db working (t + 1) counter).statement foreign =
      holding foreign db working (t + 2) counter := by
  simp [holding, Session.statement, Session.opened, Session.arrive, later]

theorem holding_opened (working : σ) (t counter : ℕ) :
    (holding foreign db working t counter).opened =
      ⟨base foreign db, working, (foreign 0).length⟩ := rfl

theorem holding_write (working working' : σ) (t counter : ℕ) :
    (holding foreign db working t counter).write working' =
      holding foreign db working' t counter := by
  simp [holding, Session.write, Session.opened]

theorem not_stale_holding (working : σ) (t counter : ℕ) :
    ¬(holding foreign db working t counter).Stale := by
  simp [holding, Session.Stale]

variable {busy : ε}

variable (foreign db busy) in
/-- With the lock, a program does what it does without other connections. -/
theorem exec_holding (p : Program σ ε α) (working : σ) (t counter : ℕ) :
    ∃ t', exec foreign busy p (holding foreign db working (t + 1) counter) =
      (holding foreign db (p.run working counter).db (t' + 1) (p.run working counter).counter,
        (p.run working counter).value) := by
  induction p generalizing working t counter with
  | pure a => exact ⟨t, rfl⟩
  | raise e => exact ⟨t, rfl⟩
  | select k ih =>
      simp only [exec, holding_statement]
      exact ih working working (t + 1) counter
  | execute f handler k ihHandler ih =>
      simp only [exec, holding_statement, holding_write, Program.run]
      rw [if_neg (not_stale_holding working (t + 2) counter)]
      simp only [holding_opened]
      rcases f working with e | ⟨db', count⟩
      · exact ihHandler e working (t + 1) counter
      · exact ih count db' (t + 1) counter
  | nextSeq k ih => exact ih (counter + 1) working t (counter + 1)

/-- A program that does not write leaves the transaction waiting. -/
theorem exec_waiting_of_reads {p : Program σ ε α} {t counter : ℕ}
    (h : (readsOf p (base foreign db) counter).2 = false) :
    exec foreign busy p (waiting foreign db t counter) =
      (waiting foreign db (t + (readsOf p (base foreign db) counter).1)
        (p.run (base foreign db) counter).counter, (p.run (base foreign db) counter).value) := by
  induction p generalizing t counter with
  | pure a => rfl
  | raise e => rfl
  | select k ih =>
      simp only [exec, waiting_statement, waiting_opened, Program.run]
      rw [ih (base foreign db) h, readsOf, Nat.add_assoc, Nat.add_comm 1]
  | execute f handler k ihHandler ih => cases h
  | nextSeq k ih =>
      simp only [exec, waiting_drawSeq, waiting_counter, Program.run]
      exact ih (counter + 1) h

variable (busy) in
/-- A program whose first write comes over a fresh snapshot takes the lock there
and does what it does without other connections. -/
theorem exec_waiting_of_fresh {p : Program σ ε α} {t counter : ℕ}
    (h : (readsOf p (base foreign db) counter).2 = true)
    (hfresh : later foreign (t + (readsOf p (base foreign db) counter).1 + 1) = []) :
    ∃ t', exec foreign busy p (waiting foreign db t counter) =
      (holding foreign db (p.run (base foreign db) counter).db (t' + 1)
        (p.run (base foreign db) counter).counter, (p.run (base foreign db) counter).value) := by
  induction p generalizing t counter with
  | pure a => cases h
  | raise e => cases h
  | select k ih =>
      simp only [exec, waiting_statement, waiting_opened, Program.run]
      exact ih (base foreign db) h (by rw [← hfresh, readsOf]; congr 1; omega)
  | execute f handler k ihHandler ih =>
      have hfresh : later foreign (t + 1) = [] := hfresh
      simp only [exec, waiting_statement, waiting_opened, waiting_write counter _ hfresh,
        Program.run]
      rw [if_neg (by rw [stale_waiting_iff]; exact not_not.mpr hfresh)]
      rcases f (base foreign db) with e | ⟨db', count⟩
      · exact exec_holding foreign db busy (handler e) (base foreign db) t counter
      · exact exec_holding foreign db busy (k count) db' t counter
  | nextSeq k ih =>
      simp only [exec, waiting_drawSeq, waiting_counter, Program.run]
      exact ih (counter + 1) h hfresh

theorem later_ne_nil_of_le {t t' : ℕ} (h : t ≤ t') (hlater : later foreign t ≠ []) :
    later foreign t' ≠ [] := by
  induction h with
  | refl => exact hlater
  | step _ ih => simp [later, ih]

variable (db) in
/-- Over a stale snapshot, a program that fails when busy fails. -/
theorem exec_waiting_of_stale {p : Program σ ε α} (hp : FailsWhenBusy busy p) {t : ℕ}
    (counter : ℕ) (hstale : later foreign t ≠ []) :
    ∃ t' counter' e, t ≤ t' ∧ exec foreign busy p (waiting foreign db t counter) =
      (waiting foreign db t' counter', .error e) := by
  induction p generalizing t counter with
  | pure a => exact hp.elim
  | raise e => exact ⟨t, counter, e, Nat.le_refl t, rfl⟩
  | select k ih =>
      simp only [exec, waiting_statement]
      obtain ⟨t', counter', e, hle, hexec⟩ :=
        ih _ (hp _) counter (later_ne_nil_of_le (Nat.le_succ t) hstale)
      exact ⟨t', counter', e, Nat.le_trans (Nat.le_succ t) hle, hexec⟩
  | execute f handler k ihHandler ih =>
      have hnext := later_ne_nil_of_le (Nat.le_succ t) hstale
      simp only [exec, waiting_statement]
      rw [if_pos ((stale_waiting_iff t counter).mpr hnext)]
      obtain ⟨t', counter', e, hle, hexec⟩ := ihHandler busy hp counter hnext
      exact ⟨t', counter', e, Nat.le_trans (Nat.le_succ t) hle, hexec⟩
  | nextSeq k ih =>
      simp only [exec, waiting_drawSeq, waiting_counter]
      exact ih (counter + 1) (hp (counter + 1)) (counter + 1) hstale

/-- A program whose first write comes over a stale snapshot fails there. -/
theorem exec_waiting_of_turns_stale {p : Program σ ε α} (hp : FailsWhenBusy busy p)
    {t counter : ℕ} (h : (readsOf p (base foreign db) counter).2 = true)
    (hstale : later foreign (t + (readsOf p (base foreign db) counter).1 + 1) ≠ []) :
    ∃ t' counter' e, later foreign t' ≠ [] ∧
      exec foreign busy p (waiting foreign db t counter) =
        (waiting foreign db t' counter', .error e) := by
  induction p generalizing t counter with
  | pure a => cases h
  | raise e => cases h
  | select k ih =>
      simp only [exec, waiting_statement, waiting_opened]
      refine ih (base foreign db) (hp _) h ?_
      rwa [Nat.add_right_comm t]
  | execute f handler k ihHandler ih =>
      simp only [exec, waiting_statement]
      rw [if_pos ((stale_waiting_iff t counter).mpr hstale)]
      obtain ⟨t', counter', e, hle, hexec⟩ :=
        exec_waiting_of_stale (p := handler busy) db hp counter hstale
      exact ⟨t', counter', e, later_ne_nil_of_le hle hstale, hexec⟩
  | nextSeq k ih =>
      simp only [exec, waiting_drawSeq, waiting_counter]
      exact ih (counter + 1) (hp (counter + 1)) h hstale

/-! ## The ops of a batch -/

variable (foreign db busy) in
theorem applyOp_holding (p : Program σ ε α) (working : σ) (t counter : ℕ) :
    ∃ t', applyOp foreign busy p (holding foreign db working (t + 1) counter) =
      (holding foreign db (p.runAtomic working counter).db (t' + 1)
        (p.runAtomic working counter).counter, (p.runAtomic working counter).value) := by
  obtain ⟨t', hexec⟩ := exec_holding foreign db busy p working t counter
  refine ⟨t', ?_⟩
  rw [applyOp, hexec, Program.runAtomic]
  rcases p.run working counter with ⟨db', n, e | a⟩ <;> rfl

/-- Rolling back a program that has not written changes nothing. -/
theorem rollback_waiting (t t' counter counter' : ℕ) :
    { waiting foreign db t' counter' with
      view := (waiting foreign db t' counter').view.map fun v =>
        { v with working :=
            ((waiting foreign db t counter).view.map View.working).getD v.base } } =
      waiting foreign db t' counter' := by
  by_cases ht : t = 0 <;> by_cases ht' : t' = 0 <;> simp [waiting, ht, ht', Session.start]

theorem run_db_of_reads {p : Program σ ε α} {db : σ} {counter : ℕ}
    (h : (readsOf p db counter).2 = false) : (p.run db counter).db = db := by
  induction p generalizing counter with
  | pure a => rfl
  | raise e => rfl
  | select k ih => exact ih db h
  | execute f handler k ihHandler ih => cases h
  | nextSeq k ih => exact ih (counter + 1) h

theorem applyOp_waiting_of_reads {p : Program σ ε α} {t counter : ℕ}
    (h : (readsOf p (base foreign db) counter).2 = false) :
    applyOp foreign busy p (waiting foreign db t counter) =
      (waiting foreign db (t + (readsOf p (base foreign db) counter).1)
        (p.run (base foreign db) counter).counter, (p.run (base foreign db) counter).value) := by
  rw [applyOp, exec_waiting_of_reads h]
  rcases hvalue : (p.run (base foreign db) counter).value with e | a
  · simp only [rollback_waiting]
  · rfl

variable (busy) in
theorem applyOp_waiting_of_fresh {p : Program σ ε α} {t counter : ℕ}
    (h : (readsOf p (base foreign db) counter).2 = true)
    (hfresh : later foreign (t + (readsOf p (base foreign db) counter).1 + 1) = []) :
    ∃ t', applyOp foreign busy p (waiting foreign db t counter) =
      (holding foreign db (p.runAtomic (base foreign db) counter).db (t' + 1)
        (p.runAtomic (base foreign db) counter).counter,
        (p.runAtomic (base foreign db) counter).value) := by
  obtain ⟨t', hexec⟩ := exec_waiting_of_fresh busy h hfresh
  refine ⟨t', ?_⟩
  rw [applyOp, hexec, Program.runAtomic]
  rcases p.run (base foreign db) counter with ⟨db', n, e | a⟩
  · by_cases ht : t = 0 <;> simp [waiting, holding, ht, Session.start]
  · rfl

theorem applyOp_waiting_of_stale {p : Program σ ε α} {t counter t' counter' : ℕ} {e : ε}
    (h : exec foreign busy p (waiting foreign db t counter) =
      (waiting foreign db t' counter', .error e)) :
    applyOp foreign busy p (waiting foreign db t counter) =
      (waiting foreign db t' counter', .error e) := by
  rw [applyOp, h]
  simp only [rollback_waiting]

/-- A program that fails when busy cannot return without a write. -/
theorem run_value_of_reads {p : Program σ ε α} (hp : FailsWhenBusy busy p) {db : σ} {counter : ℕ}
    (h : (readsOf p db counter).2 = false) : ∃ e, (p.run db counter).value = .error e := by
  induction p generalizing counter with
  | pure a => exact hp.elim
  | raise e => exact ⟨e, rfl⟩
  | select k ih => exact ih db (hp db) h
  | execute f handler k ihHandler ih => cases h
  | nextSeq k ih => exact ih (counter + 1) (hp (counter + 1)) h

theorem runAtomic_of_reads {p : Program σ ε α} {db : σ} {counter : ℕ}
    (h : (readsOf p db counter).2 = false) : p.runAtomic db counter = p.run db counter := by
  have hdb := run_db_of_reads h
  rw [Program.runAtomic]
  rcases hrun : p.run db counter with ⟨db', n, e | a⟩
  · rw [hrun] at hdb
    simp [← hdb]
  · rfl

variable (foreign db busy) in
theorem applyOps_holding (ps : List (Program σ ε α)) (working : σ) (t counter : ℕ) :
    ∃ t' n, applyOps foreign busy ps (holding foreign db working (t + 1) counter) =
      (holding foreign db (sequential ps working counter).1 (t' + 1) n,
        (sequential ps working counter).2) := by
  induction ps generalizing working t counter with
  | nil => exact ⟨t, counter, rfl⟩
  | cons p ps ih =>
      obtain ⟨t₁, hfirst⟩ := applyOp_holding foreign db busy p working t counter
      obtain ⟨t', n, hrest⟩ := ih (p.runAtomic working counter).db t₁
        (p.runAtomic working counter).counter
      exact ⟨t', n, by simp only [applyOps, sequential, hfirst, hrest]⟩

variable (busy) in
theorem applyOps_waiting_of_reads {ps : List (Program σ ε α)} {t counter : ℕ}
    (h : (leadingReads ps (base foreign db) counter).2 = false) :
    (∃ t' n, applyOps foreign busy ps (waiting foreign db t counter) =
      (waiting foreign db t' n, (sequential ps (base foreign db) counter).2)) ∧
      (sequential ps (base foreign db) counter).1 = base foreign db := by
  induction ps generalizing t counter with
  | nil => exact ⟨⟨t, counter, rfl⟩, rfl⟩
  | cons p ps ih =>
      by_cases hp : (readsOf p (base foreign db) counter).2 = true
      · rw [leadingReads, if_pos hp, hp] at h
        cases h
      · have hp : (readsOf p (base foreign db) counter).2 = false := by simpa using hp
        rw [leadingReads, if_neg (by simp [hp])] at h
        obtain ⟨⟨t', n, hrest⟩, hdb⟩ :=
          ih (t := t + (readsOf p (base foreign db) counter).1) h
        simp only [applyOps, sequential, applyOp_waiting_of_reads hp, runAtomic_of_reads hp,
          run_db_of_reads hp, hrest, hdb]
        exact ⟨⟨t', n, rfl⟩, trivial⟩

variable (busy) in
theorem applyOps_waiting_of_fresh {ps : List (Program σ ε α)} {t counter : ℕ}
    (h : (leadingReads ps (base foreign db) counter).2 = true)
    (hfresh : later foreign (t + (leadingReads ps (base foreign db) counter).1 + 1) = []) :
    ∃ t' n, applyOps foreign busy ps (waiting foreign db t counter) =
      (holding foreign db (sequential ps (base foreign db) counter).1 (t' + 1) n,
        (sequential ps (base foreign db) counter).2) := by
  induction ps generalizing t counter with
  | nil => cases h
  | cons p ps ih =>
      by_cases hp : (readsOf p (base foreign db) counter).2 = true
      · rw [leadingReads, if_pos hp] at hfresh
        obtain ⟨t₁, hfirst⟩ := applyOp_waiting_of_fresh busy hp hfresh
        obtain ⟨t', n, hrest⟩ := applyOps_holding foreign db busy ps
          (p.runAtomic (base foreign db) counter).db t₁
          (p.runAtomic (base foreign db) counter).counter
        exact ⟨t', n, by simp only [applyOps, sequential, hfirst, hrest]⟩
      · have hp : (readsOf p (base foreign db) counter).2 = false := by simpa using hp
        rw [leadingReads, if_neg (by simp [hp])] at h hfresh
        obtain ⟨t', n, hrest⟩ := ih (t := t + (readsOf p (base foreign db) counter).1) h
          (by rw [← hfresh]; congr 1; omega)
        refine ⟨t', n, ?_⟩
        simp only [applyOps, sequential, applyOp_waiting_of_reads hp, runAtomic_of_reads hp,
          run_db_of_reads hp, hrest]

variable (db) in
theorem applyOps_waiting_of_stale {ps : List (Program σ ε α)}
    (hps : ∀ p ∈ ps, FailsWhenBusy busy p) {t : ℕ} (counter : ℕ)
    (hstale : later foreign t ≠ []) :
    ∃ t' n outcomes, applyOps foreign busy ps (waiting foreign db t counter) =
      (waiting foreign db t' n, outcomes) ∧ ∀ o ∈ outcomes, ∃ e, o = .error e := by
  induction ps generalizing t counter with
  | nil => exact ⟨t, counter, [], rfl, by simp⟩
  | cons p ps ih =>
      obtain ⟨t₁, n₁, e, hle, hexec⟩ :=
        exec_waiting_of_stale db (hps p (by simp)) counter hstale
      obtain ⟨t', n, outcomes, hrest, herrors⟩ :=
        ih (fun q hq => hps q (by simp [hq])) n₁ (later_ne_nil_of_le hle hstale)
      refine ⟨t', n, .error e :: outcomes, ?_, ?_⟩
      · simp only [applyOps, applyOp_waiting_of_stale hexec, hrest]
      · intro o ho
        rcases List.mem_cons.mp ho with rfl | ho
        · exact ⟨e, rfl⟩
        · exact herrors o ho

theorem applyOps_waiting_of_turns_stale {ps : List (Program σ ε α)}
    (hps : ∀ p ∈ ps, FailsWhenBusy busy p) {t counter : ℕ}
    (h : (leadingReads ps (base foreign db) counter).2 = true)
    (hstale : later foreign (t + (leadingReads ps (base foreign db) counter).1 + 1) ≠ []) :
    ∃ t' n outcomes, applyOps foreign busy ps (waiting foreign db t counter) =
      (waiting foreign db t' n, outcomes) ∧ ∀ o ∈ outcomes, ∃ e, o = .error e := by
  induction ps generalizing t counter with
  | nil => cases h
  | cons p ps ih =>
      by_cases hp : (readsOf p (base foreign db) counter).2 = true
      · rw [leadingReads, if_pos hp] at hstale
        obtain ⟨t₁, n₁, e, hlater, hexec⟩ :=
          exec_waiting_of_turns_stale (hps p (by simp)) hp hstale
        obtain ⟨t', n, outcomes, hrest, herrors⟩ :=
          applyOps_waiting_of_stale db (List.forall_mem_of_forall_mem_cons hps) n₁ hlater
        refine ⟨t', n, .error e :: outcomes, ?_, ?_⟩
        · simp only [applyOps, applyOp_waiting_of_stale hexec, hrest]
        · intro o ho
          rcases List.mem_cons.mp ho with rfl | ho
          · exact ⟨e, rfl⟩
          · exact herrors o ho
      · have hp : (readsOf p (base foreign db) counter).2 = false := by simpa using hp
        rw [leadingReads, if_neg (by simp [hp])] at h hstale
        obtain ⟨e, he⟩ := run_value_of_reads (hps p (by simp)) hp
        obtain ⟨t', n, outcomes, hrest, herrors⟩ :=
          ih (t := t + (readsOf p (base foreign db) counter).1)
            (fun q hq => hps q (by simp [hq])) h
            (by rwa [Nat.add_assoc t])
        refine ⟨t', n, .error e :: outcomes, ?_, ?_⟩
        · simp only [applyOps, applyOp_waiting_of_reads hp, he, hrest]
        · intro o ho
          rcases List.mem_cons.mp ho with rfl | ho
          · exact ⟨e, rfl⟩
          · exact herrors o ho

/-! ## The whole batch -/

variable (foreign busy) in
/-- No op that would succeed on its own is lost: it has the outcome it has when
nobody else commits, and what it did is committed, together with the commits of
others that came later. -/
def Kept (batch : List (Program σ ε α)) (db : σ) (counter : ℕ) : Prop :=
  (∀ (i : ℕ) (a : α), (sequential batch (base foreign db) counter).2[i]? = some (.ok a) →
    (commitBatch foreign busy batch db counter).2[i]? = some (.ok a)) ∧
  ∃ t, (commitBatch foreign busy batch db counter).1 =
    applyAll (later foreign t) (sequential batch (base foreign db) counter).1

variable (foreign) in
/-- Nobody else commits after the first statement of a batch and before its first
write; nothing is asked when the first statement is that write. -/
def Undisturbed (batch : List (Program σ ε α)) (db : σ) (counter : ℕ) : Prop :=
  (leadingReads batch (base foreign db) counter).2 = true →
    ∀ k, 1 ≤ k → k ≤ (leadingReads batch (base foreign db) counter).1 → foreign k = []

theorem later_eq_nil_iff {n : ℕ} :
    later foreign (n + 1) = [] ↔ ∀ k, 1 ≤ k → k ≤ n → foreign k = [] := by
  induction n with
  | zero => simp [later]; omega
  | succ n ih =>
      rw [later, List.append_eq_nil_iff, ih, if_neg (Nat.succ_ne_zero n)]
      constructor
      · rintro ⟨hbefore, hlast⟩ k hk hkn
        rcases Nat.lt_or_ge k (n + 1) with h | h
        · exact hbefore k hk (by omega)
        · obtain rfl : k = n + 1 := by omega
          exact hlast
      · intro h
        exact ⟨fun k hk hkn => h k hk (by omega), h (n + 1) (by omega) (Nat.le_refl _)⟩

theorem commit_waiting (t counter : ℕ) :
    commit foreign (waiting foreign db t counter) =
      applyAll (later foreign (t + 1)) (base foreign db) := by
  by_cases ht : t = 0
  · simp [commit, waiting, ht, Session.start, Session.arrive, later, base, applyAll]
  · simp [commit, waiting, ht, Session.arrive, later, applyAll]

theorem commit_holding (working : σ) (t counter : ℕ) :
    commit foreign (holding foreign db working (t + 1) counter) =
      applyAll (later foreign (t + 2)) working := by
  simp [commit, holding, Session.arrive, Session.opened, later]

variable (foreign) in
theorem waiting_zero (counter : ℕ) :
    (Session.start db counter : Session σ) = waiting foreign db 0 counter := rfl

variable (busy) in
/-- An undisturbed batch does what it does when nobody else commits. -/
theorem commitBatch_of_undisturbed {batch : List (Program σ ε α)} {counter : ℕ}
    (h : Undisturbed foreign batch db counter) :
    ∃ t, commitBatch foreign busy batch db counter =
      (applyAll (later foreign t) (sequential batch (base foreign db) counter).1,
        (sequential batch (base foreign db) counter).2) := by
  rw [commitBatch, waiting_zero foreign]
  by_cases hwrites : (leadingReads batch (base foreign db) counter).2 = true
  · have hfresh := later_eq_nil_iff.mpr (h hwrites)
    obtain ⟨t, n, hrun⟩ := applyOps_waiting_of_fresh (t := 0) busy hwrites
      (by rwa [Nat.zero_add])
    exact ⟨t + 2, by simp only [hrun, commit_holding]⟩
  · obtain ⟨⟨t, n, hrun⟩, hdb⟩ := applyOps_waiting_of_reads (t := 0) busy
      (by simpa using hwrites)
    exact ⟨t + 1, by simp only [hrun, commit_waiting, hdb]⟩

/-- A disturbed batch commits nothing, and every op of it fails. -/
theorem commitBatch_of_disturbed {batch : List (Program σ ε α)}
    (hbatch : ∀ p ∈ batch, FailsWhenBusy busy p) {counter : ℕ}
    (h : ¬Undisturbed foreign batch db counter) :
    (∃ t, (commitBatch foreign busy batch db counter).1 =
      applyAll (later foreign t) (base foreign db)) ∧
      ∀ o ∈ (commitBatch foreign busy batch db counter).2, ∃ e, o = .error e := by
  obtain ⟨hwrites, hlate⟩ := Classical.not_imp.mp h
  obtain ⟨t, n, outcomes, hrun, herrors⟩ := applyOps_waiting_of_turns_stale (t := 0) hbatch
    hwrites (by rw [Nat.zero_add]; exact fun hnil => hlate (later_eq_nil_iff.mp hnil))
  rw [commitBatch, waiting_zero foreign]
  simp only [hrun, commit_waiting]
  exact ⟨⟨t + 1, rfl⟩, herrors⟩

theorem sequential_of_no_success {batch : List (Program σ ε α)} {db : σ} {counter : ℕ}
    (h : ∀ (i : ℕ) (a : α), (sequential batch db counter).2[i]? ≠ some (.ok a)) :
    (sequential batch db counter).1 = db := by
  induction batch generalizing counter with
  | nil => rfl
  | cons p ps ih =>
      have hfirst : (p.runAtomic db counter).db = db := by
        have h0 := h 0
        rw [Program.runAtomic]
        rcases hrun : p.run db counter with ⟨db', n, e | a⟩
        · rfl
        · exact (h0 a (by simp [sequential, Program.runAtomic, hrun])).elim
      simp only [sequential, hfirst]
      refine ih fun i a hi => h (i + 1) a ?_
      simpa only [sequential, hfirst, List.getElem?_cons_succ] using hi

/-- No op is lost exactly when the batch is undisturbed, or has nothing to lose. -/
theorem kept_iff {batch : List (Program σ ε α)} (hbatch : ∀ p ∈ batch, FailsWhenBusy busy p)
    {counter : ℕ} :
    Kept foreign busy batch db counter ↔
      Undisturbed foreign batch db counter ∨
        ∀ (i : ℕ) (a : α), (sequential batch (base foreign db) counter).2[i]? ≠ some (.ok a) := by
  constructor
  · rintro ⟨hkept, -⟩
    by_contra hnot
    obtain ⟨hdisturbed, hsome⟩ := not_or.mp hnot
    refine hsome fun i a hia => ?_
    obtain ⟨e, he⟩ := (commitBatch_of_disturbed hbatch hdisturbed).2 _
      (List.mem_of_getElem? (hkept i a hia))
    cases he
  · rintro (hundisturbed | hnone)
    · obtain ⟨t, hrun⟩ := commitBatch_of_undisturbed busy hundisturbed
      exact ⟨fun i a hia => by rw [hrun]; exact hia, t, by rw [hrun]⟩
    · refine ⟨fun i a hia => (hnone i a hia).elim, ?_⟩
      rw [sequential_of_no_success hnone]
      by_cases hundisturbed : Undisturbed foreign batch db counter
      · obtain ⟨t, hrun⟩ := commitBatch_of_undisturbed busy hundisturbed
        exact ⟨t, by rw [hrun, sequential_of_no_success hnone]⟩
      · exact (commitBatch_of_disturbed hbatch hundisturbed).1

end RerollSync.Support.Snapshot
